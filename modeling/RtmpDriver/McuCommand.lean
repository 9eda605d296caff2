import Mathlib.Data.List.Basic

/-! andes_send_cmd_msg for a message that waits for its response and may be sent again (need_wait, need_rsp and
need_retransmit), while MCU_INIT is set. What the device and the USB core do with each attempt is an `Outcome`. -/
namespace RtmpDriver.McuCommand

def cmdMsgRetransmitTimes : Nat := 3
def ndisStatusSuccess : Int := 0
def ndisStatusFailure : Int := 1
def ndisStatusResources : Int := 3

inductive CmdMsgState where
  | illegal | txStart | txKickoutFail | txTimeoutFail | txRetransmit | txDone | waitCmdOut | waitCmdOutAndAck
  | waitAck | rxStart | rxReceiveFail | rxDone
  deriving DecidableEq, Repr

/- Every caller of andes_init_cmd_msg gives need_wait, need_retransmit and need_rsp together, or none of them. -/
inductive Kind where
  | answered | posted
  deriving DecidableEq, Repr

def Kind.needWait : Kind → Bool
  | .answered => true
  | .posted => false

def Kind.needRetransmit : Kind → Bool
  | .answered => true
  | .posted => false

def Kind.needRsp : Kind → Bool
  | .answered => true
  | .posted => false

/- A command response: pkt_len of RXFCE_INFO_CMD, which has 14 bits, and the bytes behind it. -/
structure Response where
  pktLen : BitVec 14
  payload : Nat → UInt8

inductive Outcome where
  | acknowledged (rsp : Response)
  | submitFail
  | completeFail
  -- no response in time; the command itself went out or not
  | timeout (kickedOut : Bool)

def Outcome.acked : Outcome → Bool
  | .acknowledged _ => true
  | _ => false

def Outcome.timedOut : Outcome → Bool
  | .timeout _ => true
  | _ => false

structure Awaited where
  state : CmdMsgState
  rspPayloadLen : BitVec 16
  handled : Option Response

def andesInitCmdMsg (rspPayloadLen : BitVec 16) : Awaited := ⟨.illegal,rspPayloadLen,none⟩

/- A length other than the expected one skips the handler; the waiter is woken all the same. -/
def andesRxProcessCmdMsg (msg : Awaited) (rsp : Response) : Awaited :=
  if msg.rspPayloadLen.toNat = rsp.pktLen.toNat ∧ msg.rspPayloadLen ≠ 0 then { msg with handled := some rsp }
  else if msg.rspPayloadLen = 0 ∧ rsp.pktLen = 8 then msg
  else { msg with rspPayloadLen := rsp.pktLen.setWidth 16 }

/- usb_kick_out_cmd_msg and what happens until the wait is over: the message, and whether it was completed. -/
def kickOutAndWait (msg : Awaited) : Outcome → Awaited × Bool
  | .submitFail => ({ msg with state := .txKickoutFail },true)
  | .completeFail => ({ msg with state := .txKickoutFail },true)
  | .acknowledged rsp => (andesRxProcessCmdMsg { msg with state := .waitAck } rsp,true)
  | .timeout true => ({ msg with state := .waitAck },false)
  | .timeout false => ({ msg with state := .waitCmdOutAndAck },false)

/- usb_kill_urb runs the completion with an error; a message that went out is taken off ackq. -/
def afterTimeout (msg : Awaited) : Awaited :=
  if msg.state = .waitCmdOutAndAck then { msg with state := .txKickoutFail } else msg

/- One turn from `retransmit` to the state the message is to be queued with, and the return code so far. -/
structure Turn where
  msg : Awaited
  state : CmdMsgState
  ret : Int

def turn (msg : Awaited) (outcome : Outcome) (ret : Int) : Turn :=
  match kickOutAndWait msg outcome with
  | (msg,false) => ⟨afterTimeout msg,.txTimeoutFail,ndisStatusFailure⟩
  | (msg,true) =>
    if msg.state = .txKickoutFail then ⟨msg,.txKickoutFail,ret⟩
    else ⟨msg,.txDone,ret⟩

structure Sent where
  ret : Int
  attempts : Nat
  msg : Awaited

/- The loop over the attempts. Every turn that fails takes one off retransmit_times, and one that succeeds sets it
to 0; the loop goes on as long as it is positive. -/
def sendLoop (outcome : Nat → Outcome) : Nat → Nat → Awaited → Int → Sent
  | 0,attempt,msg,ret =>
    let t := turn msg (outcome attempt) ret
    ⟨t.ret,attempt + 1,{ t.msg with state := t.state }⟩
  | retransmitTimes + 1,attempt,msg,ret =>
    let t := turn msg (outcome attempt) ret
    if t.state ≠ .txDone ∧ 0 < retransmitTimes then
      sendLoop outcome retransmitTimes (attempt + 1) { t.msg with state := .txRetransmit } t.ret
    else ⟨t.ret,attempt + 1,{ t.msg with state := t.state }⟩

/- The flags of the adapter, and whether a signal ends the wait for mcu_atomic. -/
structure Entry where
  mcuSendInBandCmd : Bool
  nicNotExist : Bool
  suspend : Bool
  interrupted : Bool

def Entry.refused (entry : Entry) : Bool := !entry.mcuSendInBandCmd || entry.nicNotExist || entry.suspend

def Entry.ready (interrupted : Bool) : Entry := ⟨true,false,false,interrupted⟩

def downInterruptible (interrupted : Bool) : Int := if interrupted then -4 else 0

/- The status of the wait is the first value of ret; the command is sent whatever it is. -/
def andesSendCmdMsg (entry : Entry) (outcome : Nat → Outcome) (msg : Awaited) : Sent :=
  if entry.refused then ⟨ndisStatusFailure,0,msg⟩
  else sendLoop outcome cmdMsgRetransmitTimes 0 { msg with state := .txStart } (downInterruptible entry.interrupted)

structure Attempted (outcome : Nat → Outcome) (times start : Nat) (before : Int) (sent : Sent) (n : Nat) : Prop where
  some : 0 < n
  most : n ≤ max times 1
  count : sent.attempts = start + n
  earlier : ∀ j, j + 1 < n → (outcome (start + j)).acked = false
  last : (outcome (start + (n - 1))).acked = true ∨ n = max times 1
  code : sent.ret = 0 ↔ before = 0 ∧ ∀ j < n, (outcome (start + j)).timedOut = false

variable {outcome : Nat → Outcome} {ret : Int}

theorem processState (msg rsp) : (andesRxProcessCmdMsg msg rsp).state = msg.state := by
  unfold andesRxProcessCmdMsg
  split
  · rfl
  split
  · rfl
  · rfl

theorem turnDone (msg o ret) : (turn msg o ret).state = .txDone ↔ o.acked = true := by
  cases o with
  | acknowledged rsp =>
    have state := processState { msg with state := .waitAck } rsp
    simp [turn,kickOutAndWait,state,Outcome.acked]
  | submitFail => simp [turn,kickOutAndWait,Outcome.acked]
  | completeFail => simp [turn,kickOutAndWait,Outcome.acked]
  | timeout kickedOut => cases kickedOut <;> simp [turn,kickOutAndWait,Outcome.acked]

theorem turnRet (msg o ret) : (turn msg o ret).ret = 0 ↔ ret = 0 ∧ o.timedOut = false := by
  cases o with
  | acknowledged rsp =>
    have state := processState { msg with state := .waitAck } rsp
    simp [turn,kickOutAndWait,state,Outcome.timedOut]
  | submitFail => simp [turn,kickOutAndWait,Outcome.timedOut]
  | completeFail => simp [turn,kickOutAndWait,Outcome.timedOut]
  | timeout kickedOut => cases kickedOut <;> simp [turn,kickOutAndWait,Outcome.timedOut,ndisStatusFailure]

def accepted (len : BitVec 16) : Outcome → Option Response
  | .acknowledged rsp => if len.toNat = rsp.pktLen.toNat ∧ len ≠ 0 then some rsp else none
  | _ => none

theorem processHandled (msg) (fresh : msg.handled = none) (rsp) :
    (andesRxProcessCmdMsg msg rsp).handled = accepted msg.rspPayloadLen (.acknowledged rsp) := by
  unfold andesRxProcessCmdMsg
  simp only [accepted]
  split
  · rfl
  split
  · exact fresh
  · exact fresh

theorem turnHandled {msg} (fresh : msg.handled = none) (o ret) :
    (turn msg o ret).msg.handled = accepted msg.rspPayloadLen o := by
  cases o with
  | acknowledged rsp =>
    have state := processState { msg with state := .waitAck } rsp
    have handled := processHandled { msg with state := .waitAck } fresh rsp
    simp [turn,kickOutAndWait,state,handled]
  | submitFail => simpa [turn,kickOutAndWait,accepted] using fresh
  | completeFail => simpa [turn,kickOutAndWait,accepted] using fresh
  | timeout kickedOut => cases kickedOut <;> simpa [turn,kickOutAndWait,afterTimeout,accepted] using fresh

theorem turnLength (msg) {o} (ret) (unacked : o.acked = false) :
    (turn msg o ret).msg.rspPayloadLen = msg.rspPayloadLen := by
  cases o with
  | acknowledged rsp => cases unacked
  | submitFail => simp [turn,kickOutAndWait]
  | completeFail => simp [turn,kickOutAndWait]
  | timeout kickedOut => cases kickedOut <;> simp [turn,kickOutAndWait,afterTimeout]

theorem acceptedUnacked (len) {o} (unacked : o.acked = false) : accepted len o = none := by
  cases o with
  | acknowledged rsp => cases unacked
  | submitFail => rfl
  | completeFail => rfl
  | timeout kickedOut => rfl

theorem loopHandled (outcome times start) {msg} (ret) (fresh : msg.handled = none) :
    (sendLoop outcome times start msg ret).msg.handled =
      accepted msg.rspPayloadLen (outcome ((sendLoop outcome times start msg ret).attempts - 1)) := by
  induction times generalizing start msg ret with
  | zero => exact turnHandled fresh _ _
  | succ times ih =>
    unfold sendLoop
    simp only
    split
    next again =>
      have unacked : (outcome start).acked = false := by
        have failed := again.1
        rw [Ne,turnDone] at failed
        simpa using failed
      rw [ih (start + 1) _ (by rw [turnHandled fresh]; exact acceptedUnacked _ unacked),turnLength msg ret unacked]
    next => exact turnHandled fresh _ _

theorem attemptedOne {times start sent} (count : sent.attempts = start + 1)
    (last : (outcome start).acked = true ∨ times ≤ 1)
    (code : sent.ret = 0 ↔ ret = 0 ∧ (outcome start).timedOut = false) : Attempted outcome times start ret sent 1 := by
  refine ⟨Nat.one_pos,by omega,count,fun j less => by omega,?_,?_⟩
  · rcases last with acked | few
    · exact .inl acked
    · exact .inr (by omega)
  · rw [code]
    refine and_congr_right fun _ => ⟨fun first j less => ?_,fun all => all 0 Nat.one_pos⟩
    rwa [Nat.lt_one_iff.mp less]

theorem loopAttempted (outcome times start msg ret) :
    ∃ n, Attempted outcome times start ret (sendLoop outcome times start msg ret) n := by
  induction times generalizing start msg ret with
  | zero => exact ⟨1,attemptedOne rfl (.inr (by omega)) (turnRet _ _ _)⟩
  | succ times ih =>
    unfold sendLoop
    simp only
    split
    next again =>
      obtain ⟨failed,left⟩ := again
      have unacked : (outcome start).acked = false := by
        rw [Ne,turnDone] at failed
        simpa using failed
      obtain ⟨n,rest⟩ := ih (start + 1) { (turn msg (outcome start) ret).msg with state := .txRetransmit }
        (turn msg (outcome start) ret).ret
      refine ⟨n + 1,Nat.succ_pos n,by have := rest.most; omega,by rw [rest.count]; omega,?_,?_,?_⟩
      · intro j less
        cases j with
        | zero => exact unacked
        | succ j =>
          have later := rest.earlier j (by omega)
          rwa [Nat.add_right_comm,Nat.add_assoc] at later
      · have some := rest.some
        rcases rest.last with acked | all
        · refine .inl ?_
          have place : start + (n + 1 - 1) = start + 1 + (n - 1) := by omega
          rwa [place]
        · exact .inr (by omega)
      · rw [rest.code,turnRet,and_assoc]
        refine and_congr_right fun _ => ⟨fun both j less => ?_,fun all => ⟨all 0 (Nat.succ_pos n),fun j less => ?_⟩⟩
        · cases j with
          | zero => exact both.1
          | succ j =>
            have later := both.2 j (by omega)
            rwa [Nat.add_right_comm,Nat.add_assoc] at later
        · have later := all (j + 1) (by omega)
          rwa [Nat.add_right_comm,Nat.add_assoc]
    next done =>
      refine ⟨1,attemptedOne rfl ?_ (turnRet _ _ _)⟩
      rcases Nat.eq_zero_or_pos times with none | left
      · exact .inr (by omega)
      · refine .inl ((turnDone msg (outcome start) ret).mp ?_)
        exact Decidable.byContradiction fun failed => done ⟨failed,left⟩

theorem sentAttempted (entry outcome msg) (accepting : entry.refused = false) :
    ∃ n, Attempted outcome cmdMsgRetransmitTimes 0 (downInterruptible entry.interrupted)
      (andesSendCmdMsg entry outcome msg) n := by
  unfold andesSendCmdMsg
  rw [accepting,if_neg Bool.false_ne_true]
  exact loopAttempted outcome cmdMsgRetransmitTimes 0 _ _

theorem sentHandled (entry outcome len) (accepting : entry.refused = false) :
    (andesSendCmdMsg entry outcome (andesInitCmdMsg len)).msg.handled =
      accepted len (outcome ((andesSendCmdMsg entry outcome (andesInitCmdMsg len)).attempts - 1)) := by
  unfold andesSendCmdMsg
  rw [accepting,if_neg Bool.false_ne_true]
  exact loopHandled outcome cmdMsgRetransmitTimes 0 _ rfl

theorem interruptedCode (interrupted) : downInterruptible interrupted = 0 ↔ interrupted = false := by
  cases interrupted <;> decide

structure TimeoutsTell (interrupted : Bool) (outcome : Nat → Outcome) : Prop where
  acknowledged : ∀ k < cmdMsgRetransmitTimes, (outcome k).acked = true → (∀ j < k, (outcome j).acked = false) →
    interrupted = false ∧ ∀ j < k, (outcome j).timedOut = false
  unacknowledged : (∀ k < cmdMsgRetransmitTimes, (outcome k).acked = false) →
    interrupted = true ∨ ∃ k < cmdMsgRetransmitTimes, (outcome k).timedOut = true

theorem ackedInTime {o : Outcome} (acked : o.acked = true) : o.timedOut = false := by
  cases o with
  | acknowledged rsp => rfl
  | submitFail => rfl
  | completeFail => rfl
  | timeout kickedOut => cases acked

theorem lastIsFirst {sent n k} (attempted : Attempted outcome cmdMsgRetransmitTimes 0 ret sent n)
    (less : k < cmdMsgRetransmitTimes) (acked : (outcome k).acked = true)
    (first : ∀ j < k, (outcome j).acked = false) : n = k + 1 := by
  have three : cmdMsgRetransmitTimes = 3 := rfl
  have some := attempted.some
  have most := attempted.most
  have notLater : ¬ k + 1 < n := by
    intro later
    have unacked := attempted.earlier k later
    rw [Nat.zero_add,acked] at unacked
    cases unacked
  rcases attempted.last with last | all
  · refine Decidable.byContradiction fun other => ?_
    have unacked := first (n - 1) (by omega)
    rw [Nat.zero_add,unacked] at last
    cases last
  · omega

theorem sendTells (interrupted : Bool) (outcome : Nat → Outcome) (rspPayloadLen : BitVec 16) :
    (andesSendCmdMsg (.ready interrupted) outcome (andesInitCmdMsg rspPayloadLen)).attempts ≤ cmdMsgRetransmitTimes ∧
        ((andesSendCmdMsg (.ready interrupted) outcome (andesInitCmdMsg rspPayloadLen)).ret = ndisStatusSuccess ↔
          (outcome ((andesSendCmdMsg (.ready interrupted) outcome
            (andesInitCmdMsg rspPayloadLen)).attempts - 1)).acked = true) ↔
      TimeoutsTell interrupted outcome := by
  have three : cmdMsgRetransmitTimes = 3 := rfl
  obtain ⟨n,attempted⟩ := sentAttempted (.ready interrupted) outcome (andesInitCmdMsg rspPayloadLen) rfl
  have some := attempted.some
  have most := attempted.most
  have last := attempted.last
  have code := attempted.code
  have earlier := attempted.earlier
  simp only [Nat.zero_add,interruptedCode,Entry.ready] at last code earlier
  rw [attempted.count,Nat.zero_add]
  constructor
  · rintro ⟨_,tells⟩
    refine ⟨fun k less acked first => ?_,fun none => ?_⟩
    · have whole := lastIsFirst attempted less acked first
      have final : (outcome (n - 1)).acked = true := by rwa [whole,Nat.add_sub_cancel]
      obtain ⟨calm,quiet⟩ := code.mp (tells.mpr final)
      exact ⟨calm,fun j before => quiet j (by omega)⟩
    · refine Decidable.byContradiction fun neither => ?_
      obtain ⟨calm,noTimeout⟩ := not_or.mp neither
      have final := tells.mp (code.mpr ⟨Bool.eq_false_iff.mpr calm,fun j less => ?_⟩)
      · rw [none (n - 1) (by omega)] at final
        cases final
      · refine Bool.eq_false_iff.mpr fun timedOut => noTimeout ⟨j,by omega,timedOut⟩
  · intro condition
    refine ⟨by omega,?_,?_⟩
    · intro success
      obtain ⟨calm,quiet⟩ := code.mp success
      refine Decidable.byContradiction fun unacked => ?_
      have all : n = 3 := by
        rcases last with acked | all
        · exact absurd acked unacked
        · omega
      subst all
      have none : ∀ k < cmdMsgRetransmitTimes, (outcome k).acked = false := fun k less => by
        rcases Nat.lt_or_ge (k + 1) 3 with before | final
        · exact earlier k before
        · have place : k = 2 := by omega
          subst place
          simpa using unacked
      rcases condition.unacknowledged none with signal | ⟨k,less,timedOut⟩
      · rw [calm] at signal
        cases signal
      · rw [quiet k less] at timedOut
        cases timedOut
    · intro acked
      obtain ⟨calm,before⟩ := condition.acknowledged (n - 1) (by omega) acked (fun i small => earlier i (by omega))
      refine code.mpr ⟨calm,fun j less => ?_⟩
      rcases Nat.lt_or_ge j (n - 1) with small | final
      · exact before j small
      · have place : j = n - 1 := by omega
        rw [place]
        exact ackedInTime acked

def lateResponse : Nat → Outcome
  | 0 => .timeout true
  | _ => .acknowledged ⟨8,fun _ => 0⟩

theorem sendMisreports :
    ¬ ((andesSendCmdMsg (.ready false) lateResponse (andesInitCmdMsg 0)).ret = ndisStatusSuccess ↔
        (lateResponse ((andesSendCmdMsg (.ready false) lateResponse (andesInitCmdMsg 0)).attempts - 1)).acked = true) ∧
      (andesSendCmdMsg (.ready false) (fun _ => .submitFail) (andesInitCmdMsg 0)).attempts = 3 ∧
      (andesSendCmdMsg (.ready false) (fun _ => .submitFail) (andesInitCmdMsg 0)).ret = ndisStatusSuccess ∧
      Outcome.acked .submitFail = false := by
  decide

end RtmpDriver.McuCommand
