import RtmpDriver.McuLinear

/-! The packet of a command message, from andes_send_cmd_msg to its URBs, and the loop of
andes_dequeue_and_kick_out_cmd_msgs with nobody else at work. -/
namespace RtmpDriver.McuFormat
open McuCommand (CmdMsgState Kind)
open McuQueues McuLife McuSender McuLinear StepMachine List

structure TxInfo where
  pktLen : BitVec 16
  cmdSeq : BitVec 4
  cmdType : BitVec 7
  dPort : BitVec 3
  infoType : BitVec 2
  deriving DecidableEq, Repr

def TxInfo.bytes (info : TxInfo) : List UInt8 :=
  let word : BitVec 32 := info.infoType ++ info.dPort ++ info.cmdType ++ info.cmdSeq ++ info.pktLen
  (range 4).map fun i => ⟨word.extractLsb' (8 * i) 8⟩

def cpuTxPort : BitVec 3 := 2
def cmdPacket : BitVec 2 := 1
def usbEndPadding : Nat := 4

/- What the caller has put in the message; no caller puts more than InbandPacketMaxLen or 512 bytes there. -/
structure Order where
  type : BitVec 7
  payload : List UInt8
  short : payload.length < 65536

def txInfo (order : Order) (seq length : Nat) : TxInfo :=
  ⟨BitVec.ofNat 16 length,BitVec.ofNat 4 seq,order.type,cpuTxPort,cmdPacket⟩

structure Submitted where
  msg : Nat
  seq : Nat
  bytes : List UInt8
  deriving DecidableEq, Repr

/- `dropped` has the messages that are to be answered and whose first attempt the adapter's flags have ended. -/
structure Wire where
  ctl : McuCtrl
  netPkt : Nat → List UInt8
  urbs : List Submitted
  dropped : List Nat

def Wire.init : Wire := ⟨McuCtrl.init,fun _ => [],[],[]⟩

section Machine
variable (orders : Nat → Order)

def format (w : Wire) : Event → Nat → List UInt8
  | .send _ _ =>
    match w.ctl.sender with
    | .idle => Function.update w.netPkt w.ctl.count (orders w.ctl.count).payload
    | _ => w.netPkt
  | .sender _ =>
    match w.ctl.sender with
    | .cleared m n =>
      if (w.ctl.msgs n).state = .txRetransmit then w.netPkt
      else Function.update w.netPkt n
        ((txInfo (orders n) ((cleared w.ctl m n).msgs n).seq (w.netPkt n).length).bytes ++ w.netPkt n)
    | .numbered _ n =>
      if (w.ctl.msgs n).state = .txRetransmit then w.netPkt
      else Function.update w.netPkt n (w.netPkt n ++ replicate usbEndPadding 0)
    | _ => w.netPkt
  | _ => w.netPkt

def submitted (s : McuCtrl) : Event → Option Nat
  | .sender true =>
    match s.sender with
    | .queued _ n => some n
    | _ => none
  | _ => none

def submit (w : Wire) (e : Event) : List Submitted :=
  match submitted w.ctl e with
  | some n => ⟨n,(w.ctl.msgs n).seq,w.netPkt n⟩ :: w.urbs
  | none => w.urbs

def drop (w : Wire) : Event → List Nat
  | .sender false =>
    match w.ctl.sender with
    | .taken _ n =>
      if (w.ctl.msgs n).kind = .answered ∧ (w.ctl.msgs n).state = .txStart then n :: w.dropped else w.dropped
    | _ => w.dropped
  | _ => w.dropped

def step (w : Wire) (e : Event) : Wire := ⟨McuQueues.step w.ctl e,format orders w e,submit w e,drop w e⟩

end Machine

def inLoop : Sender → Bool
  | .loop _ | .taken _ _ | .blocked _ _ | .cleared _ _ | .numbered _ _ => true
  | .queued _ _ | .failed _ _ | .unlinked _ _ => true
  | _ => false

def dequeues (s : McuCtrl) : Nat :=
  match s.sender with
  | .loop _ => if s.queues .txq = [] then 0 else 1
  | _ => 0

/- The turns until the loop ends, given the results of its tests; `none` where it still runs after the last of them. -/
def drain : List Bool → McuCtrl → Option Nat
  | [],s => if inLoop s.sender then none else some 0
  | ok :: rest,s => if inLoop s.sender then (drain rest (senderStep s ok)).map (dequeues s + ·) else some 0

def Ends (s : McuCtrl) : Prop :=
  ∀ m, s.sender = .loop m → ∀ oks : List Bool, 7 * (s.queues .txq).length < oks.length →
    ∃ turns ≤ (s.queues .txq).length, drain oks s = some turns

def Formatted (orders : Nat → Order) (urb : Submitted) : Prop :=
  ∃ info : TxInfo,
    urb.bytes = info.bytes ++ (orders urb.msg).payload ++ replicate usbEndPadding 0 ∧
    info.cmdSeq.toNat = urb.seq ∧ info.pktLen.toNat = (orders urb.msg).payload.length

def Admits (w : Wire) (e : Event) : Prop := ∀ n ∈ submitted w.ctl e, n ∉ w.dropped

def Sound (w : Wire) (e : Event) : Prop := UsbOrdered w.ctl e ∧ Calm w.ctl e ∧ Admits w e

instance decidableSound (w : Wire) (e : Event) : Decidable (Sound w e) :=
  have : Decidable (Admits w e) := inferInstanceAs (Decidable (∀ n ∈ submitted w.ctl e,_))
  inferInstanceAs (Decidable (_ ∧ _ ∧ _))

section Loop
variable {s : McuCtrl} {stage : Nat → Stage} {m : Nat}

theorem loopAlone (lives : Lives s stage) (pc : s.sender = .loop m) : s.queues .txq = [] ∨
    s.queues .txq = [m] ∧ s.queues .ackq = [] := by
  have only : ∀ n ∈ s.queues .txq, n = m := by
    intro n member
    have life := lives.life n
    rw [lives.onTxq.mp member,pc] at life
    exact (Sender.loop.inj life.1).symm
  rcases eq_nil_or_concat' (s.queues .txq) with empty | ⟨front,last,full⟩
  · exact .inl empty
  · refine .inr ?_
    have nodup := (lives.queues .txq).nodup
    have here : last = m := only last (by simp [full])
    have none : front = [] := by
      refine eq_nil_iff_forall_not_mem.mpr fun n member => ?_
      have same := only n (by simp [full,member])
      rw [full,nodup_append] at nodup
      exact nodup.2.2 n member last (mem_singleton_self last) (same.trans here.symm)
    rw [full,none,here]
    refine ⟨rfl,eq_nil_iff_forall_not_mem.mpr fun n member => ?_⟩
    have waiting : stage m = .waiting := lives.onTxq.mp (by simp [full,here])
    have life := lives.life n
    rw [lives.onQueue] at member
    rw [pc] at life
    rcases queueOfCases (s.msgs n).kind with ⟨queue,kind⟩ | ⟨queue,kind⟩ <;>
      cases now : stage n <;> simp_all [Stage.queue,Life]

def rank : Sender → Nat
  | .loop _ | .unlinked _ _ => 1
  | .failed _ _ => 2
  | .queued _ _ => 3
  | .numbered _ _ => 4
  | .cleared _ _ => 5
  | .taken _ _ => 6
  | _ => 0

structure Draining (s : McuCtrl) : Prop where
  empty : s.queues .txq = []
  clear : ∀ m n, s.sender = .taken m n → s.queues .ackq = []
  onward : ∀ m n, s.sender ≠ .blocked m n

theorem Draining.step (draining : Draining s) (loops : inLoop s.sender = true) (ok) :
    Draining (senderStep s ok) ∧ rank (senderStep s ok).sender < rank s.sender := by
  obtain ⟨empty,clear,onward⟩ := draining
  have same (kind : Kind) : queueOf kind ≠ .txq := by cases kind <;> simp [queueOf,Kind.needRsp]
  cases pc : s.sender <;> simp only [inLoop,pc,Bool.false_eq_true] at loops
  all_goals simp only [senderStep,pc]
  case loop m =>
    simp only [dequeue,empty,afterKick]
    split <;> exact ⟨⟨empty,by simp,by simp⟩,by simp [rank]⟩
  case taken m n =>
    simp only [taken,clear m n pc,if_true]
    split
    next => exact ⟨⟨empty,by simp,by simp⟩,by simp [rank]⟩
    next => split <;> exact ⟨⟨empty,by simp,by simp⟩,by simp [rank]⟩
  case blocked m n => exact absurd pc (onward m n)
  case cleared m n =>
    simp only [cleared]
    split
    next => exact ⟨⟨empty,by simp,by simp⟩,by simp [rank]⟩
    next => split <;> exact ⟨⟨empty,by simp,by simp⟩,by simp [rank]⟩
  case numbered m n =>
    refine ⟨⟨?_,by simp [numbered],by simp [numbered]⟩,by simp [numbered,rank]⟩
    simp [numbered,andesQueueTailCmdMsg,change,Function.update_of_ne (same _).symm,empty]
  case queued m n =>
    simp only [queued]
    split <;> exact ⟨⟨empty,by simp,by simp⟩,by simp [rank]⟩
  case failed m n =>
    simp only [andesUnlinkCmdMsg]
    split
    next => exact ⟨⟨by simp [Function.update_of_ne (same _).symm,empty],by simp,by simp⟩,by simp [rank]⟩
    next => exact ⟨⟨empty,by simp,by simp⟩,by simp [rank]⟩
  case unlinked m n =>
    have kept : (kickoutFailed s n).queues .txq = [] := by
      unfold kickoutFailed
      split
      · exact empty
      · simp [andesQueueTailCmdMsg,empty]
    simp only [afterKick]
    split <;> exact ⟨⟨kept,by simp,by simp⟩,by simp [rank]⟩

theorem Draining.turns (draining : Draining s) : dequeues s = 0 := by
  unfold dequeues
  split
  · rw [if_pos draining.empty]
  · rfl

theorem drainOut {oks} (out : inLoop s.sender = false) : drain oks s = some 0 := by
  cases oks <;> simp [drain,out]

theorem Draining.drain {oks} (draining : Draining s) (enough : rank s.sender ≤ oks.length) :
    drain oks s = some 0 := by
  induction oks generalizing s with
  | nil =>
    refine drainOut ?_
    cases pc : s.sender <;> simp_all [rank,inLoop]
    exact draining.onward _ _ pc
  | cons ok rest ih =>
    cases loops : inLoop s.sender with
    | false => exact drainOut loops
    | true =>
      obtain ⟨later,less⟩ := draining.step loops ok
      rw [length_cons] at enough
      rw [McuFormat.drain,if_pos loops,ih later (by omega),draining.turns]
      rfl

theorem loopEnds (lives : Lives s stage) : Ends s := by
  intro m pc oks enough
  rcases loopAlone lives pc with empty | ⟨one,clear⟩
  · have draining : Draining s := ⟨empty,by simp [pc],by simp [pc]⟩
    exact ⟨0,Nat.zero_le _,draining.drain (by rw [pc,rank]; omega)⟩
  · rw [one] at enough ⊢
    cases oks with
    | nil => exact absurd enough (Nat.not_lt_zero _)
    | cons ok rest =>
      have draining : Draining (senderStep s ok) := by
        simp only [senderStep,pc,dequeue,one,andesUnlinkCmdMsg]
        refine ⟨?_,?_,?_⟩ <;> simp [clear]
      have taken : (senderStep s ok).sender = .taken m m := by simp only [senderStep,pc,dequeue,one]
      have loops : inLoop s.sender = true := by rw [pc,inLoop]
      refine ⟨1,Nat.le_refl 1,?_⟩
      rw [drain,if_pos loops,draining.drain (by rw [taken,rank]; simp at enough; omega)]
      simp [dequeues,pc,one]

end Loop

def fresh : CmdMsgState → Bool
  | .illegal | .txStart => true
  | _ => false

def early : Stage → Bool
  | .unborn | .waiting | .picked | .freed => true
  | _ => false

def holding : Sender → Bool
  | .taken _ _ | .blocked _ _ | .cleared _ _ | .numbered _ _ => true
  | _ => false

inductive Packet (orders : Nat → Order) (w : Wire) (stage : Stage) (n : Nat) : Prop where
  | unborn (unborn : stage = .unborn)
  | lost (lost : n ∈ w.dropped)
  | bare (new : fresh (w.ctl.msgs n).state = true) (here : early stage = true)
      (apart : ∀ m, w.ctl.sender ≠ .numbered m n) (bytes : w.netPkt n = (orders n).payload)
  | headed {m : Nat} (new : fresh (w.ctl.msgs n).state = true) (pc : w.ctl.sender = .numbered m n)
      (small : (w.ctl.msgs n).seq < 16)
      (bytes : w.netPkt n =
        (txInfo (orders n) (w.ctl.msgs n).seq (orders n).payload.length).bytes ++ (orders n).payload)
  | whole (old : fresh (w.ctl.msgs n).state = false) (small : (w.ctl.msgs n).seq < 16)
      (bytes : w.netPkt n = (txInfo (orders n) (w.ctl.msgs n).seq (orders n).payload.length).bytes ++
        (orders n).payload ++ replicate usbEndPadding 0)

/- What a step leaves of a message that it does not format: its number, and its state unless it is on its way. -/
structure Frame (s t : McuCtrl) (stage : Nat → Stage) (k : Nat) : Prop where
  seq : (t.msgs k).seq = (s.msgs k).seq
  state : (t.msgs k).state = (s.msgs k).state ∨ fresh (t.msgs k).state = false ∧ early (stage k) = false
  born : s.count ≤ k → t.count ≤ k
  numbered : ∀ m, t.sender = .numbered m k ↔ s.sender = .numbered m k

section Packets
variable {orders : Nat → Order} {w v : Wire} {stage later : Nat → Stage} {k : Nat}

theorem earlyStays {t} (after : Lives t later) (follows : Stage.Follows stage later)
    (picked : stage k = .picked → early (later k) = true ∨ holding t.sender = true)
    (here : early (stage k) = true) : early (later k) = true := by
  rcases follows k with still | moved
  · rw [still,here]
  cases now : stage k <;> simp only [now,early,Bool.false_eq_true] at here
  case picked =>
    rcases picked now with done | held
    · exact done
    · have life := after.life k
      rw [now] at moved
      cases next : later k <;> simp only [next,Stage.next,mem_cons,not_mem_nil,reduceCtorEq,or_false] at moved
      all_goals simp only [next,Life,Returned,early] at life ⊢
      all_goals grind [holding]
  all_goals
    rw [now] at moved
    cases next : later k <;> simp_all [Stage.next,early]

theorem dropKept {e} (lost : k ∈ w.dropped) : k ∈ drop w e := by
  unfold drop
  split
  · split
    · split
      · exact mem_cons_of_mem _ lost
      · exact lost
    · exact lost
  · exact lost

theorem Frame.packet (frame : Frame w.ctl v.ctl stage k) (lives : Lives w.ctl stage) (after : Lives v.ctl later)
    (follows : Stage.Follows stage later) (same : v.netPkt k = w.netPkt k)
    (kept : k ∈ w.dropped → k ∈ v.dropped)
    (picked : fresh (w.ctl.msgs k).state = true → stage k = .picked →
      (early (later k) = true ∨ holding v.ctl.sender = true) ∨ k ∈ v.dropped)
    (packet : Packet orders w (stage k) k) : Packet orders v (later k) k := by
  have unmoved (here : early (stage k) = true) : (v.ctl.msgs k).state = (w.ctl.msgs k).state := by
    rcases frame.state with state | ⟨_,late⟩
    · exact state
    · rw [here] at late
      cases late
  cases packet with
  | unborn no => exact .unborn ((after.unborn k).mpr (frame.born ((lives.unborn k).mp no)))
  | lost lost => exact .lost (kept lost)
  | bare new here apart bytes =>
    by_cases lost : k ∈ v.dropped
    · exact .lost lost
    · exact .bare (unmoved here ▸ new)
        (earlyStays after follows (fun now => (picked new now).resolve_right lost) here)
        (fun m pc => apart m ((frame.numbered m).mp pc)) (same.trans bytes)
  | headed new pc small bytes =>
    have here : stage k = .picked := (livesInHand lives (.inr (.inr (.inr pc)))).2.1
    refine .headed (unmoved (by rw [here,early]) ▸ new) ((frame.numbered _).mpr pc) (frame.seq ▸ small) ?_
    rw [same,frame.seq,bytes]
  | whole old small bytes =>
    refine .whole ?_ (frame.seq ▸ small) (by rw [same,frame.seq,bytes])
    rcases frame.state with state | ⟨state,_⟩
    · rw [state,old]
    · exact state

end Packets

section Messages
variable (s : McuCtrl) (n k : Nat) (q : Queue) (state : CmdMsgState)

@[grind =] theorem changeMsgs (f) :
    (change s n f).msgs k = if k = n then f (s.msgs n) else s.msgs k := Function.update_apply ..

@[grind =] theorem tailMsgs : (andesQueueTailCmdMsg s q n state).msgs k =
    if k = n then { s.msgs n with state := state } else s.msgs k := Function.update_apply ..

@[grind =] theorem headMsgs : (andesQueueHeadCmdMsg s q n state).msgs k =
    if k = n then { s.msgs n with state := state } else s.msgs k := Function.update_apply ..

@[grind =] theorem unlinkMsgs : (andesUnlinkCmdMsg s n q).msgs k = s.msgs k := by
  unfold andesUnlinkCmdMsg
  split <;> rfl

@[grind =] theorem countedSeq : ((timeoutCounted s n).msgs k).seq = (s.msgs k).seq := by
  simp only [timeoutCounted,changeMsgs]
  split <;> [split;skip] <;> simp_all

@[grind =] theorem countedState : ((timeoutCounted s n).msgs k).state = (s.msgs k).state := by
  simp only [timeoutCounted,changeMsgs]
  split <;> [split;skip] <;> simp_all

end Messages

def others : Event → Bool
  | .send _ _ | .sender _ => false
  | _ => true

def formats : Sender → Bool
  | .cleared _ _ | .numbered _ _ => true
  | _ => false

section Frames
variable {s : McuCtrl} {stage : Nat → Stage}

theorem othersFrame (lives : Lives s stage) {e} (other : others e = true) (k) :
    Frame s (McuQueues.step s e) stage k := by
  have flies (n : Nat) (urb : (s.msgs n).urb = .submitted) : early (stage n) = false := by
    rw [livesFlying lives urb]
    rfl
  have lands (n : Nat) (ok : Bool) (urb : (s.msgs n).urb = .finishing ok) : early (stage n) = false := by
    rw [livesLanding lives urb]
    rfl
  cases e <;> simp only [others,Bool.false_eq_true] at other <;> simp only [McuQueues.step]
  case timeout => constructor <;> grind [timeout]
  case complete n ok =>
    unfold usbKickOutCmdMsgComplete
    constructor <;> grind [change,andesUnlinkCmdMsg,fresh]
  case completed n =>
    unfold completed kickoutFailed
    constructor <;> grind [complete,andesQueueTailCmdMsg,change,fresh]
  case respond seq => constructor <;> grind [andesRxProcessCmdMsg,andesUnlinkCmdMsg]
  case reap => constructor <;> grind [reap,andesUnlinkCmdMsg]
  case tasklet =>
    unfold taskletStep
    split <;> [skip;split;split] <;> constructor <;> grind [complete,change,andesFreeCmdMsg]

theorem othersHeld {e} (other : others e = true) (held : holding s.sender = true) :
    holding (McuQueues.step s e).sender = true := by
  cases e <;> simp only [others,Bool.false_eq_true] at other <;> simp only [McuQueues.step]
  case timeout => grind [timeout,holding]
  case complete n ok => grind [usbKickOutCmdMsgComplete,change,andesUnlinkCmdMsg]
  case completed n => grind [completed,kickoutFailed,complete,andesQueueTailCmdMsg,change]
  case respond seq => grind [andesRxProcessCmdMsg,andesUnlinkCmdMsg]
  case reap => grind [reap,andesUnlinkCmdMsg]
  case tasklet => grind [taskletStep,complete,change,andesFreeCmdMsg]

theorem sendFrame {kind ready k} (idle : s.sender = .idle) (other : k ≠ s.count) :
    Frame s (send s kind ready) stage k := by
  unfold send
  rw [idle]
  cases ready <;> constructor <;> simp [andesFreeCmdMsg,andesQueueTailCmdMsg,change,other,idle] <;> omega

theorem quietFrame (lives : Lives s stage) (ok) (apart : formats s.sender = false) (k) :
    Frame s (senderStep s ok) stage k := by
  have fits := lives.sender
  have life := lives.life k
  cases pc : s.sender <;> simp only [pc,formats,Bool.true_eq_false,SenderFits] at apart fits <;>
    simp only [senderStep,pc]
  case idle => constructor <;> grind
  case loop m => constructor <;> grind [dequeue,afterKick,andesUnlinkCmdMsg]
  case taken m n =>
    unfold taken
    split <;> [skip;split] <;> constructor <;> grind [andesFreeCmdMsg]
  case blocked m n => constructor <;> grind [andesQueueHeadCmdMsg,change]
  case queued m n =>
    unfold queued
    split <;> constructor <;> grind [change]
  case failed m n => constructor <;> grind [andesUnlinkCmdMsg]
  case unlinked m n =>
    unfold kickoutFailed
    split <;> constructor <;> grind [complete,andesQueueTailCmdMsg,afterKick,change,fresh,early]
  case waiting m =>
    split
    · simp only [woken]
      split <;> constructor <;> grind [change]
    · constructor <;> grind
  case timedOut m =>
    unfold timedOut
    split <;> [skip;split] <;> constructor <;> grind [timeoutCounted,change]
  case killing m => split <;> constructor <;> grind [timeoutCounted,change]
  case unlinking m => constructor <;> grind [timeoutCounted,andesUnlinkCmdMsg,change]
  case putAway m state =>
    have life := lives.life m
    rw [fits,pc] at life
    obtain ⟨_,_,_,same,ended⟩ := life
    cases same
    have late : early (stage m) = false := by rw [fits]; rfl
    have old : fresh state = false := by cases state <;> simp_all [fresh,final]
    unfold putAway
    split <;> constructor <;> grind [andesQueueHeadCmdMsg,andesQueueTailCmdMsg,change,fresh]

theorem elsewhereFrame {ok m n k} (pc : s.sender = .cleared m n ∨ s.sender = .numbered m n) (other : k ≠ n) :
    Frame s (senderStep s ok) stage k := by
  rcases pc with pc | pc <;> simp only [senderStep,pc]
  · unfold cleared
    split <;> [skip;split] <;> constructor <;> grind [change]
  · unfold numbered
    constructor <;> grind [andesQueueTailCmdMsg,change]

theorem pickedAt {k} (lives : Lives s stage) (picked : stage k = .picked) :
    Sender.current s.sender = some k ∧ holding s.sender = true := by
  have life := lives.life k
  rw [picked] at life
  rcases life.1 with pc | pc | pc | pc <;> rw [pc] <;> exact ⟨rfl,rfl⟩

end Frames

theorem seqSmall (running fuel seq) : getSeq running (fuel + 1) seq < 16 := by
  have next (seq : Nat) : nextSeq seq < 16 := by
    unfold nextSeq
    split <;> omega
  induction fuel generalizing seq with
  | zero =>
    unfold getSeq
    split <;> exact next seq
  | succ fuel ih =>
    unfold getSeq
    split
    · exact ih (nextSeq seq)
    · exact next seq

section Steps
variable {orders : Nat → Order} {w : Wire} {stage later : Nat → Stage} {k : Nat}

theorem othersPacket {e} (lives : Lives w.ctl stage) (after : Lives (McuQueues.step w.ctl e) later)
    (follows : Stage.Follows stage later) (packet : Packet orders w (stage k) k) (other : others e = true) :
    Packet orders (step orders w e) (later k) k := by
  have same : format orders w e = w.netPkt := by
    cases e <;> first | rfl | cases other
  refine (othersFrame lives other k).packet lives after follows (congrFun same k) dropKept
    (fun _ picked => .inl (.inr ?_)) packet
  exact othersHeld other (pickedAt lives picked).2

theorem sendPacket {kind ready} (lives : Lives w.ctl stage)
    (after : Lives (send w.ctl kind ready) later) (follows : Stage.Follows stage later)
    (packet : Packet orders w (stage k) k) : Packet orders (step orders w (.send kind ready)) (later k) k := by
  by_cases idle : w.ctl.sender = .idle
  · have unheld (picked : stage k = .picked) : False := by
      have held := (pickedAt lives picked).2
      rw [idle] at held
      cases held
    by_cases same : k = w.ctl.count
    · subst same
      have none : stage w.ctl.count = .unborn := (lives.unborn _).mpr (Nat.le_refl _)
      refine .bare ?_ (earlyStays after follows (fun picked => (unheld picked).elim) (by rw [none]; rfl)) ?_ ?_
      · cases ready <;> simp [step,McuQueues.step,send,idle,andesFreeCmdMsg,andesQueueTailCmdMsg,change,fresh,
          andesInitCmdMsg]
      · cases ready <;> simp [step,McuQueues.step,send,idle,andesFreeCmdMsg]
      · simp [step,format,idle]
    · refine (sendFrame idle same).packet lives after follows ?_ (dropKept (e := .send kind ready))
        (fun _ picked => (unheld picked).elim) packet
      simp [step,format,idle,same]
  · have ctl : send w.ctl kind ready = w.ctl := by
      unfold send
      split
      · contradiction
      · rfl
    have bytes : format orders w (.send kind ready) = w.netPkt := by
      unfold format
      split <;> simp_all
    rw [ctl] at after
    have same : step orders w (.send kind ready) = w := by
      simp only [step,McuQueues.step,ctl,bytes,submit,submitted,drop]
    rw [same]
    have frame : Frame w.ctl w.ctl stage k := ⟨rfl,.inl rfl,id,fun _ => Iff.rfl⟩
    exact frame.packet lives after follows rfl id (fun _ picked => .inl (.inr (pickedAt lives picked).2)) packet

theorem quietPacket {ok} (lives : Lives w.ctl stage)
    (after : Lives (senderStep w.ctl ok) later) (follows : Stage.Follows stage later)
    (packet : Packet orders w (stage k) k) (quiet : formats w.ctl.sender = false) :
    Packet orders (step orders w (.sender ok)) (later k) k := by
  refine (quietFrame lives ok quiet k).packet lives after follows ?_ dropKept (fun new picked => ?_) packet
  · cases pc : w.ctl.sender <;> simp_all [step,format,formats]
  · obtain ⟨current,held⟩ := pickedAt lives picked
    cases pc : w.ctl.sender <;> simp only [pc,holding,formats,Bool.false_eq_true,Bool.true_eq_false] at held quiet
    case taken m n =>
      obtain ⟨same,_,_,_,state,_⟩ := livesInHand lives (.inl pc)
      rw [pc,Sender.current,Option.some.injEq] at current
      subst same current
      simp only [step,McuQueues.step,senderStep,pc,taken] at after ⊢
      cases ok with
      | true => exact .inl (.inr (by simp only [if_true]; split <;> rfl))
      | false =>
        simp only [Bool.false_eq_true,if_false] at after ⊢
        cases kind : (w.ctl.msgs m).kind with
        | answered =>
          have start : (w.ctl.msgs m).state = .txStart := by
            refine state.resolve_right fun again => ?_
            rw [again] at new
            cases new
          exact .inr (by simp [drop,pc,kind,start])
        | posted =>
          have freed : later m = .freed := by
            refine (after.freed.mem m).mp ?_
            simp [kind,Kind.needRsp,andesFreeCmdMsg]
          exact .inl (.inl (by rw [freed]; rfl))
    case blocked m n =>
      obtain ⟨same,_⟩ := livesInHand lives (.inr (.inl pc))
      rw [pc,Sender.current,Option.some.injEq] at current
      subst same current
      have waiting : later m = .waiting := by
        refine after.onTxq.mp ?_
        simp [senderStep,pc,andesQueueHeadCmdMsg,change]
      exact .inl (.inl (by rw [waiting]; rfl))

theorem elsewherePacket {ok m n} (lives : Lives w.ctl stage)
    (after : Lives (senderStep w.ctl ok) later) (follows : Stage.Follows stage later)
    (packet : Packet orders w (stage k) k) (pc : w.ctl.sender = .cleared m n ∨ w.ctl.sender = .numbered m n)
    (other : k ≠ n) : Packet orders (step orders w (.sender ok)) (later k) k := by
  refine (elsewhereFrame pc other).packet lives after follows ?_ dropKept (fun _ picked => ?_) packet
  · rcases pc with pc | pc <;> simp only [step,format,pc] <;> split <;> simp [other]
  · have current := (pickedAt lives picked).1
    have same : m = n := (livesInHand lives (.inr (.inr pc))).1
    rcases pc with pc | pc <;> rw [pc,Sender.current,Option.some.injEq,same] at current
    all_goals exact absurd current.symm other

theorem freshStart {state} (new : fresh state = true) : state ≠ .txRetransmit := by
  rintro rfl
  cases new

theorem oldStart {state} (old : fresh state = false) : state ≠ .txStart := by
  rintro rfl
  cases old

theorem headerPacket {ok m n later} (lives : Lives w.ctl stage)
    (packet : Packet orders w (stage n) n) (pc : w.ctl.sender = .cleared m n) :
    Packet orders (step orders w (.sender ok)) later n := by
  obtain ⟨_,picked,_,_,state,_⟩ := livesInHand lives (.inr (.inr (.inl pc)))
  cases packet with
  | unborn no =>
    rw [picked] at no
    cases no
  | lost lost => exact .lost (dropKept lost)
  | headed new numbered small bytes =>
    rw [pc] at numbered
    cases numbered
  | bare new here apart bytes =>
    have start := freshStart new
    have kept : ((cleared w.ctl m n).msgs n).state = (w.ctl.msgs n).state := by
      simp only [cleared,start,if_false]
      split <;> simp [change]
    have small : ((cleared w.ctl m n).msgs n).seq < 16 := by
      simp only [cleared,start,if_false]
      split <;> simp only [change,Function.update_self]
      · exact seqSmall _ 14 _
      · decide
    have pc' : (cleared w.ctl m n).sender = .numbered m n := by
      simp only [cleared,start,if_false]
      split <;> rfl
    have ctl : (step orders w (.sender ok)).ctl = cleared w.ctl m n := by
      simp only [step,McuQueues.step,senderStep,pc]
    refine .headed (by rwa [ctl,kept]) (by rw [ctl,pc']) (by rwa [ctl]) ?_
    rw [ctl]
    simp only [step,format,pc,start,if_false,Function.update_self,bytes]
  | whole old small bytes =>
    have again := state.resolve_left (oldStart old)
    have msgs : (step orders w (.sender ok)).ctl.msgs n = w.ctl.msgs n := by
      simp only [step,McuQueues.step,senderStep,pc,cleared,again,if_true]
    refine .whole (by rwa [msgs]) (by rwa [msgs]) ?_
    rw [msgs,← bytes]
    simp only [step,format,pc,again,if_true]

theorem paddedPacket {ok m n later} (lives : Lives w.ctl stage)
    (packet : Packet orders w (stage n) n) (pc : w.ctl.sender = .numbered m n) :
    Packet orders (step orders w (.sender ok)) later n := by
  obtain ⟨_,picked,_,_,state,_⟩ := livesInHand lives (.inr (.inr (.inr pc)))
  have seq : ((step orders w (.sender ok)).ctl.msgs n).seq = (w.ctl.msgs n).seq := by
    simp [step,McuQueues.step,senderStep,pc,numbered,andesQueueTailCmdMsg,change]
  have old : fresh ((step orders w (.sender ok)).ctl.msgs n).state = false := by
    simp only [step,McuQueues.step,senderStep,pc,numbered,andesQueueTailCmdMsg,change,Function.update_self]
    split <;> rfl
  cases packet with
  | unborn no =>
    rw [picked] at no
    cases no
  | lost lost => exact .lost (dropKept lost)
  | bare new here apart bytes => exact absurd pc (apart m)
  | headed new _ small bytes =>
    have start := freshStart new
    refine .whole old (by rwa [seq]) ?_
    rw [seq,← bytes]
    simp only [step,format,pc,start,if_false,Function.update_self]
  | whole before small bytes =>
    have again := state.resolve_left (oldStart before)
    refine .whole old (by rwa [seq]) ?_
    rw [seq,← bytes]
    simp only [step,format,pc,again,if_true]

theorem senderPacket {ok k} (lives : Lives w.ctl stage)
    (after : Lives (senderStep w.ctl ok) later) (follows : Stage.Follows stage later)
    (packet : Packet orders w (stage k) k) : Packet orders (step orders w (.sender ok)) (later k) k := by
  cases quiet : formats w.ctl.sender with
  | false => exact quietPacket lives after follows packet quiet
  | true =>
    cases pc : w.ctl.sender <;> simp only [pc,formats,Bool.false_eq_true] at quiet
    case cleared m n =>
      by_cases same : k = n
      · exact same ▸ headerPacket lives (same ▸ packet) pc
      · exact elsewherePacket lives after follows packet (.inl pc) same
    case numbered m n =>
      by_cases same : k = n
      · exact same ▸ paddedPacket lives (same ▸ packet) pc
      · exact elsewherePacket lives after follows packet (.inr pc) same

theorem submittedAt {s : McuCtrl} {e n} (sent : submitted s e = some n) : ∃ m, s.sender = .queued m n := by
  unfold submitted at sent
  split at sent
  · split at sent
    · cases sent
      exact ⟨_,‹_›⟩
    · cases sent
  · cases sent

theorem submitFormatted {e} (lives : Lives w.ctl stage) (packets : ∀ k, Packet orders w (stage k) k)
    (admits : Admits w e) (formatted : ∀ urb ∈ w.urbs, Formatted orders urb) :
    ∀ urb ∈ submit w e, Formatted orders urb := by
  unfold submit
  cases next : submitted w.ctl e with
  | none => exact formatted
  | some n =>
    obtain ⟨m,pc⟩ := submittedAt next
    intro urb member
    rcases mem_cons.mp member with rfl | sent
    · have armed : stage n = .armed := (livesArmed lives (.inl pc)).2.1
      cases packets n with
      | unborn no =>
        rw [armed] at no
        cases no
      | lost lost => exact absurd lost (admits n next)
      | bare _ here =>
        rw [armed] at here
        cases here
      | headed _ numbered =>
        rw [pc] at numbered
        cases numbered
      | whole old small bytes =>
        refine ⟨_,bytes,?_,?_⟩
        · exact (BitVec.toNat_ofNat _ _).trans (Nat.mod_eq_of_lt small)
        · exact (BitVec.toNat_ofNat _ _).trans (Nat.mod_eq_of_lt (orders n).short)
    · exact formatted urb sent

end Steps

theorem commandsFormatted (orders : Nat → Order) (events : List Event)
    (sound : Meets (step orders) Sound Wire.init events) :
    Always (step orders) (fun w => Ends w.ctl ∧ ∀ urb ∈ w.urbs, Formatted orders urb) Wire.init events := by
  let Good (w : Wire) : Prop := ∃ stage, Lives w.ctl stage ∧ (∀ k, Packet orders w (stage k) k) ∧
    ∀ urb ∈ w.urbs, Formatted orders urb
  have keeps (w : Wire) (e : Event) (good : Good w) (meets : Sound w e) : Good (step orders w e) := by
    obtain ⟨stage,lives,packets,formatted⟩ := good
    obtain ⟨ordered,calm,admits⟩ := meets
    obtain ⟨later,after,follows⟩ := stepFollows lives e ordered calm
    refine ⟨later,after,fun k => ?_,submitFormatted lives packets admits formatted⟩
    cases e with
    | send kind ready => exact sendPacket lives after follows (packets k)
    | sender ok => exact senderPacket lives after follows (packets k)
    | _ => exact othersPacket lives after follows (packets k) rfl
  have start : Good Wire.init := ⟨_,initLives,fun _ => .unborn rfl,fun _ none => absurd none not_mem_nil⟩
  refine alwaysMono ?_ (invariant keeps start sound)
  rintro w ⟨stage,lives,_,formatted⟩
  exact ⟨loopEnds lives,formatted⟩

def order : Order := ⟨1,[0xaa,0xbb,0xcc,0xdd],by decide⟩

theorem commandsFormattedTwice :
    (run (step fun _ => order) Wire.init secondAnswered).urbs.map (·.bytes.length) = [12,12] ∧
    Always (step fun _ => order) (fun w => Ends w.ctl ∧ ∀ urb ∈ w.urbs, Formatted (fun _ => order) urb) Wire.init
      secondAnswered :=
  ⟨by decide +kernel,commandsFormatted (fun _ => order) secondAnswered (by decide +kernel)⟩

def droppedFirst : List Event :=
  [.send .answered true,.sender true,.sender false,.sender true,.timeout] ++ replicate 7 (.sender true)

theorem commandsUnformatted :
    Meets (step fun _ => order) (fun w e => UsbOrdered w.ctl e ∧ Calm w.ctl e) Wire.init droppedFirst ∧
    (run (step fun _ => order) Wire.init droppedFirst).urbs = [⟨0,0,order.payload⟩] ∧
    ¬ Formatted (fun _ => order) ⟨0,0,order.payload⟩ := by
  refine ⟨by decide +kernel,by decide +kernel,?_⟩
  rintro ⟨info,bytes,_⟩
  have length := congrArg List.length bytes
  simp [order,TxInfo.bytes,usbEndPadding] at length

end RtmpDriver.McuFormat
