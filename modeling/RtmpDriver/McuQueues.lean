import Mathlib.Logic.Function.Basic
import RtmpDriver.McuCommand
import RtmpDriver.StepMachine

/-! The queues of the in-band commands and those who move a message between them: the sender (one at a time, under
mcu_atomic), the completion of each URB, the tasklet, and the timeout of the sender's wait. A step is one critical
section of a queue lock with what follows it up to the next one; MCU_INIT is set. A message is named by its place in
the order of the calls of andes_send_cmd_msg. -/
namespace RtmpDriver.McuQueues
open McuCommand (CmdMsgState Kind cmdMsgRetransmitTimes)

inductive Queue where
  | txq | kickq | ackq | txDoneq
  deriving DecidableEq, Repr

inductive Urb where
  | unsent
  | submitted
  | finishing (ok : Bool)
  | done
  deriving DecidableEq, Repr

def Urb.busy : Urb → Bool
  | .submitted => true
  | .finishing _ => true
  | _ => false

structure CmdMsg where
  kind : Kind
  seq : Nat
  state : CmdMsgState
  retransmitTimes : Int
  ackDone : Bool
  urb : Urb
  deriving DecidableEq, Repr

def andesInitCmdMsg (kind : Kind) : CmdMsg :=
  ⟨kind,0,.illegal,if kind.needRetransmit then cmdMsgRetransmitTimes else 0,false,.unsent⟩

/- Where the sender is: in andes_dequeue_and_kick_out_cmd_msgs, called for `m` and about to dequeue (`loop`) or with
`n` dequeued, and in andes_send_cmd_msg from the wait on. -/
inductive Sender where
  | idle
  | loop (m : Nat)
  | taken (m n : Nat)
  | blocked (m n : Nat)
  | cleared (m n : Nat)
  | numbered (m n : Nat)
  | queued (m n : Nat)
  | failed (m n : Nat)
  | unlinked (m n : Nat)
  | waiting (m : Nat)
  | timedOut (m : Nat)
  | killing (m : Nat)
  | unlinking (m : Nat)
  | putAway (m : Nat) (state : CmdMsgState)
  deriving DecidableEq, Repr

inductive Tasklet where
  | idle
  | acked (n : Nat)
  | reaping (n : Nat)
  deriving DecidableEq, Repr

/- `freed` has the calls of andes_free_cmd_msg, and `misplaced` the calls of _andes_unlink_cmd_msg for a message that
is not on the list: DlListDel then unlinks it from another list or follows a NULL pointer. -/
structure McuCtrl where
  msgs : Nat → CmdMsg
  count : Nat
  cmdSeq : Nat
  queues : Queue → List Nat
  sender : Sender
  tasklet : Tasklet
  freed : List Nat
  misplaced : List (Nat × Queue)

def McuCtrl.init : McuCtrl := ⟨fun _ => andesInitCmdMsg .posted,0,0,fun _ => [],.idle,.idle,[],[]⟩

def change (s : McuCtrl) (n : Nat) (f : CmdMsg → CmdMsg) : McuCtrl :=
  { s with msgs := Function.update s.msgs n (f (s.msgs n)) }

def andesQueueTailCmdMsg (s : McuCtrl) (q : Queue) (n : Nat) (state : CmdMsgState) : McuCtrl :=
  { change s n fun msg => { msg with state := state } with queues := Function.update s.queues q (s.queues q ++ [n]) }

def andesQueueHeadCmdMsg (s : McuCtrl) (q : Queue) (n : Nat) (state : CmdMsgState) : McuCtrl :=
  { change s n fun msg => { msg with state := state } with queues := Function.update s.queues q (n :: s.queues q) }

def andesUnlinkCmdMsg (s : McuCtrl) (n : Nat) (q : Queue) : McuCtrl :=
  if n ∈ s.queues q then { s with queues := Function.update s.queues q ((s.queues q).erase n) }
  else { s with misplaced := (n,q) :: s.misplaced }

def andesFreeCmdMsg (s : McuCtrl) (n : Nat) : McuCtrl := { s with freed := n :: s.freed }

def complete (s : McuCtrl) (n : Nat) : McuCtrl := change s n fun msg => { msg with ackDone := true }

/- andes_get_cmd_msg_seq: the next of 1 to 15 that no message on ackq has. -/
def nextSeq (seq : Nat) : Nat := if 0xf ≤ seq then 1 else seq + 1

def getSeq (running : Nat → Bool) : Nat → Nat → Nat
  | 0,seq => seq
  | fuel + 1,seq => if running (nextSeq seq) then getSeq running fuel (nextSeq seq) else nextSeq seq

def andesGetCmdMsgSeq (s : McuCtrl) : Nat :=
  getSeq (fun seq => (s.queues .ackq).any fun n => (s.msgs n).seq == seq) 15 s.cmdSeq

def queueOf (kind : Kind) : Queue := if kind.needRsp then .ackq else .kickq

/- The part of andes_send_cmd_msg before the loop; a caller that does not get mcu_atomic has not started yet. -/
def send (s : McuCtrl) (kind : Kind) (ready : Bool) : McuCtrl :=
  match s.sender with
  | .idle =>
    let n := s.count
    let s := { s with count := n + 1,msgs := Function.update s.msgs n (andesInitCmdMsg kind) }
    if ready then { andesQueueTailCmdMsg s .txq n .txStart with sender := .loop n } else andesFreeCmdMsg s n
  | _ => s

def afterKick (s : McuCtrl) (m : Nat) : Sender := if (s.msgs m).kind.needWait then .waiting m else .idle

def dequeue (s : McuCtrl) (m : Nat) : McuCtrl :=
  match s.queues .txq with
  | [] => { s with sender := afterKick s m }
  | n :: _ => { andesUnlinkCmdMsg s n .txq with sender := .taken m n }

/- `ready` is the test of the adapter's flags. A message that is to be answered is dropped, not freed. -/
def taken (s : McuCtrl) (m n : Nat) (ready : Bool) : McuCtrl :=
  if ready then { s with sender := if s.queues .ackq = [] then .cleared m n else .blocked m n }
  else { (if (s.msgs n).kind.needRsp then s else andesFreeCmdMsg s n) with sender := .loop m }

def cleared (s : McuCtrl) (m n : Nat) : McuCtrl :=
  if (s.msgs n).state = .txRetransmit then { s with sender := .numbered m n }
  else if (s.msgs n).kind.needRsp then
    { change s n fun msg => { msg with seq := andesGetCmdMsgSeq s } with
      cmdSeq := andesGetCmdMsgSeq s
      sender := .numbered m n }
  else { change s n fun msg => { msg with seq := 0 } with sender := .numbered m n }

def numbered (s : McuCtrl) (m n : Nat) : McuCtrl :=
  let filled := change s n fun msg => { msg with urb := .unsent }
  let state := if (s.msgs n).kind.needRsp then CmdMsgState.waitCmdOutAndAck else .waitCmdOut
  { andesQueueTailCmdMsg filled (queueOf (s.msgs n).kind) n state with sender := .queued m n }

def queued (s : McuCtrl) (m n : Nat) (submits : Bool) : McuCtrl :=
  if submits then { change s n fun msg => { msg with urb := .submitted } with sender := .loop m }
  else { s with sender := .failed m n }

def kickoutFailed (s : McuCtrl) (n : Nat) : McuCtrl :=
  if (s.msgs n).kind.needRsp then complete (change s n fun msg => { msg with state := .txKickoutFail }) n
  else andesQueueTailCmdMsg s .txDoneq n .txKickoutFail

def woken (s : McuCtrl) (m : Nat) : McuCtrl :=
  let s := change s m fun msg => { msg with ackDone := false }
  if (s.msgs m).state = .txKickoutFail then
    { change s m fun msg => { msg with retransmitTimes := msg.retransmitTimes - 1 } with
      sender := .putAway m .txKickoutFail }
  else { change s m fun msg => { msg with retransmitTimes := 0 } with sender := .putAway m .txDone }

def timeoutCounted (s : McuCtrl) (m : Nat) : McuCtrl :=
  { change s m fun msg =>
      if 0 < msg.retransmitTimes then { msg with retransmitTimes := msg.retransmitTimes - 1 } else msg with
    sender := .putAway m .txTimeoutFail }

/- msg->state is read without a lock. -/
def timedOut (s : McuCtrl) (m : Nat) : McuCtrl :=
  if (s.msgs m).state = .waitCmdOutAndAck then { s with sender := .killing m }
  else if (s.msgs m).state = .waitAck then { s with sender := .unlinking m }
  else timeoutCounted s m

def putAway (s : McuCtrl) (m : Nat) (state : CmdMsgState) : McuCtrl :=
  if (s.msgs m).kind.needRetransmit ∧ 0 < (s.msgs m).retransmitTimes then
    let s := change s m fun msg => { msg with ackDone := false }
    { andesQueueHeadCmdMsg s .txq m .txRetransmit with sender := .loop m }
  else { andesQueueTailCmdMsg s .txDoneq m state with sender := .idle }

/- The next step of the sender. `ok` is the test of the flags and the result of RTUSB_SUBMIT_URB; a sender whose wait
is not over, or whose URB is still to be given back to usb_kill_urb, stays where it is. -/
def senderStep (s : McuCtrl) (ok : Bool) : McuCtrl :=
  match s.sender with
  | .idle => s
  | .loop m => dequeue s m
  | .taken m n => taken s m n ok
  | .blocked m n => { andesQueueHeadCmdMsg s .txq n (s.msgs n).state with sender := .loop m }
  | .cleared m n => cleared s m n
  | .numbered m n => numbered s m n
  | .queued m n => queued s m n ok
  | .failed m n => { andesUnlinkCmdMsg s n (queueOf (s.msgs n).kind) with sender := .unlinked m n }
  | .unlinked m n => { kickoutFailed s n with sender := afterKick s m }
  | .waiting m => if (s.msgs m).ackDone then woken s m else s
  | .timedOut m => timedOut s m
  | .killing m => if (s.msgs m).urb.busy then s else timeoutCounted s m
  | .unlinking m => timeoutCounted (andesUnlinkCmdMsg s m .ackq) m
  | .putAway m state => putAway s m state

def timeout (s : McuCtrl) : McuCtrl :=
  match s.sender with
  | .waiting m => if (s.msgs m).ackDone then s else { s with sender := .timedOut m }
  | _ => s

/- usb_kick_out_cmd_msg_complete up to the end of its first critical section. -/
def usbKickOutCmdMsgComplete (s : McuCtrl) (n : Nat) (ok : Bool) : McuCtrl :=
  if (s.msgs n).urb ≠ .submitted then s
  else if (s.msgs n).kind.needRsp ∧ ok then change s n fun msg => { msg with state := .waitAck,urb := .done }
  else change (andesUnlinkCmdMsg s n (queueOf (s.msgs n).kind)) n fun msg => { msg with urb := .finishing ok }

def completed (s : McuCtrl) (n : Nat) : McuCtrl :=
  match (s.msgs n).urb with
  | .finishing ok =>
    let s := change s n fun msg => { msg with urb := .done }
    if ok then andesQueueTailCmdMsg s .txDoneq n .txDone else kickoutFailed s n
  | _ => s

def answers (s : McuCtrl) (seq : Nat) : Option Nat := (s.queues .ackq).find? fun n => (s.msgs n).seq == seq

/- andes_rx_process_cmd_msg, up to the unlink and from there on; what rsp_handler does with the payload is not
part of the life of a message. -/
def andesRxProcessCmdMsg (s : McuCtrl) (seq : Nat) : McuCtrl :=
  match s.tasklet with
  | .idle =>
    match answers s seq with
    | none => s
    | some n => { andesUnlinkCmdMsg s n .ackq with tasklet := .acked n }
  | _ => s

def reap (s : McuCtrl) : McuCtrl :=
  match s.tasklet with
  | .idle =>
    match s.queues .txDoneq with
    | [] => s
    | n :: _ => { andesUnlinkCmdMsg s n .txDoneq with tasklet := .reaping n }
  | _ => s

def final : CmdMsgState → Bool
  | .txDone => true
  | .txKickoutFail => true
  | .txTimeoutFail => true
  | _ => false

/- A message on tx_doneq with any other state is printed and lost. -/
def taskletStep (s : McuCtrl) : McuCtrl :=
  match s.tasklet with
  | .idle => s
  | .acked n => { (if (s.msgs n).kind.needWait then complete s n else andesFreeCmdMsg s n) with tasklet := .idle }
  | .reaping n => { (if final (s.msgs n).state then andesFreeCmdMsg s n else s) with tasklet := .idle }

inductive Event where
  | send (kind : Kind) (ready : Bool)
  | sender (ok : Bool)
  | timeout
  -- the USB core runs the completion of a message, and the completion goes on
  | complete (n : Nat) (ok : Bool)
  | completed (n : Nat)
  -- the tasklet takes a response off rx_doneq, a message off tx_doneq, or goes on with what it took
  | respond (seq : Nat)
  | reap
  | tasklet
  deriving DecidableEq, Repr

def step (s : McuCtrl) : Event → McuCtrl
  | .send kind ready => send s kind ready
  | .sender ok => senderStep s ok
  | .timeout => timeout s
  | .complete n ok => usbKickOutCmdMsgComplete s n ok
  | .completed n => completed s n
  | .respond seq => andesRxProcessCmdMsg s seq
  | .reap => reap s
  | .tasklet => taskletStep s

end RtmpDriver.McuQueues
