import RtmpDriver.Custody
import RtmpDriver.McuQueues

/-! The life of a command message: the order of its stages, what the queues, the sender and the tasklet look like in
each (`Lives`), and what a step has to do to take one message from one stage to the next. -/
namespace RtmpDriver.McuLife
open McuCommand (CmdMsgState Kind)
open Custody McuQueues
open Function (update update_of_ne update_self)

inductive Stage where
  | unborn
  | waiting
  | picked
  | armed
  | refused
  | flying
  | landing
  | sent
  | answering
  | returned
  | spent
  | finished
  | reaped
  | freed
  deriving DecidableEq, Repr

def Stage.next : Stage → List Stage
  | .unborn => [.waiting,.freed]
  | .waiting => [.picked]
  | .picked => [.waiting,.armed,.returned,.freed]
  | .armed => [.flying,.refused]
  | .refused => [.returned,.finished]
  | .flying => [.landing,.sent]
  | .landing => [.returned,.finished]
  | .sent => [.answering,.spent]
  | .answering => [.returned]
  | .returned => [.spent]
  | .spent => [.waiting,.finished]
  | .finished => [.reaped]
  | .reaped => [.freed]
  | .freed => []

def Stage.Follows (before after : Nat → Stage) : Prop := ∀ k, after k = before k ∨ after k ∈ (before k).next

def Stage.queue (kind : Kind) : Stage → Option Queue
  | .waiting => some .txq
  | .armed => some (queueOf kind)
  | .flying => some (queueOf kind)
  | .sent => some .ackq
  | .finished => some .txDoneq
  | _ => none

def Stage.out : Stage → Bool
  | .flying => true
  | .landing => true
  | .sent => true
  | .answering => true
  | .returned => true
  | _ => false

def Quiet (msg : CmdMsg) : Prop := msg.urb.busy = false

def Fresh (msg : CmdMsg) : Prop := (msg.state = .txStart ∨ msg.state = .txRetransmit) ∧ msg.ackDone = false

def Pending (msg : CmdMsg) : Prop := msg.ackDone = false ∧ msg.state = .waitCmdOutAndAck

def Returned (sender : Sender) (n : Nat) (msg : CmdMsg) : Prop :=
  (Fresh msg ∧ (sender = .loop n ∨ sender = .waiting n ∨ sender = .timedOut n)) ∨
  (msg.ackDone = true ∧ msg.state = .txKickoutFail ∧
    (sender = .loop n ∨ sender = .waiting n ∨ sender = .timedOut n ∨ sender = .killing n)) ∨
  (msg.ackDone = true ∧ msg.state = .waitAck ∧ (sender = .loop n ∨ sender = .waiting n))

def Life (sender : Sender) (tasklet : Tasklet) (n : Nat) (msg : CmdMsg) : Stage → Prop
  | .unborn => Quiet msg
  | .waiting => sender = .loop n ∧ Quiet msg ∧ Fresh msg
  | .picked => (sender = .taken n n ∨ sender = .blocked n n ∨ sender = .cleared n n ∨ sender = .numbered n n) ∧
      Quiet msg ∧ Fresh msg
  | .armed => (sender = .queued n n ∨ sender = .failed n n) ∧ msg.urb = .unsent ∧ (msg.kind = .answered → Pending msg)
  | .refused => sender = .unlinked n n ∧ Quiet msg
  | .flying => msg.urb = .submitted ∧ (msg.kind = .answered → Pending msg ∧
      (sender = .loop n ∨ sender = .waiting n ∨ sender = .timedOut n ∨ sender = .killing n))
  | .landing => ∃ ok, msg.urb = .finishing ok ∧ (msg.kind = .answered → ok = false ∧ Pending msg ∧
      (sender = .loop n ∨ sender = .waiting n ∨ sender = .timedOut n ∨ sender = .killing n))
  | .sent => msg.kind = .answered ∧ msg.urb = .done ∧ msg.ackDone = false ∧ msg.state = .waitAck ∧
      (sender = .loop n ∨ sender = .waiting n ∨ sender = .timedOut n ∨ sender = .unlinking n)
  | .answering => msg.kind = .answered ∧ msg.urb = .done ∧ msg.ackDone = false ∧ msg.state = .waitAck ∧
      tasklet = .acked n ∧ (sender = .loop n ∨ sender = .waiting n)
  | .returned => msg.kind = .answered ∧ Quiet msg ∧ Returned sender n msg
  | .spent => msg.kind = .answered ∧ Quiet msg ∧ ∃ state, sender = .putAway n state ∧ final state = true
  | .finished => Quiet msg ∧ final msg.state = true
  | .reaped => Quiet msg ∧ final msg.state = true ∧ tasklet = .reaping n
  | .freed => Quiet msg

def SenderFits (msgs : Nat → CmdMsg) (stage : Nat → Stage) : Sender → Prop
  | .idle => True
  | .loop m => stage m ≠ .unborn ∧ (stage m = .waiting ∨ ((msgs m).kind = .answered → (stage m).out = true))
  | .taken m n => m = n ∧ stage n = .picked
  | .blocked m n => m = n ∧ stage n = .picked
  | .cleared m n => m = n ∧ stage n = .picked
  | .numbered m n => m = n ∧ stage n = .picked
  | .queued m n => m = n ∧ stage n = .armed
  | .failed m n => m = n ∧ stage n = .armed
  | .unlinked m n => m = n ∧ stage n = .refused
  | .waiting m => (msgs m).kind = .answered ∧ (stage m).out = true
  | .timedOut m => (msgs m).kind = .answered ∧ (stage m).out = true
  | .killing m => (msgs m).kind = .answered ∧ (stage m).out = true
  | .unlinking m => stage m = .sent
  | .putAway m _ => stage m = .spent

def TaskletFits (stage : Nat → Stage) : Tasklet → Prop
  | .idle => True
  | .acked n => stage n = .answering
  | .reaping n => stage n = .reaped

structure Lives (s : McuCtrl) (stage : Nat → Stage) : Prop where
  queues : ∀ q, Holds (fun n => (stage n).queue (s.msgs n).kind) (some q) (s.queues q)
  freed : Holds stage .freed s.freed
  placed : s.misplaced = []
  unborn : ∀ n, stage n = .unborn ↔ s.count ≤ n
  life : ∀ n, Life s.sender s.tasklet n (s.msgs n) (stage n)
  sender : SenderFits s.msgs stage s.sender
  tasklet : TaskletFits stage s.tasklet

def Sender.current : Sender → Option Nat
  | .idle => none
  | .loop m => some m
  | .taken m _ => some m
  | .blocked m _ => some m
  | .cleared m _ => some m
  | .numbered m _ => some m
  | .queued m _ => some m
  | .failed m _ => some m
  | .unlinked m _ => some m
  | .waiting m => some m
  | .timedOut m => some m
  | .killing m => some m
  | .unlinking m => some m
  | .putAway m _ => some m

def Tasklet.current : Tasklet → Option Nat
  | .idle => none
  | .acked n => some n
  | .reaping n => some n

section Frames
variable {sender next : Sender} {tasklet after : Tasklet} {k : Nat} {msg : CmdMsg} {stage : Stage}

theorem lifeSender (other : Sender.current sender ≠ some k) (life : Life sender tasklet k msg stage) :
    Life next tasklet k msg stage := by
  cases stage <;> simp only [Life] at life ⊢
  all_goals grind [Sender.current,Returned]

theorem lifeTasklet (other : Tasklet.current tasklet ≠ some k) (life : Life sender tasklet k msg stage) :
    Life sender after k msg stage := by
  cases stage <;> simp only [Life] at life ⊢
  all_goals grind [Tasklet.current]

end Frames

inductive Requeued (n : Nat) (before : Queue → List Nat) : Option Queue → Option Queue → (Queue → List Nat) → Prop where
  | same (place : Option Queue) : Requeued n before place place before
  | tail (q : Queue) : Requeued n before none (some q) (Function.update before q (before q ++ [n]))
  | head (q : Queue) : Requeued n before none (some q) (Function.update before q (n :: before q))
  | taken (q : Queue) : Requeued n before (some q) none (Function.update before q ((before q).erase n))

theorem requeuedHolds (n : Nat) {before after place next}
    (moved : Requeued n before (place n) (next n) after) (frame : ∀ k, k ≠ n → next k = place k)
    (holds : ∀ q, Holds place (some q) (before q)) (q : Queue) : Holds next (some q) (after q) := by
  generalize old : place n = a at moved
  generalize new : next n = b at moved
  cases moved with
  | same =>
    by_cases here : a = some q
    · exact (holds q).stayed frame (old.trans here) (new.trans here)
    · exact (holds q).passedBy frame (by rwa [old]) (by rwa [new])
  | tail r =>
    by_cases here : q = r
    · subst here
      rw [update_self]
      exact (holds q).arrived frame (by simp [old]) new
    · rw [update_of_ne here]
      exact (holds q).passedBy frame (by simp [old]) (by simpa [new] using Ne.symm here)
  | head r =>
    by_cases here : q = r
    · subst here
      rw [update_self]
      exact (holds q).arrivedFirst frame (by simp [old]) new
    · rw [update_of_ne here]
      exact (holds q).passedBy frame (by simp [old]) (by simpa [new] using Ne.symm here)
  | taken r =>
    by_cases here : q = r
    · subst here
      rw [update_self]
      exact (holds q).left frame (by simp [new])
    · rw [update_of_ne here]
      exact (holds q).passedBy frame (by simpa [old] using Ne.symm here) (by simp [new])

structure Moves (s t : McuCtrl) (n : Nat) (a b : Stage) : Prop where
  msgs : ∀ k, k ≠ n → t.msgs k = s.msgs k
  kind : (t.msgs n).kind = (s.msgs n).kind
  queues : Requeued n s.queues (a.queue (s.msgs n).kind) (b.queue (s.msgs n).kind) t.queues
  freed : t.freed = if b = .freed then n :: s.freed else s.freed
  placed : t.misplaced = s.misplaced
  count : t.count = s.count
  alive : a ≠ .unborn ∧ a ≠ .freed
  along : b = a ∨ b ∈ a.next

def Follows (stage : Nat → Stage) (t : McuCtrl) : Prop := ∃ later, Lives t later ∧ Stage.Follows stage later

section Moved
variable {s t : McuCtrl} {stage : Nat → Stage} {n : Nat} {a b : Stage}

theorem bornBefore (alive : a ≠ .unborn) (along : b = a ∨ b ∈ a.next) : b ≠ .unborn := by
  rintro rfl
  cases a <;> simp [Stage.next] at along alive

theorem Lives.shifted (lives : Lives s stage) (msgs : ∀ k, k ≠ n → t.msgs k = s.msgs k)
    (queues : Requeued n s.queues ((stage n).queue (s.msgs n).kind) (b.queue (t.msgs n).kind) t.queues)
    (held : stage n ≠ .freed) (freed : t.freed = if b = .freed then n :: s.freed else s.freed)
    (placed : t.misplaced = s.misplaced) (unborn : ∀ k, update stage n b k = .unborn ↔ t.count ≤ k)
    (life : Life t.sender t.tasklet n (t.msgs n) b)
    (others : ∀ k, k ≠ n → Life s.sender s.tasklet k (s.msgs k) (stage k) →
      Life t.sender t.tasklet k (s.msgs k) (stage k)) (sender : SenderFits t.msgs (update stage n b) t.sender)
    (tasklet : TaskletFits (update stage n b) t.tasklet) (along : b = stage n ∨ b ∈ (stage n).next) :
    Follows stage t := by
  have frame (k : Nat) (other : k ≠ n) : update stage n b k = stage k := update_of_ne other _ _
  refine ⟨update stage n b,⟨?_,?_,placed.trans lives.placed,unborn,fun k => ?_,sender,tasklet⟩,fun k => ?_⟩
  · refine requeuedHolds n (by simpa only [update_self] using queues) ?_ lives.queues
    intro k other
    simp only [frame k other,msgs k other]
  · rw [freed]
    split
    next ends => exact lives.freed.arrivedFirst frame held (by simpa using ends)
    next goes => exact lives.freed.passedBy frame held (by simpa using goes)
  · by_cases same : k = n
    · subst same
      rwa [update_self]
    · rw [frame k same,msgs k same]
      exact others k same (lives.life k)
  · by_cases same : k = n
    · subst same
      rwa [update_self]
    · exact .inl (frame k same)

theorem Lives.moved (lives : Lives s stage) (before : stage n = a) (moves : Moves s t n a b)
    (life : Life t.sender t.tasklet n (t.msgs n) b)
    (others : ∀ k, k ≠ n → Life s.sender s.tasklet k (s.msgs k) (stage k) →
      Life t.sender t.tasklet k (s.msgs k) (stage k)) (sender : SenderFits t.msgs (update stage n b) t.sender)
    (tasklet : TaskletFits (update stage n b) t.tasklet) : Follows stage t := by
  subst before
  refine lives.shifted moves.msgs (by rw [moves.kind]; exact moves.queues) moves.alive.2 moves.freed moves.placed
    (fun k => ?_) life others sender tasklet moves.along
  rw [moves.count,← lives.unborn k]
  by_cases same : k = n
  · subst same
    rw [update_self]
    exact ⟨fun no => absurd no (bornBefore moves.alive.1 moves.along),fun no => absurd no moves.alive.1⟩
  · rw [update_of_ne same]

theorem taskletElsewhere {tasklet} (fits : TaskletFits stage tasklet) (answering : stage n ≠ .answering)
    (reaped : stage n ≠ .reaped) : TaskletFits (update stage n b) tasklet := by
  cases tasklet with
  | idle => trivial
  | acked m =>
    have other : m ≠ n := fun same => answering (same ▸ fits)
    exact (update_of_ne other _ _).trans fits
  | reaping m =>
    have other : m ≠ n := fun same => reaped (same ▸ fits)
    exact (update_of_ne other _ _).trans fits

theorem Lives.movedBySender (lives : Lives s stage) (before : stage n = a)
    (current : Sender.current s.sender = some n) (msgs : ∀ k, k ≠ n → t.msgs k = s.msgs k)
    (kind : (t.msgs n).kind = (s.msgs n).kind)
    (queues : Requeued n s.queues (a.queue (s.msgs n).kind) (b.queue (s.msgs n).kind) t.queues)
    (rest : (t.freed,t.misplaced,t.count,t.tasklet) =
      (if b = .freed then n :: s.freed else s.freed,s.misplaced,s.count,s.tasklet))
    (along : (a ≠ .unborn ∧ a ≠ .freed ∧ a ≠ .answering ∧ a ≠ .reaped) ∧ (b = a ∨ b ∈ a.next))
    (life : Life t.sender t.tasklet n (t.msgs n) b)
    (sender : SenderFits t.msgs (update stage n b) t.sender) : Follows stage t := by
  obtain ⟨⟨born,kept,answering,reaped⟩,along⟩ := along
  simp only [Prod.mk.injEq] at rest
  obtain ⟨freed,placed,count,same⟩ := rest
  refine lives.moved before ⟨msgs,kind,queues,freed,placed,count,⟨born,kept⟩,along⟩ life (fun k other alive => ?_)
    sender ?_
  · rw [same]
    exact lifeSender (by rw [current]; simpa using Ne.symm other) alive
  · rw [same]
    exact taskletElsewhere lives.tasklet (before ▸ answering) (before ▸ reaped)

end Moved

theorem unlinkOn {s n q} (on : n ∈ s.queues q) :
    andesUnlinkCmdMsg s n q = { s with queues := update s.queues q ((s.queues q).erase n) } := if_pos on

theorem queueOfCases (kind) : queueOf kind = .ackq ∧ kind = .answered ∨ queueOf kind = .kickq ∧ kind = .posted := by
  cases kind <;> simp [queueOf,Kind.needRsp]

section Queues
variable {s : McuCtrl} {stage : Nat → Stage} {n : Nat}

theorem Lives.onQueue (lives : Lives s stage) (q) :
    n ∈ s.queues q ↔ (stage n).queue (s.msgs n).kind = some q := (lives.queues q).mem n

theorem Lives.onTxq (lives : Lives s stage) : n ∈ s.queues .txq ↔ stage n = .waiting := by
  rw [lives.onQueue]
  cases stage n <;> simp [Stage.queue]
  all_goals rcases queueOfCases (s.msgs n).kind with h | h <;> simp [h.1]

theorem Lives.onTxDoneq (lives : Lives s stage) : n ∈ s.queues .txDoneq ↔ stage n = .finished := by
  rw [lives.onQueue]
  cases stage n <;> simp [Stage.queue]
  all_goals rcases queueOfCases (s.msgs n).kind with h | h <;> simp [h.1]

end Queues

end RtmpDriver.McuLife
