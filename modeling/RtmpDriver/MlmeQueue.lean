import Mathlib.Data.List.Basic
import Mathlib.Logic.Function.Basic
import Mathlib.Tactic.Common
import RtmpDriver.StepMachine

/-! The MLME queue: MlmeEnqueue, MlmeEnqueueForRecv, MlmeDequeue and the loop of MlmeHandler, one action for each
critical section of Queue->Lock and one for each thing the handler does outside it. MlmeEnqueue's test for room counts
the elements and does not look at Occupied, which is cleared after an element has been processed. -/
namespace RtmpDriver.MlmeQueue
open StepMachine List

def maxLenOfMlmeQueue : Nat := 40
def mgmtDmaBufferSize : Nat := 1600
def reservedWcid : UInt8 := 0xff

structure Elem where
  msg : Nat → UInt8
  machine : Nat
  msgType : Nat
  msgLen : Nat
  timeStampLow : Nat
  timeStampHigh : Nat
  rssi0 : UInt8
  rssi1 : UInt8
  rssi2 : UInt8
  signal : UInt8
  channel : UInt8
  wcid : UInt8
  occupied : Bool
  opMode : UInt8
  priv : Nat

structure Queue where
  num : Nat
  head : Nat
  tail : Nat
  entry : Nat → Elem

/- The arguments of MlmeEnqueue and of MlmeEnqueueForRecv; `msg` is what Msg points to. -/
inductive Call where
  | send (machine msgType msgLen : Nat) (msg : Option (Nat → UInt8)) (priv : Nat)
  | recv (wcid : UInt8) (timeStampHigh timeStampLow : Nat) (rssi0 rssi1 rssi2 : UInt8) (msgLen : Nat)
      (msg : Option (Nat → UInt8)) (signal opMode : UInt8)

def Call.msgLen : Call → Nat
  | .send _ _ msgLen _ _ => msgLen
  | .recv _ _ _ _ _ _ msgLen _ _ _ => msgLen

structure Flags where
  ateOn : Bool
  halted : Bool

def Call.stopped (flags : Flags) : Call → Bool
  | .send .. => flags.halted
  | .recv .. => flags.ateOn || flags.halted

def mlmeQueueEmpty (q : Queue) : Bool := q.num == 0

def mlmeQueueFull (q : Queue) : Call → Bool
  | .recv .. => maxLenOfMlmeQueue / 2 ≤ q.num || (q.entry q.tail).occupied
  | .send .. => q.num == maxLenOfMlmeQueue

def moveMessage (old : Nat → UInt8) (msgLen : Nat) : Option (Nat → UInt8) → Nat → UInt8
  | none => old
  | some msg => fun i => if i < msgLen then msg i else old i

/- What an insertion writes over an element. `subst` is the machine and the type MsgTypeSubst
found for a received frame. -/
def written (old : Elem) (channel : UInt8) (subst : Option (Nat × Nat)) : Call → Option Elem
  | .send machine msgType msgLen msg priv =>
    some {old with
      wcid := reservedWcid, occupied := true, machine := machine, msgType := msgType, msgLen := msgLen, priv := priv
      msg := moveMessage old.msg msgLen msg}
  | .recv wcid high low rssi0 rssi1 rssi2 msgLen msg signal opMode =>
    subst.map fun (machine,msgType) =>
      {old with
        occupied := true, machine := machine, msgType := msgType, msgLen := msgLen
        timeStampLow := low, timeStampHigh := high, rssi0 := rssi0, rssi1 := rssi1, rssi2 := rssi2
        signal := signal, wcid := wcid, opMode := opMode, channel := channel, priv := 0
        msg := moveMessage old.msg msgLen msg}

def advance (i : Nat) : Nat := if i + 1 = maxLenOfMlmeQueue then 0 else i + 1

def Queue.insert (q : Queue) (e : Elem) : Queue :=
  {q with num := q.num + 1, tail := advance q.tail, entry := Function.update q.entry q.tail e}

def Queue.remove (q : Queue) : Queue := {q with num := q.num - 1, head := advance q.head}

def Queue.release (q : Queue) (slot : Nat) : Queue :=
  {q with entry := Function.update q.entry slot {q.entry slot with occupied := false, msgLen := 0}}

/- Where MlmeHandler is: outside the loop, past MlmeQueueEmpty, past MlmeDequeue, past the state machine. -/
inductive Handler where
  | idle | looping | holding (slot : Nat) | processed (slot : Nat)

def Handler.holds : Handler → Nat
  | .holding _ => 1
  | _ => 0

/- `pending` has the producers that passed the test for room. The last four fields are history:
what was written where, the write each element comes from, what the state machines were given, and
how many elements have been marked free. -/
structure State (ι : Type) where
  queue : Queue
  pending : ι → Option Call
  handler : Handler
  sent : List (Nat × Elem)
  owner : Nat → Option Nat
  handled : List Elem
  finished : Nat

inductive Act (ι : Type) where
  | test (p : ι) (flags : Flags) (call : Call)
  | insert (p : ι) (channel : UInt8) (subst : Option (Nat × Nat))
  | look
  | leave
  | dequeue
  | process
  | release

section
variable {ι : Type} [DecidableEq ι]

def State.test (s : State ι) (p : ι) (flags : Flags) (call : Call) : State ι :=
  match s.pending p with
  | some _ => s
  | none =>
    if call.stopped flags then s
    else if mgmtDmaBufferSize < call.msgLen then s
    else if mlmeQueueFull s.queue call then s
    else {s with pending := Function.update s.pending p (some call)}

def State.written (s : State ι) (p : ι) (channel : UInt8) (subst : Option (Nat × Nat)) : Option Elem :=
  (s.pending p).bind (MlmeQueue.written (s.queue.entry s.queue.tail) channel subst)

def State.insert (s : State ι) (p : ι) (channel : UInt8) (subst : Option (Nat × Nat)) : State ι :=
  let left := {s with pending := Function.update s.pending p none}
  match s.written p channel subst with
  | none => left
  | some e => {left with
      queue := s.queue.insert e
      sent := s.sent ++ [(s.queue.tail,e)]
      owner := Function.update s.owner s.queue.tail (some s.sent.length)}

def step (s : State ι) : Act ι → State ι
  | .test p flags call => s.test p flags call
  | .insert p channel subst => s.insert p channel subst
  | .look =>
    match s.handler with
    | .idle => if mlmeQueueEmpty s.queue then s else {s with handler := .looping}
    | _ => s
  | .leave =>
    match s.handler with
    | .looping => {s with handler := .idle}
    | _ => s
  | .dequeue =>
    match s.handler with
    | .looping => {s with handler := .holding s.queue.head, queue := s.queue.remove}
    | _ => s
  | .process =>
    match s.handler with
    | .holding slot => {s with handler := .processed slot, handled := s.handled ++ [s.queue.entry slot]}
    | _ => s
  | .release =>
    match s.handler with
    | .processed slot => {s with handler := .idle, queue := s.queue.release slot, finished := s.finished + 1}
    | _ => s

end

def zeroElem : Elem :=
  {msg := fun _ => 0, machine := 0, msgType := 0, msgLen := 0, timeStampLow := 0, timeStampHigh := 0,
    rssi0 := 0, rssi1 := 0, rssi2 := 0, signal := 0, channel := 0, wcid := 0, occupied := false, opMode := 0, priv := 0}

def mlmeQueueInit : Queue := {num := 0, head := 0, tail := 0, entry := fun _ => zeroElem}

def initial (ι : Type) : State ι :=
  {queue := mlmeQueueInit, pending := fun _ => none, handler := .idle, sent := [], owner := fun _ => none,
    handled := [], finished := 0}

structure Fifo {ι : Type} (s : State ι) : Prop where
  bounded : s.queue.num ≤ maxLenOfMlmeQueue
  intact : ∀ k slot e, s.finished ≤ k → s.sent[k]? = some (slot,e) →
    s.queue.entry slot = e ∧ s.owner slot = some k
  order : s.handled = (s.sent.map Prod.snd).take s.handled.length
  complete : s.sent.length = s.handled.length + s.handler.holds + s.queue.num

def Vacant {ι : Type} (s : State ι) : Act ι → Prop
  | .insert p channel subst => (s.written p channel subst).isSome = true →
    (s.queue.entry s.queue.tail).occupied = false
  | _ => True

def Handler.At (handled finished num : Nat) : Handler → Prop
  | .idle => finished = handled
  | .looping => finished = handled ∧ 0 < num
  | .holding slot => finished = handled ∧ slot = finished % maxLenOfMlmeQueue
  | .processed slot => finished + 1 = handled ∧ slot = finished % maxLenOfMlmeQueue

structure Kept {ι : Type} (s : State ι) : Prop where
  tail : s.queue.tail = s.sent.length % maxLenOfMlmeQueue
  head : s.queue.head = (s.handled.length + s.handler.holds) % maxLenOfMlmeQueue
  complete : s.sent.length = s.handled.length + s.handler.holds + s.queue.num
  handler : s.handler.At s.handled.length s.finished s.queue.num
  room : s.sent.length ≤ s.finished + maxLenOfMlmeQueue
  held : ∀ k, s.finished ≤ k → k < s.sent.length →
    s.sent[k]? = some (k % maxLenOfMlmeQueue,s.queue.entry (k % maxLenOfMlmeQueue)) ∧
    s.owner (k % maxLenOfMlmeQueue) = some k ∧ (s.queue.entry (k % maxLenOfMlmeQueue)).occupied = true
  free : ∀ k, s.sent.length ≤ k → k < s.finished + maxLenOfMlmeQueue →
    (s.queue.entry (k % maxLenOfMlmeQueue)).occupied = false
  order : s.handled = (s.sent.map Prod.snd).take s.handled.length

theorem slotsApart {j k} (less : j < k) (near : k < j + maxLenOfMlmeQueue) :
    j % maxLenOfMlmeQueue ≠ k % maxLenOfMlmeQueue := by
  unfold maxLenOfMlmeQueue at near ⊢
  omega

theorem advanceMod (n) : advance (n % maxLenOfMlmeQueue) = (n + 1) % maxLenOfMlmeQueue := by
  unfold advance maxLenOfMlmeQueue
  split <;> omega

section
variable {ι : Type} {s : State ι}

theorem Kept.begun (kept : Kept s) :
    s.finished ≤ s.handled.length ∧ s.finished ≤ s.handled.length + s.handler.holds ∧
      s.handled.length ≤ s.finished + 1 := by
  have at' := kept.handler
  cases handler : s.handler <;> simp only [handler,Handler.At,Handler.holds] at at' ⊢ <;> omega

theorem Kept.fifo (kept : Kept s) : Fifo s := by
  have begun := kept.begun
  have room := kept.room
  have complete := kept.complete
  refine ⟨by omega,fun k slot e low found => ?_,kept.order,complete⟩
  have high : k < s.sent.length := (List.getElem?_eq_some_iff.mp found).1
  obtain ⟨here,owner,_⟩ := kept.held k low high
  cases Option.some.inj (here.symm.trans found)
  exact ⟨rfl,owner⟩

theorem initialKept (ι : Type) : Kept (initial ι) := by
  refine ⟨rfl,rfl,rfl,rfl,Nat.zero_le _,fun k _ high => ?_,fun _ _ _ => rfl,rfl⟩
  exact absurd high (Nat.not_lt_zero k)

theorem Kept.elsewhere (kept : Kept s) {pending : ι → Option Call} {handler : Handler}
    (same : handler.holds = s.handler.holds) (new : handler.At s.handled.length s.finished s.queue.num) :
    Kept {s with pending := pending, handler := handler} :=
  ⟨kept.tail,by rw [kept.head,← same],by rw [kept.complete,← same],new,kept.room,kept.held,kept.free,kept.order⟩

theorem Handler.At.more {handler : Handler} {handled finished num : Nat}
    (old : handler.At handled finished num) : handler.At handled finished (num + 1) := by
  cases handler with
  | looping => exact ⟨old.1,Nat.succ_pos _⟩
  | _ => exact old

theorem writtenOccupied {p channel subst e} (found : s.written p channel subst = some e) : e.occupied = true := by
  obtain ⟨call,_,wrote⟩ := Option.bind_eq_some_iff.mp found
  cases call with
  | send => cases wrote; rfl
  | recv =>
    obtain ⟨_,_,rfl⟩ := Option.map_eq_some_iff.mp wrote
    rfl

variable [DecidableEq ι]

theorem Kept.test (kept : Kept s) (p flags call) : Kept (s.test p flags call) := by
  unfold State.test
  split
  · exact kept
  · split
    · exact kept
    · split
      · exact kept
      · split
        · exact kept
        · exact kept.elsewhere rfl kept.handler

theorem Kept.insert (kept : Kept s) (p channel subst)
    (vacant : Vacant s (.insert p channel subst)) : Kept (s.insert p channel subst) := by
  cases found : s.written p channel subst with
  | none =>
    have same : s.insert p channel subst = {s with pending := Function.update s.pending p none} := by
      simp only [State.insert,found]
    rw [same]
    exact kept.elsewhere rfl kept.handler
  | some e =>
    have same : s.insert p channel subst = {s with
        pending := Function.update s.pending p none
        queue := s.queue.insert e
        sent := s.sent ++ [(s.queue.tail,e)]
        owner := Function.update s.owner s.queue.tail (some s.sent.length)} := by
      simp only [State.insert,found]
    have space : s.sent.length < s.finished + maxLenOfMlmeQueue := by
      rcases Nat.lt_or_ge s.sent.length (s.finished + maxLenOfMlmeQueue) with less | full
      · exact less
      · have exactly : s.sent.length = s.finished + maxLenOfMlmeQueue := Nat.le_antisymm kept.room full
        have begun : s.finished < s.finished + maxLenOfMlmeQueue := Nat.lt_add_of_pos_right (by decide)
        have taken := (kept.held s.finished (Nat.le_refl _) (by rw [exactly]; exact begun)).2.2
        have wraps : s.finished % maxLenOfMlmeQueue = s.queue.tail := by
          rw [kept.tail,exactly,Nat.add_mod_right]
        rw [wraps,vacant (by simp [found])] at taken
        exact absurd taken (by simp)
    rw [same]
    refine ⟨?_,kept.head,?_,kept.handler.more,?_,?_,?_,?_⟩
    · simp only [Queue.insert,kept.tail,advanceMod,length_append,length_singleton]
    · simp only [Queue.insert,length_append,length_singleton,kept.complete]
      omega
    · rw [length_append,length_singleton]
      exact Nat.succ_le_of_lt space
    · intro k low high
      have low : s.finished ≤ k := low
      simp only [length_append,length_singleton] at high
      rcases Nat.lt_succ_iff_lt_or_eq.mp high with less | rfl
      · have apart : k % maxLenOfMlmeQueue ≠ s.queue.tail := by
          rw [kept.tail]
          exact slotsApart less (by omega)
        obtain ⟨here,owner,taken⟩ := kept.held k low less
        simp only [Queue.insert,Function.update_of_ne apart,List.getElem?_append_left less]
        exact ⟨here,owner,taken⟩
      · simp only [Queue.insert,← kept.tail,Function.update_self,List.getElem?_concat_length]
        exact ⟨trivial,trivial,writtenOccupied found⟩
    · intro k low high
      have high : k < s.finished + maxLenOfMlmeQueue := high
      simp only [length_append,length_singleton] at low
      have apart : k % maxLenOfMlmeQueue ≠ s.queue.tail := by
        rw [kept.tail]
        have begun : s.finished ≤ s.sent.length := by
          have := kept.begun
          have := kept.complete
          omega
        exact (slotsApart low (by omega)).symm
      simp only [Queue.insert,Function.update_of_ne apart]
      exact kept.free k (Nat.le_of_succ_le low) high
    · have short : s.handled.length ≤ (s.sent.map Prod.snd).length := by
        rw [length_map,kept.complete]
        omega
      simp only [map_append,take_append_of_le_length short]
      exact kept.order

theorem Kept.dequeue (kept : Kept s) : Kept (step s .dequeue) := by
  cases now : s.handler with
  | looping =>
    have at' := kept.handler
    have head := kept.head
    have complete := kept.complete
    rw [now] at at' head complete
    simp only [Handler.At,Handler.holds,Nat.add_zero] at at' head complete
    simp only [step,now]
    refine ⟨kept.tail,?_,?_,⟨at'.1,?_⟩,kept.room,kept.held,kept.free,kept.order⟩
    · simp only [Queue.remove,head,advanceMod,Handler.holds]
    · simp only [Queue.remove,Handler.holds]
      omega
    · rw [head,at'.1]
  | _ => simpa only [step,now] using kept

theorem Kept.process (kept : Kept s) : Kept (step s .process) := by
  cases now : s.handler with
  | holding slot =>
    have at' := kept.handler
    have head := kept.head
    have complete := kept.complete
    rw [now] at at' head complete
    simp only [Handler.At,Handler.holds] at at' head complete
    obtain ⟨equal,rfl⟩ := at'
    have here := (kept.held s.handled.length (by omega) (by omega)).1
    simp only [step,now]
    refine ⟨kept.tail,?_,?_,⟨?_,rfl⟩,kept.room,kept.held,kept.free,?_⟩
    · simpa [Handler.holds] using head
    · simp only [length_append,length_singleton,Handler.holds]
      omega
    · simp [equal]
    · have next : (s.sent.map Prod.snd)[s.handled.length]? =
          some (s.queue.entry (s.finished % maxLenOfMlmeQueue)) := by
        rw [List.getElem?_map,here,equal]
        rfl
      rw [length_append,length_singleton,take_add_one,next,← kept.order]
      rfl
  | _ => simpa only [step,now] using kept

theorem Kept.release (kept : Kept s) : Kept (step s .release) := by
  cases now : s.handler with
  | processed slot =>
    have at' := kept.handler
    have head := kept.head
    have complete := kept.complete
    rw [now] at at' head complete
    simp only [Handler.At,Handler.holds,Nat.add_zero] at at' head complete
    obtain ⟨equal,rfl⟩ := at'
    have room := kept.room
    simp only [step,now]
    refine ⟨kept.tail,head,complete,equal,?_,?_,?_,kept.order⟩
    · exact room.trans (by simp only [Nat.add_right_comm]; omega)
    · intro k low high
      have low : s.finished + 1 ≤ k := low
      have high : k < s.sent.length := high
      have apart : k % maxLenOfMlmeQueue ≠ s.finished % maxLenOfMlmeQueue := (slotsApart low (by omega)).symm
      simp only [Queue.release,Function.update_of_ne apart]
      exact kept.held k (by omega) high
    · intro k low high
      have low : s.sent.length ≤ k := low
      have high : k < s.finished + 1 + maxLenOfMlmeQueue := high
      rcases eq_or_ne (k % maxLenOfMlmeQueue) (s.finished % maxLenOfMlmeQueue) with same | apart
      · simp only [Queue.release,same,Function.update_self]
      · simp only [Queue.release,Function.update_of_ne apart]
        refine kept.free k low ?_
        rcases Nat.lt_or_ge k (s.finished + maxLenOfMlmeQueue) with less | last
        · exact less
        · have wraps : k = s.finished + maxLenOfMlmeQueue := by omega
          exact absurd (by rw [wraps,Nat.add_mod_right]) apart
  | _ => simpa only [step,now] using kept

theorem Kept.look (kept : Kept s) : Kept (step s .look) := by
  have at' := kept.handler
  cases now : s.handler with
  | idle =>
    simp only [step,now]
    split
    · exact kept
    · rename_i filled
      rw [now] at at'
      refine kept.elsewhere (by rw [now]; rfl) ⟨at',?_⟩
      exact Nat.pos_of_ne_zero (by simpa [mlmeQueueEmpty] using filled)
  | _ => simpa only [step,now] using kept

theorem Kept.leave (kept : Kept s) : Kept (step s .leave) := by
  have at' := kept.handler
  cases now : s.handler with
  | looping =>
    rw [now] at at'
    simp only [step,now]
    exact kept.elsewhere (by rw [now]; rfl) at'.1
  | _ => simpa only [step,now] using kept

theorem stepKept (s) (act : Act ι) (kept : Kept s) (vacant : Vacant s act) : Kept (step s act) := by
  cases act with
  | test p flags call => exact kept.test p flags call
  | insert p channel subst => exact kept.insert p channel subst vacant
  | look => exact kept.look
  | leave => exact kept.leave
  | dequeue => exact kept.dequeue
  | process => exact kept.process
  | release => exact kept.release

theorem fifoVacant (s) (act : Act ι) (kept : Kept s) (fifo : Fifo (step s act)) : Vacant s act := by
  cases act with
  | insert p channel subst =>
    intro some
    obtain ⟨e,found⟩ := Option.isSome_iff_exists.mp some
    by_contra occupied
    have occupied : (s.queue.entry s.queue.tail).occupied = true := by simpa using occupied
    have begun := kept.begun
    have complete := kept.complete
    have full : s.sent.length = s.finished + maxLenOfMlmeQueue := by
      refine Nat.le_antisymm kept.room (Nat.le_of_not_lt fun space => ?_)
      have free := kept.free s.sent.length (Nat.le_refl _) space
      rw [← kept.tail,occupied] at free
      exact absurd free (by simp)
    have wraps : s.finished % maxLenOfMlmeQueue = s.queue.tail := by
      rw [kept.tail,full,Nat.add_mod_right]
    have old : s.finished < s.sent.length := by rw [full]; exact Nat.lt_add_of_pos_right (by decide)
    have here := (kept.held s.finished (Nat.le_refl _) old).1
    rw [wraps] at here
    have same : step s (.insert p channel subst) = {s with
        pending := Function.update s.pending p none
        queue := s.queue.insert e
        sent := s.sent ++ [(s.queue.tail,e)]
        owner := Function.update s.owner s.queue.tail (Option.some s.sent.length)} := by
      simp only [step,State.insert,found]
    rw [same] at fifo
    have owner := (fifo.intact s.finished s.queue.tail _ (Nat.le_refl _)
      ((List.getElem?_append_left old).trans here)).2
    simp only [Function.update_self,Option.some.injEq] at owner
    omega
  | _ => trivial

theorem mlmeQueueFifo (acts : List (Act ι)) :
    Always step Fifo (initial ι) acts ↔ Meets step Vacant (initial ι) acts :=
  alwaysIffMeets (fun _ => Kept.fifo) (fun s act kept _ => stepKept s act kept)
    (fun s act kept _ => fifoVacant s act kept) (initialKept ι) meetsTrue
end

def noFlags : Flags := {ateOn := false, halted := false}
def sampleSend (msgType : Nat) : Call := .send 1 msgType 0 none 0
def enqueue (p : Bool) (msgType : Nat) : List (Act Bool) := [.test p noFlags (sampleSend msgType),.insert p 0 none]

def refilled : List (Act Bool) :=
  (range 40).flatMap (enqueue true) ++ [.look,.dequeue] ++ enqueue true 99 ++ [.process]

def crowded : List (Act Bool) :=
  (range 39).flatMap (enqueue true) ++
    [.test true noFlags (sampleSend 98),.test false noFlags (sampleSend 99),.insert true 0 none,.insert false 0 none]

theorem processedElementOverwritten :
    let s := run step (initial Bool) refilled
    let t := run step (initial Bool) crowded
    (s.sent.head?.map (fun w => w.2.msgType) = some 0 ∧ s.handled.map Elem.msgType = [99] ∧ ¬ Fifo s) ∧
      t.queue.num = 41 ∧ ¬ Fifo t := by
  intro s t
  have given : s.handled.map Elem.msgType = [99] := by decide +kernel
  have due : ((s.sent.map Prod.snd).take s.handled.length).map Elem.msgType = [0] := by decide +kernel
  have excess : t.queue.num = 41 := by decide +kernel
  refine ⟨⟨by decide +kernel,given,fun fifo => ?_⟩,excess,fun fifo => ?_⟩
  · rw [← fifo.order,given] at due
    exact absurd due (by decide)
  · have bounded := fifo.bounded
    rw [excess] at bounded
    exact absurd bounded (by decide)

end RtmpDriver.MlmeQueue
