import Mathlib.Data.List.FinRange
import RtmpDriver.LinkedBuckets

/-! The timer queue of `rtmp_timer.c`. What is done under TimerQLock is one function here. `τ` is the timers; a node
holds NULL before it is used for the first time. -/
namespace RtmpDriver.TimerQueue
open LinkedBuckets
open List hiding Chain

def timerQueueSizeMax : Nat := 128

abbrev Node := Fin timerQueueSizeMax

inductive Status where
  | unknown | inited | running | stopped
  deriving DecidableEq, Repr

def Status.value : Status → Nat
  | .unknown => 0
  | .inited => 1
  | .running => 2
  | .stopped => 4

def Status.canDoInsert (status : Status) : Bool := status.value &&& 3 != 0

structure TimerQ (τ : Type) where
  status : Status
  pQPollFreeList : Option Node
  pQHead : Option Node
  pQTail : Option Node
  pNext : Node → Option Node
  pRaTimer : Node → Option τ

variable {τ : Type}

def linkNode (s : (Node → Option Node) × Option Node) (pQNode : Node) : (Node → Option Node) × Option Node :=
  (Function.update s.1 pQNode s.2,some pQNode)

def rtmpTimerQInit : TimerQ τ :=
  let pool := (finRange timerQueueSizeMax).foldl linkNode (fun _ => none,none)
  ⟨.inited,pool.2,none,none,pool.1,fun _ => none⟩

def TimerQ.giveBack (q : TimerQ τ) (pNode : Node) : TimerQ τ :=
  { q with pNext := Function.update q.pNext pNode q.pQPollFreeList, pQPollFreeList := some pNode }

def TimerQ.setNext (q : TimerQ τ) (pNext : Option Node) : Option Node → TimerQ τ
  | none => q
  | some pNode => { q with pNext := Function.update q.pNext pNode pNext }

section
variable (q : TimerQ τ) (pNext p : Option Node)
@[simp] theorem setNextFree : (q.setNext pNext p).pQPollFreeList = q.pQPollFreeList := by cases p <;> rfl
@[simp] theorem setNextTimer : (q.setNext pNext p).pRaTimer = q.pRaTimer := by cases p <;> rfl
@[simp] theorem setNextStatus : (q.setNext pNext p).status = q.status := by cases p <;> rfl
end

def TimerQ.takeFree (q : TimerQ τ) (pQNode : Node) (pTimer : τ) : TimerQ τ :=
  { q with pQPollFreeList := q.pNext pQNode, pRaTimer := Function.update q.pRaTimer pQNode (some pTimer),
           pNext := Function.update q.pNext pQNode none }

def TimerQ.append (q : TimerQ τ) (pQNode : Node) : TimerQ τ :=
  { q.setNext (some pQNode) q.pQTail with
      pQTail := some pQNode, pQHead := if q.pQHead = none then some pQNode else q.pQHead }

def rtmpTimerQInsert (q : TimerQ τ) (pTimer : τ) : TimerQ τ × Option Node :=
  if q.status.canDoInsert then
    match q.pQPollFreeList with
    | none => (q,none)
    | some pQNode => ((q.takeFree pQNode pTimer).append pQNode,some pQNode)
  else (q,none)

/- The locked part of the loop of RtmpTimerQHandle, with what becomes of pTimer: `none` if pEntry is NULL. -/
def dequeue (q : TimerQ τ) : TimerQ τ × Option (Node × Option τ) :=
  match q.pQHead with
  | none => (q,none)
  | some pEntry =>
    let pTimer := q.pRaTimer pEntry
    let q := { q with pQHead := q.pNext pEntry, pQTail := if some pEntry = q.pQTail then none else q.pQTail }
    (q.giveBack pEntry,some (pEntry,pTimer))

section
variable [DecidableEq τ]

/- pPrev and pNode after the loop; `none` if `fuel` turns are not enough. -/
def findNode (q : TimerQ τ) (pTimer : τ) : Nat → Option Node → Option Node → Option (Option Node × Option Node)
  | 0,_,_ => none
  | _ + 1,pPrev,none => some (pPrev,none)
  | fuel + 1,pPrev,some pNode =>
    if q.pRaTimer pNode = some pTimer then some (pPrev,some pNode)
    else findNode q pTimer fuel (some pNode) (q.pNext pNode)

def unlinkNode (q : TimerQ τ) (pPrev : Option Node) (pNode : Node) : TimerQ τ :=
  let pNext := q.pNext pNode
  let q := { q with pQHead := if some pNode = q.pQHead then pNext else q.pQHead,
                    pQTail := if some pNode = q.pQTail then pPrev else q.pQTail }
  (q.setNext pNext pPrev).giveBack pNode

def rtmpTimerQRemove (q : TimerQ τ) (pTimer : τ) : Option (TimerQ τ × Option Node) :=
  if 1 ≤ q.status.value then
    match findNode q pTimer (timerQueueSizeMax + 1) none q.pQHead with
    | none => none
    | some (_,none) => some (q,none)
    | some (pPrev,some pNode) => some (unlinkNode q pPrev pNode,some pNode)
  else some (q,none)
end

structure Held (q : TimerQ τ) (nodes frees : List Node) (timers : List τ) : Prop where
  queue : Chain q.pNext q.pQHead nodes
  free : Chain q.pNext q.pQPollFreeList frees
  all : (nodes ++ frees).Perm (finRange timerQueueSizeMax)
  last : q.pQTail = nodes.getLast?
  timers : nodes.map q.pRaTimer = timers.map some

section Operations
variable {q : TimerQ τ} {nodes frees : List Node} {timers : List τ} {pNode : Node} {pTimer : τ}

theorem Held.nodup (held : Held q nodes frees timers) : (nodes ++ frees).Nodup :=
  held.all.nodup_iff.mpr (nodup_finRange _)

theorem linkChain {next p l} (chain : Chain next p l) (pool) (nodup : (pool ++ l).Nodup) :
    Chain (pool.foldl linkNode (next,p)).1 (pool.foldl linkNode (next,p)).2 (pool.reverse ++ l) := by
  induction pool generalizing next p l with
  | nil => exact chain
  | cons node pool ih =>
    have fresh : node ∉ l := fun mem => (nodup_cons.mp nodup).1 (mem_append_right pool mem)
    have longer : Chain (Function.update next node p) (some node) (node :: l) := by
      refine ⟨rfl,?_⟩
      rw [Function.update_self]
      refine chain.congr fun b mem => Function.update_of_ne ?_ ..
      exact fun same => fresh (same ▸ mem)
    rw [reverse_cons,append_assoc]
    exact ih longer (perm_middle.nodup_iff.mpr nodup)

theorem initHeld : Held (rtmpTimerQInit : TimerQ τ) [] (finRange timerQueueSizeMax).reverse [] where
  queue := rfl
  free := by
    have empty : Chain (fun _ : Node => (none : Option Node)) none [] := rfl
    have chain := linkChain empty (finRange timerQueueSizeMax) (by simpa using nodup_finRange _)
    rwa [append_nil] at chain
  all := reverse_perm _
  last := rfl
  timers := rfl

theorem initEnabled : (rtmpTimerQInit : TimerQ τ).status.canDoInsert = true :=
  (by decide : Status.inited.canDoInsert = true)

theorem insertFull (held : Held q nodes [] timers) : rtmpTimerQInsert q pTimer = (q,none) := by
  have none : q.pQPollFreeList = none := held.free
  unfold rtmpTimerQInsert
  split
  · rw [none]
  · rfl

theorem updateOutside {β : Type} {f : Node → β} {b} {l : List Node} (outside : pNode ∉ l) :
    ∀ a ∈ l, Function.update f pNode b a = f a :=
  fun _ mem => Function.update_of_ne (ne_of_mem_of_not_mem mem outside) ..

theorem Held.fresh (held : Held q nodes (pNode :: frees) timers) : pNode ∉ nodes ∧ pNode ∉ frees := by
  have parts := nodup_cons.mp (perm_middle.nodup_iff.mp held.nodup)
  rw [mem_append,not_or] at parts
  exact parts.1

theorem chainNone {next p} (chain : Chain next p nodes) : p = none ↔ nodes = [] := by
  cases nodes with
  | nil => exact iff_of_true chain rfl
  | cons a l => exact iff_of_false (by simp [chain.1]) (cons_ne_nil a l)

theorem insertHeld (pTimer) (held : Held q nodes (pNode :: frees) timers) (enabled : q.status.canDoInsert = true) :
    (rtmpTimerQInsert q pTimer).2 = some pNode ∧
      Held (rtmpTimerQInsert q pTimer).1 (nodes ++ [pNode]) frees (timers ++ [pTimer]) := by
  have first : q.pQPollFreeList = some pNode := held.free.1
  have rest : Chain q.pNext (q.pNext pNode) frees := held.free.2
  obtain ⟨outside,unused⟩ := held.fresh
  have names : (nodes ++ [pNode]).map (Function.update q.pRaTimer pNode (some pTimer)) =
      (timers ++ [pTimer]).map some := by
    rw [map_append,map_append,map_congr_left (updateOutside outside),held.timers,map_singleton,
      Function.update_self]
    rfl
  have perm : (nodes ++ [pNode] ++ frees).Perm (finRange timerQueueSizeMax) := by
    rw [append_assoc]
    exact held.all
  unfold rtmpTimerQInsert
  rw [enabled,if_pos rfl,first]
  refine ⟨rfl,?_⟩
  rcases eq_nil_or_concat nodes with rfl | ⟨l,z,rfl⟩
  · have empty : q.pQHead = none := held.queue
    have noTail : q.pQTail = none := held.last
    refine ⟨?_,?_,perm,rfl,?_⟩
    · simp [TimerQ.append,TimerQ.takeFree,TimerQ.setNext,noTail,empty,Chain]
    · simpa [TimerQ.append,TimerQ.takeFree,TimerQ.setNext,noTail] using rest.congr (updateOutside unused)
    · simpa [TimerQ.append,TimerQ.takeFree] using names
  · rw [concat_eq_append] at *
    have tail : q.pQTail = some z := by rw [held.last,getLast?_concat]
    have head : q.pQHead ≠ none := mt (chainNone held.queue).mp (by simp)
    have distinct := nodup_append.mp held.queue.nodup
    have before : z ∉ l := fun mem => distinct.2.2 z mem z mem_cons_self rfl
    have other : pNode ≠ z := fun same => outside (by simp [same])
    have inner : pNode ∉ l := fun mem => outside (mem_append_left _ mem)
    have free : z ∉ frees := fun mem =>
      (nodup_append.mp held.nodup).2.2 z (by simp) z (mem_cons_of_mem _ mem) rfl
    refine ⟨?_,?_,perm,?_,?_⟩
    · simp only [TimerQ.append,TimerQ.takeFree,TimerQ.setNext,tail,if_neg head]
      refine held.queue.extend (fun b mem => ?_) (Function.update_self ..) ?_
      · rw [updateOutside before b mem,updateOutside inner b mem]
      · rw [Function.update_of_ne other,Function.update_self]
    · simp only [TimerQ.append,TimerQ.takeFree,TimerQ.setNext,tail]
      refine rest.congr fun b mem => ?_
      rw [updateOutside free b mem,updateOutside unused b mem]
    · simp [TimerQ.append]
    · simpa [TimerQ.append,TimerQ.takeFree] using names

theorem insertCases (held : Held q nodes frees timers) (pTimer) : rtmpTimerQInsert q pTimer = (q,none) ∨
    ∃ q' pNode rest, frees = pNode :: rest ∧ rtmpTimerQInsert q pTimer = (q',some pNode) ∧
      Held q' (nodes ++ [pNode]) rest (timers ++ [pTimer]) := by
  cases enabled : q.status.canDoInsert with
  | false =>
    left
    rw [rtmpTimerQInsert,enabled]
    rfl
  | true =>
    cases frees with
    | nil => exact .inl (insertFull held)
    | cons pNode rest =>
      obtain ⟨node,after⟩ := insertHeld pTimer held enabled
      exact .inr ⟨_,pNode,rest,rfl,Prod.ext rfl node,after⟩

theorem dequeueEmpty (held : Held q [] frees timers) : dequeue q = (q,none) := by
  have empty : q.pQHead = none := held.queue
  rw [dequeue,empty]

theorem dequeueHeld (held : Held q (pNode :: nodes) frees timers) : ∃ pTimer rest, timers = pTimer :: rest ∧
    (dequeue q).2 = some (pNode,some pTimer) ∧ Held (dequeue q).1 nodes (pNode :: frees) rest := by
  have first : q.pQHead = some pNode := held.queue.1
  have nodup := held.nodup
  rw [cons_append,nodup_cons,mem_append,not_or] at nodup
  obtain ⟨⟨outside,unused⟩,_⟩ := nodup
  have names := held.timers
  rw [map_cons] at names
  cases timers with
  | nil => contradiction
  | cons pTimer rest =>
    rw [map_cons,cons.injEq] at names
    refine ⟨pTimer,rest,rfl,?_,?_⟩
    · rw [dequeue,first]
      simp only [names.1]
    · rw [dequeue,first]
      refine ⟨?_,?_,?_,?_,names.2⟩
      · exact Chain.congr held.queue.2 (updateOutside outside)
      · refine ⟨rfl,?_⟩
        simp only [TimerQ.giveBack,Function.update_self]
        exact held.free.congr (updateOutside unused)
      · exact perm_middle.trans held.all
      · simp only [TimerQ.giveBack,held.last]
        rcases eq_nil_or_concat nodes with rfl | ⟨l,z,rfl⟩
        · exact if_pos rfl
        · rw [concat_eq_append] at *
          have other : ¬ some pNode = some z := fun same => outside (by simp [Option.some.inj same])
          rw [← cons_append,getLast?_concat,getLast?_concat,if_neg other]

theorem unlinkFirst (head : q.pQHead = some pNode) : unlinkNode q none pNode = (dequeue q).1 := by
  unfold unlinkNode dequeue
  simp only [head,if_true,TimerQ.setNext]

theorem unlinkLater {z : Node} {l after} {earlier later : List τ}
    (held : Held q (l ++ [z] ++ pNode :: after) frees (earlier ++ pTimer :: later))
    (same : (l ++ [z]).length = earlier.length) :
    Held (unlinkNode q (some z) pNode) (l ++ [z] ++ after) (pNode :: frees) (earlier ++ later) := by
  have nodup := held.nodup
  rw [append_assoc (l ++ [z]),cons_append,perm_middle.nodup_iff,nodup_cons,mem_append,
    mem_append (s := after),not_or,not_or] at nodup
  obtain ⟨⟨outside,behind,unused⟩,distinct⟩ := nodup
  have parts := nodup_append.mp distinct
  have inner := nodup_append.mp parts.1
  have notBefore : z ∉ l := fun mem => inner.2.2 z mem z mem_cons_self rfl
  have notBehind : z ∉ after ++ frees := fun mem => parts.2.2 z (by simp) z mem rfl
  have other : z ≠ pNode := fun equal => outside (by simp [equal])
  have head : ¬ some pNode = q.pQHead := by
    intro first
    cases l with
    | nil => exact other (Option.some.inj (held.queue.1.symm.trans first.symm))
    | cons b l =>
      have equal : b = pNode := Option.some.inj (held.queue.1.symm.trans first.symm)
      exact outside (by simp [equal])
  have names : (l ++ [z]).map q.pRaTimer ++ (pNode :: after).map q.pRaTimer =
      earlier.map some ++ (pTimer :: later).map some := by
    rw [← map_append,← map_append,held.timers]
  obtain ⟨front,back⟩ := append_inj names (by rw [length_map,length_map,same])
  have behindNames := (cons.inj back).2
  refine ⟨?_,?_,?_,?_,?_⟩
  · simp only [unlinkNode,TimerQ.setNext,TimerQ.giveBack,if_neg head]
    refine held.queue.skip (fun b mem => ?_) ?_
    · have apart : pNode ∉ l ++ after := by
        rw [mem_append,not_or]
        exact ⟨fun inside => outside (mem_append_left _ inside),behind⟩
      have skipped : z ∉ l ++ after := by
        rw [mem_append,not_or]
        exact ⟨notBefore,fun inside => notBehind (mem_append_left _ inside)⟩
      rw [updateOutside apart b mem,updateOutside skipped b mem]
    · rw [Function.update_of_ne other,Function.update_self]
  · refine ⟨rfl,?_⟩
    simp only [unlinkNode,TimerQ.setNext,TimerQ.giveBack,Function.update_self]
    refine held.free.congr fun b mem => ?_
    have apart : z ∉ frees := fun inside => notBehind (mem_append_right _ inside)
    rw [updateOutside unused b mem,updateOutside apart b mem]
  · refine List.Perm.trans ?_ held.all
    rw [append_assoc (l ++ [z]),append_assoc (l ++ [z]),cons_append]
    exact List.Perm.append_left _ perm_middle
  · simp only [unlinkNode,TimerQ.setNext,TimerQ.giveBack,held.last]
    rcases eq_nil_or_concat after with rfl | ⟨r,y,rfl⟩
    · rw [getLast?_concat,if_pos rfl,append_nil,getLast?_concat]
    · rw [concat_eq_append] at *
      have notLast : ¬ some pNode = some y := fun equal => behind (by simp [Option.some.inj equal])
      rw [← cons_append,← append_assoc,getLast?_concat,if_neg notLast,← append_assoc,
        getLast?_concat]
  · simp only [unlinkNode,TimerQ.setNext,TimerQ.giveBack]
    rw [map_append,front,behindNames,map_append]

theorem unlinkHeld {before after earlier later}
    (held : Held q (before ++ pNode :: after) frees (earlier ++ pTimer :: later))
    (same : before.length = earlier.length) :
    Held (unlinkNode q before.getLast? pNode) (before ++ after) (pNode :: frees) (earlier ++ later) := by
  rcases eq_nil_or_concat before with rfl | ⟨l,z,rfl⟩
  · obtain rfl := eq_nil_of_length_eq_zero same.symm
    obtain ⟨_,_,equal,_,after⟩ := dequeueHeld held
    rw [getLast?_nil,unlinkFirst held.queue.1]
    rwa [← (cons.inj equal).2] at after
  · rw [concat_eq_append] at *
    rw [getLast?_concat]
    exact unlinkLater held same

theorem timerAbsent (names : nodes.map q.pRaTimer = timers.map some) (absent : pTimer ∉ timers) :
    ∀ n ∈ nodes, q.pRaTimer n ≠ some pTimer := by
  intro n mem equal
  have image : some pTimer ∈ nodes.map q.pRaTimer := mem_map.mpr ⟨n,mem,equal⟩
  rw [names,mem_map] at image
  obtain ⟨t,inside,same⟩ := image
  exact absent (Option.some.inj same ▸ inside)

theorem Held.short (held : Held q nodes frees timers) : nodes.length ≤ timerQueueSizeMax := by
  have size := held.all.length_eq
  rw [length_append,length_finRange] at size
  omega

section Remove
variable [DecidableEq τ]

theorem findAbsent {p pPrev fuel} (chain : Chain q.pNext p nodes)
    (absent : ∀ n ∈ nodes, q.pRaTimer n ≠ some pTimer) (enough : nodes.length < fuel) :
    findNode q pTimer fuel pPrev p = some (nodes.getLast?.or pPrev,none) := by
  induction nodes generalizing p pPrev fuel with
  | nil =>
    obtain ⟨fuel,rfl⟩ := Nat.exists_eq_succ_of_ne_zero (Nat.ne_zero_of_lt enough)
    rw [show p = none from chain]
    rfl
  | cons n nodes ih =>
    obtain ⟨fuel,rfl⟩ := Nat.exists_eq_succ_of_ne_zero (Nat.ne_zero_of_lt enough)
    rw [forall_mem_cons] at absent
    rw [chain.1,findNode,if_neg absent.1,ih chain.2 absent.2 (Nat.lt_of_succ_lt_succ enough),getLast?_cons]
    cases nodes.getLast? <;> rfl

theorem findFirst {p pPrev fuel before after}
    (chain : Chain q.pNext p (before ++ pNode :: after)) (absent : ∀ n ∈ before, q.pRaTimer n ≠ some pTimer)
    (here : q.pRaTimer pNode = some pTimer) (enough : before.length < fuel) :
    findNode q pTimer fuel pPrev p = some (before.getLast?.or pPrev,some pNode) := by
  induction before generalizing p pPrev fuel with
  | nil =>
    obtain ⟨fuel,rfl⟩ := Nat.exists_eq_succ_of_ne_zero (Nat.ne_zero_of_lt enough)
    rw [show p = some pNode from chain.1,findNode,if_pos here]
    rfl
  | cons n before ih =>
    obtain ⟨fuel,rfl⟩ := Nat.exists_eq_succ_of_ne_zero (Nat.ne_zero_of_lt enough)
    rw [forall_mem_cons] at absent
    rw [show p = some n from chain.1,findNode,if_neg absent.1,ih chain.2 absent.2 (Nat.lt_of_succ_lt_succ enough),
      getLast?_cons]
    cases before.getLast? <;> rfl

theorem removeHeld (pTimer) (held : Held q nodes frees timers) (ready : 1 ≤ q.status.value) :
    (pTimer ∉ timers ∧ rtmpTimerQRemove q pTimer = some (q,none)) ∨
    ∃ q' earlier later before pNode after, timers = earlier ++ pTimer :: later ∧ pTimer ∉ earlier ∧
      nodes = before ++ pNode :: after ∧ before.length = earlier.length ∧
      rtmpTimerQRemove q pTimer = some (q',some pNode) ∧
      Held q' (before ++ after) (pNode :: frees) (earlier ++ later) := by
  have size := held.short
  unfold rtmpTimerQRemove
  rw [if_pos ready]
  by_cases queued : pTimer ∈ timers
  · right
    obtain ⟨earlier,later,rfl,fresh⟩ := eq_append_cons_of_mem queued
    have names := held.timers
    rw [map_append,map_cons] at names
    obtain ⟨before,rest,rfl,front,back⟩ := map_eq_append_iff.mp names
    obtain ⟨pNode,after,rfl,here,_⟩ := map_eq_cons_iff.mp back
    have same : before.length = earlier.length := by simpa using congrArg length front
    rw [length_append] at size
    rw [findFirst held.queue (timerAbsent front fresh) here (by omega),Option.or_none]
    exact ⟨_,earlier,later,before,pNode,after,rfl,fresh,rfl,same,rfl,unlinkHeld held same⟩
  · left
    rw [findAbsent held.queue (timerAbsent held.timers queued) (by omega)]
    exact ⟨queued,rfl⟩

theorem removeIdle (idle : ¬ 1 ≤ q.status.value) : rtmpTimerQRemove q pTimer = some (q,none) := if_neg idle

end Remove

theorem insertStatus : (rtmpTimerQInsert q pTimer).1.status = q.status := by
  unfold rtmpTimerQInsert
  split
  · cases q.pQPollFreeList with
    | none => rfl
    | some pQNode => simp [TimerQ.append,TimerQ.takeFree]
  · rfl

def insertAll (q : TimerQ τ) (more : List τ) : TimerQ τ := more.foldl (fun q t => (rtmpTimerQInsert q t).1) q

theorem insertAllHeld (held : Held q nodes frees timers) (enabled : q.status.canDoInsert = true) (more) :
    ∃ nodes' frees', Held (insertAll q more) nodes' frees' (timers ++ more.take frees.length) := by
  induction more generalizing q nodes frees timers with
  | nil => exact ⟨nodes,frees,by simpa [insertAll] using held⟩
  | cons pTimer more ih =>
    have step : insertAll q (pTimer :: more) = insertAll (rtmpTimerQInsert q pTimer).1 more := rfl
    rw [step]
    cases frees with
    | nil =>
      rw [insertFull held]
      exact ih held enabled
    | cons pNode frees =>
      obtain ⟨nodes',frees',after⟩ := ih (insertHeld pTimer held enabled).2 (insertStatus.symm ▸ enabled)
      refine ⟨nodes',frees',?_⟩
      rwa [append_assoc] at after

theorem insertAllStatus (more) : (insertAll q more).status = q.status := by
  induction more generalizing q with
  | nil => rfl
  | cons pTimer more ih => exact ih.trans insertStatus

end Operations

def walk (next : Node → Option Node) : Nat → Option Node → List Node
  | 0,_ => []
  | _ + 1,none => []
  | fuel + 1,some pNode => pNode :: walk next fuel (next pNode)

def queuedTimers (q : TimerQ τ) : List (Option τ) := (walk q.pNext timerQueueSizeMax q.pQHead).map q.pRaTimer

theorem walkChain {next p l fuel} (chain : Chain next p l) (enough : l.length ≤ fuel) : walk next fuel p = l := by
  induction l generalizing p fuel with
  | nil =>
    rw [show p = none from chain]
    cases fuel <;> rfl
  | cons n l ih =>
    obtain ⟨fuel,rfl⟩ := Nat.exists_eq_succ_of_ne_zero (Nat.ne_zero_of_lt enough)
    rw [chain.1,walk,ih chain.2 (Nat.le_of_succ_le_succ enough)]

theorem Held.queued {q nodes frees} {timers : List τ} (held : Held q nodes frees timers) :
    queuedTimers q = timers.map some := by
  rw [queuedTimers,walkChain held.queue held.short,held.timers]

def RemovesAll [DecidableEq τ] (q : TimerQ τ) (pTimer : τ) : Prop :=
  ∃ q' pNode, rtmpTimerQRemove q pTimer = some (q',pNode) ∧ some pTimer ∉ queuedTimers q' ∧
    (queuedTimers q').filter (fun t => decide (t ≠ some pTimer)) =
      (queuedTimers q).filter fun t => decide (t ≠ some pTimer)

theorem removesAllHeld [DecidableEq τ] {q : TimerQ τ} {nodes frees timers}
    (held : Held q nodes frees timers) (ready : 1 ≤ q.status.value) (pTimer) :
    RemovesAll q pTimer ↔ timers.count pTimer ≤ 1 := by
  have member : ∀ ts : List τ, some pTimer ∈ ts.map some ↔ pTimer ∈ ts := by simp
  unfold RemovesAll
  rcases removeHeld pTimer held ready with ⟨absent,result⟩ |
    ⟨q',earlier,later,before,pNode,after,rfl,fresh,_,_,result,rest⟩
  · refine iff_of_true ⟨q,none,result,?_,rfl⟩ ?_
    · rwa [held.queued,member]
    · rw [count_eq_zero_of_not_mem absent]
      exact Nat.zero_le 1
  · have count : (earlier ++ pTimer :: later).count pTimer ≤ 1 ↔ pTimer ∉ later := by
      rw [count_append,count_cons_self,count_eq_zero_of_not_mem fresh,← count_eq_zero]
      omega
    rw [count]
    constructor
    · rintro ⟨q'',node,equal,gone,_⟩
      obtain ⟨rfl,rfl⟩ := Prod.mk.inj (Option.some.inj (result.symm.trans equal))
      rw [rest.queued,member,mem_append,not_or] at gone
      exact gone.2
    · intro once
      refine ⟨_,_,result,?_,?_⟩
      · rw [rest.queued,member,mem_append,not_or]
        exact ⟨fresh,once⟩
      · simp [rest.queued,held.queued]

theorem timerRemovesAll [DecidableEq τ] (inserted : List τ) (pTimer : τ) :
    RemovesAll (insertAll rtmpTimerQInit inserted) pTimer ↔
      (inserted.take timerQueueSizeMax).count pTimer ≤ 1 := by
  obtain ⟨nodes,frees,held⟩ := insertAllHeld initHeld initEnabled inserted
  rw [length_reverse,length_finRange,nil_append] at held
  refine removesAllHeld held ?_ pTimer
  rw [insertAllStatus]
  exact Nat.le_refl 1

theorem timerRemovesOne : ¬ RemovesAll (insertAll rtmpTimerQInit [7,8,7]) 7 := by
  have left : (rtmpTimerQRemove (insertAll rtmpTimerQInit [7,8,7]) 7).map (fun r => queuedTimers r.1) =
      some [some 8,some 7] := by decide +kernel
  rintro ⟨q',pNode,result,gone,_⟩
  rw [result,Option.map_some,Option.some.injEq] at left
  exact gone (by simp [left])

end RtmpDriver.TimerQueue
