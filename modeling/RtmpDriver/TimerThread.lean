import RtmpDriver.StepMachine
import RtmpDriver.TimerQueue

/-! The thread of the timer queue beside the functions that insert and remove timers. What is done under TimerQLock is
one action, and so is the thread's test of pQHead, without the lock; the handler is called in the action of the
dequeue. PM_FlgSuspend is FALSE and no handler is NULL. -/
namespace RtmpDriver.TimerThread
open StepMachine LinkedBuckets TimerQueue List

variable {τ : Type}

/- Where RtmpTimerQHandle is. `status` says that RtmpOSTaskWait has given one that is not 0. -/
inductive Thread (τ : Type) where
  | waiting
  | testing (status : Bool) (pTimer : Option τ)
  | entering (status : Bool) (pTimer : Option τ)
  | ended
  deriving DecidableEq, Repr

structure System (τ : Type) where
  q : TimerQ τ
  thread : Thread τ
  invoked : List τ
  entries : List (Nat × τ)
  serial : Node → Nat
  count : Nat

inductive Action (τ : Type) where
  | insert (pTimer : τ)
  | remove (pTimer : τ)
  | wake (ok status : Bool)
  | test (killed : Bool)
  | turn
  deriving DecidableEq, Repr

def System.inserted (s : System τ) (pTimer : τ) : TimerQ τ × Option Node → System τ
  | (q,none) => { s with q := q }
  | (q,some pQNode) =>
    { s with q := q, entries := s.entries ++ [(s.count,pTimer)], serial := Function.update s.serial pQNode s.count,
             count := s.count + 1 }

def System.removed (s : System τ) : Option (TimerQ τ × Option Node) → System τ
  | none => s
  | some (q,none) => { s with q := q }
  | some (q,some pNode) =>
    { s with q := q, entries := s.entries.filter fun e => decide (e.1 ≠ s.serial pNode) }

def wake (s : System τ) (ok status : Bool) : System τ :=
  match s.thread with
  | .waiting =>
    if ok = false then { s with thread := .ended }
    else if s.q.status = .stopped then { s with thread := .ended }
    else { s with thread := .testing status none }
  | _ => s

def test (s : System τ) (killed : Bool) : System τ :=
  match s.thread with
  | .testing status pTimer =>
    if s.q.pQHead.isSome then { s with thread := .entering status pTimer }
    else if status then { s with q := { s.q with status := .stopped }, thread := .ended }
    else if killed then { s with thread := .ended }
    else { s with thread := .waiting }
  | _ => s

-- pTimer is what it was if pEntry is NULL
def turn (s : System τ) : System τ :=
  match s.thread with
  | .entering status pTimer =>
    let (q,pEntry) := dequeue s.q
    let pTimer := match pEntry with
      | none => pTimer
      | some (_,pRaTimer) => pRaTimer
    { s with q := q, invoked := s.invoked ++ pTimer.toList, thread := .testing status pTimer }
  | _ => s

def step [DecidableEq τ] (s : System τ) : Action τ → System τ
  | .insert pTimer => s.inserted pTimer (rtmpTimerQInsert s.q pTimer)
  | .remove pTimer => s.removed (rtmpTimerQRemove s.q pTimer)
  | .wake ok status => wake s ok status
  | .test killed => test s killed
  | .turn => turn s

def start : System τ := ⟨rtmpTimerQInit,.waiting,[],[],fun _ => 0,0⟩

def Partitioned (s : System τ) : Prop :=
  ∃ nodes frees, Chain s.q.pNext s.q.pQHead nodes ∧ Chain s.q.pNext s.q.pQPollFreeList frees ∧
    (nodes ++ frees).Perm (finRange timerQueueSizeMax) ∧ s.q.pQTail = nodes.getLast?

def Exact (s : System τ) : Prop := s.invoked.map some ++ queuedTimers s.q = s.entries.map fun e => some e.2

instance [DecidableEq τ] (s : System τ) : Decidable (Exact s) := inferInstanceAs (Decidable (_ = _))

def NotStale (s : System τ) : Action τ → Prop
  | .turn => ∀ status pTimer, s.thread = .entering status pTimer → s.q.pQHead = none → pTimer = none
  | _ => True

def Linked (s : System τ) : Prop := ∃ nodes frees timers, Held s.q nodes frees timers

theorem linkedPartitioned (s : System τ) (linked : Linked s) : Partitioned s := by
  obtain ⟨nodes,frees,timers,held⟩ := linked
  exact ⟨nodes,frees,held.queue,held.free,held.all,held.last⟩

theorem wakeKeeps (s : System τ) (ok status : Bool) : ∃ thread, wake s ok status = { s with thread := thread } := by
  unfold wake
  cases s.thread with
  | waiting =>
    dsimp only
    split
    · exact ⟨_,rfl⟩
    split
    · exact ⟨_,rfl⟩
    · exact ⟨_,rfl⟩
  | _ => exact ⟨s.thread,rfl⟩

theorem testKeeps (s : System τ) (killed : Bool) :
    ∃ status thread, test s killed = { s with q := { s.q with status := status }, thread := thread } := by
  unfold test
  cases s.thread with
  | testing status pTimer =>
    dsimp only
    split
    · exact ⟨_,_,rfl⟩
    split
    · exact ⟨_,_,rfl⟩
    split
    · exact ⟨_,_,rfl⟩
    · exact ⟨_,_,rfl⟩
  | _ => exact ⟨s.q.status,s.thread,rfl⟩

theorem heldStatus {q nodes frees} {timers : List τ} (held : Held q nodes frees timers)
    (status) : Held { q with status := status } nodes frees timers :=
  ⟨held.queue,held.free,held.all,held.last,held.timers⟩

structure Accounted (s : System τ) (nodes frees : List Node) (ran rest : List (Nat × τ)) : Prop where
  held : Held s.q nodes frees (rest.map (·.2))
  entries : s.entries = ran ++ rest
  invoked : s.invoked = ran.map (·.2)
  serials : nodes.map s.serial = rest.map (·.1)
  ordered : (s.entries.map (·.1)).Pairwise (· < ·)
  bound : ∀ e ∈ s.entries, e.1 < s.count

def Inv (s : System τ) : Prop := ∃ nodes frees ran rest, Accounted s nodes frees ran rest

section Steps
variable {s : System τ} {nodes frees : List Node} {ran rest : List (Nat × τ)}

theorem accountedStart : Accounted (start : System τ) [] (finRange timerQueueSizeMax).reverse [] [] where
  held := initHeld
  entries := rfl
  invoked := rfl
  serials := rfl
  ordered := List.Pairwise.nil
  bound _ mem := absurd mem not_mem_nil

theorem accountedExact (accounted : Accounted s nodes frees ran rest) : Exact s := by
  unfold Exact
  rw [accounted.held.queued,accounted.entries,accounted.invoked,map_append,map_map,map_map]
  rfl

theorem insertInv (inv : Inv s) (pTimer) : Inv (s.inserted pTimer (rtmpTimerQInsert s.q pTimer)) := by
  obtain ⟨nodes,frees,ran,rest,accounted⟩ := inv
  rcases insertCases accounted.held pTimer with result | ⟨q',pNode,more,rfl,result,held⟩
  · rw [result]
    exact ⟨nodes,frees,ran,rest,accounted⟩
  · rw [result]
    refine ⟨nodes ++ [pNode],more,ran,rest ++ [(s.count,pTimer)],?_,?_,accounted.invoked,?_,?_,?_⟩
    · rwa [map_append]
    · simp only [System.inserted,accounted.entries,append_assoc]
    · simp only [System.inserted,map_append,map_singleton,Function.update_self]
      rw [map_congr_left (updateOutside accounted.held.fresh.1),accounted.serials]
    · simp only [System.inserted,map_append,map_singleton]
      refine pairwise_append.mpr ⟨accounted.ordered,pairwise_singleton _ _,?_⟩
      intro a old b new
      obtain ⟨e,mem,rfl⟩ := mem_map.mp old
      rw [mem_singleton.mp new]
      exact accounted.bound e mem
    · intro e mem
      rcases mem_append.mp mem with old | new
      · exact Nat.lt_succ_of_lt (accounted.bound e old)
      · rw [mem_singleton.mp new]
        exact Nat.lt_succ_self s.count

theorem filterOne {l r} {e : Nat × τ} (ordered : ((l ++ e :: r).map (·.1)).Pairwise (· < ·)) :
    (l ++ e :: r).filter (fun x => decide (x.1 ≠ e.1)) = l ++ r := by
  rw [pairwise_map,pairwise_append] at ordered
  have left : l.filter (fun x => decide (x.1 ≠ e.1)) = l := by
    refine filter_eq_self.mpr fun a mem => decide_eq_true ?_
    exact Nat.ne_of_lt (ordered.2.2 a mem e mem_cons_self)
  have right : r.filter (fun x => decide (x.1 ≠ e.1)) = r := by
    refine filter_eq_self.mpr fun b mem => decide_eq_true ?_
    exact Nat.ne_of_gt (rel_of_pairwise_cons ordered.2.1 mem)
  rw [filter_append,filter_cons,left,right,if_neg (by simp)]

theorem removeInv [DecidableEq τ] (inv : Inv s) (pTimer) : Inv (s.removed (rtmpTimerQRemove s.q pTimer)) := by
  obtain ⟨nodes,frees,ran,rest,accounted⟩ := inv
  by_cases ready : 1 ≤ s.q.status.value
  · rcases removeHeld pTimer accounted.held ready with ⟨_,result⟩ |
      ⟨q',earlier,later,before,pNode,after,timers,_,rfl,same,result,held⟩
    · rw [result]
      exact ⟨nodes,frees,ran,rest,accounted⟩
    · rw [result]
      obtain ⟨first,others,rfl,front,back⟩ := map_eq_append_iff.mp timers
      obtain ⟨e,second,rfl,_,behind⟩ := map_eq_cons_iff.mp back
      have serials := accounted.serials
      rw [map_append,map_append] at serials
      have lengths : before.length = first.length := by rw [same,← front,length_map]
      obtain ⟨left,right⟩ := append_inj serials (by rw [length_map,length_map,lengths])
      obtain ⟨here,afterwards⟩ := List.cons.inj right
      have ordered := accounted.ordered
      rw [accounted.entries,← append_assoc] at ordered
      have kept : (s.removed (some (q',some pNode))).entries = ran ++ (first ++ second) := by
        simp only [System.removed]
        rw [accounted.entries,here,← append_assoc,filterOne ordered,append_assoc]
      refine ⟨before ++ after,pNode :: frees,ran,first ++ second,?_,kept,accounted.invoked,?_,?_,?_⟩
      · rwa [map_append,front,behind]
      · rw [map_append,map_append,← left,← afterwards]
        rfl
      · exact accounted.ordered.sublist (filter_sublist.map _)
      · exact fun x mem => accounted.bound x (mem_filter.mp mem).1
  · rw [removeIdle ready]
    exact ⟨nodes,frees,ran,rest,accounted⟩

theorem turnInv (inv : Inv s) (notStale : NotStale s .turn) : Inv (turn s) := by
  obtain ⟨nodes,frees,ran,rest,accounted⟩ := inv
  unfold turn
  cases at_ : s.thread with
  | entering status pTimer =>
    dsimp only
    cases nodes with
    | nil =>
      have empty : s.q.pQHead = none := accounted.held.queue
      rw [dequeueEmpty accounted.held,notStale status pTimer at_ empty]
      refine ⟨[],frees,ran,rest,accounted.held,accounted.entries,?_,accounted.serials,accounted.ordered,accounted.bound⟩
      rw [accounted.invoked]
      exact append_nil _
    | cons pNode nodes =>
      obtain ⟨first,others,timers,entry,held⟩ := dequeueHeld accounted.held
      obtain ⟨e,later,rfl,rfl,behind⟩ := map_eq_cons_iff.mp timers
      have result : dequeue s.q = ((dequeue s.q).1,some (pNode,some e.2)) := Prod.ext rfl entry
      rw [result]
      refine ⟨nodes,pNode :: frees,ran ++ [e],later,behind ▸ held,?_,?_,(List.cons.inj accounted.serials).2,
        accounted.ordered,accounted.bound⟩
      · rw [append_assoc]
        exact accounted.entries
      · rw [map_append,← accounted.invoked]
        rfl
  | _ => exact ⟨nodes,frees,ran,rest,accounted⟩

theorem stepInv [DecidableEq τ] (inv : Inv s) (a : Action τ) (notStale : NotStale s a) : Inv (step s a) := by
  cases a with
  | insert pTimer => exact insertInv inv pTimer
  | remove pTimer => exact removeInv inv pTimer
  | turn => exact turnInv inv notStale
  | wake ok status =>
    obtain ⟨nodes,frees,ran,rest,accounted⟩ := inv
    obtain ⟨thread,result⟩ := wakeKeeps s ok status
    rw [step,result]
    exact ⟨nodes,frees,ran,rest,accounted.held,accounted.entries,accounted.invoked,accounted.serials,accounted.ordered,
      accounted.bound⟩
  | test killed =>
    obtain ⟨nodes,frees,ran,rest,accounted⟩ := inv
    obtain ⟨status,thread,result⟩ := testKeeps s killed
    rw [step,result]
    exact ⟨nodes,frees,ran,rest,heldStatus accounted.held status,accounted.entries,accounted.invoked,accounted.serials,
      accounted.ordered,accounted.bound⟩

theorem stepLinked [DecidableEq τ] (linked : Linked s) (a : Action τ) : Linked (step s a) := by
  obtain ⟨nodes,frees,timers,held⟩ := linked
  cases a with
  | insert pTimer =>
    rw [step]
    rcases insertCases held pTimer with result | ⟨q',pNode,more,_,result,after⟩
    · rw [result]
      exact ⟨nodes,frees,timers,held⟩
    · rw [result]
      exact ⟨_,_,_,after⟩
  | remove pTimer =>
    rw [step]
    by_cases ready : 1 ≤ s.q.status.value
    · rcases removeHeld pTimer held ready with ⟨_,result⟩ | ⟨q',_,_,_,_,_,_,_,_,_,result,after⟩
      · rw [result]
        exact ⟨nodes,frees,timers,held⟩
      · rw [result]
        exact ⟨_,_,_,after⟩
    · rw [removeIdle ready]
      exact ⟨nodes,frees,timers,held⟩
  | wake ok status =>
    obtain ⟨thread,result⟩ := wakeKeeps s ok status
    rw [step,result]
    exact ⟨nodes,frees,timers,held⟩
  | test killed =>
    obtain ⟨status,thread,result⟩ := testKeeps s killed
    rw [step,result]
    exact ⟨nodes,frees,timers,heldStatus held status⟩
  | turn =>
    rw [step,turn]
    cases s.thread with
    | entering status pTimer =>
      dsimp only
      cases nodes with
      | nil =>
        rw [dequeueEmpty held]
        exact ⟨[],frees,timers,held⟩
      | cons pNode nodes =>
        obtain ⟨_,others,_,_,after⟩ := dequeueHeld held
        exact ⟨nodes,pNode :: frees,others,after⟩
    | _ => exact ⟨nodes,frees,timers,held⟩

theorem exactNotStale [DecidableEq τ] (inv : Inv s) (a) (exact : Exact (step s a)) : NotStale s a := by
  cases a with
  | turn =>
    intro status pTimer at_ empty
    obtain ⟨nodes,frees,ran,rest,accounted⟩ := inv
    have none : nodes = [] := (chainNone accounted.held.queue).mp empty
    subst none
    cases pTimer with
    | none => rfl
    | some pTimer =>
      have before := congrArg List.length (accountedExact accounted)
      have after := congrArg List.length exact
      simp only [step,turn,at_,dequeueEmpty accounted.held] at after
      simp at before after
      omega
  | _ => trivial

end Steps

theorem timerThreadExact [DecidableEq τ] (actions : List (Action τ)) :
    Always step Partitioned (start : System τ) actions ∧
      (Always step Exact (start : System τ) actions ↔ Meets step NotStale (start : System τ) actions) := by
  have begin : Inv (start : System τ) := ⟨_,_,_,_,accountedStart⟩
  have any : Meets step (fun _ _ => True) (start : System τ) actions := meetsTrue
  constructor
  · refine alwaysMono linkedPartitioned ?_
    exact invariant (fun s a linked _ => stepLinked linked a) ⟨_,_,_,accountedStart.held⟩ any
  · refine alwaysIffMeets ?_ ?_ ?_ begin any
    · rintro s ⟨_,_,_,_,accounted⟩
      exact accountedExact accounted
    · exact fun s a inv _ notStale => stepInv inv a notStale
    · exact fun s a inv _ exact => exactNotStale inv a exact

def emptied : List (Action Nat) := [.insert 1,.insert 2,.wake true false,.test false,.turn,.test false,.remove 2,.turn]

theorem timerThreadTwice :
    (run step (start : System Nat) emptied).invoked = [1,1] ∧
      (run step (start : System Nat) emptied).entries = [(0,1)] ∧
      ¬ Always step Exact (start : System Nat) emptied :=
  ⟨by decide +kernel,by decide +kernel,fun always => absurd (alwaysLast always) (by decide +kernel)⟩

end RtmpDriver.TimerThread
