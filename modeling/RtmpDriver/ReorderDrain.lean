import RtmpDriver.ReorderEngine

/-! The three drain loops in closed form, for a list whose counter is exact. Each hands a first part `out` of the list
up, frees its blocks and keeps the rest; they differ only in where they cut the list. -/
namespace RtmpDriver.ReorderDrain
open ReorderList ReorderEngine List

def upOf (m : Mpdu) : Event := .up m.packet m.sequence m.bAmsdu

def handUp (c : Ctx) (out keep : List Mpdu) : Ctx where
  entry := {c.entry with list := ⟨keep,keep.length⟩}
  freelist := ⟨out.reverse ++ c.freelist.next,out.length + c.freelist.qlen⟩
  log := c.log ++ out.map upOf

@[simp] theorem handUpList (c out keep) : (handUp c out keep).entry.list = ⟨keep,keep.length⟩ := rfl

@[simp] theorem handUpWin (c out keep) : (handUp c out keep).entry.baWinSize = c.entry.baWinSize := rfl

theorem handUpCounted (c out keep) : (handUp c out keep).entry.list.Counted := rfl

theorem handUpNone {c} (counted : c.entry.list.Counted) : handUp c [] c.entry.list.next = c := by
  obtain ⟨entry,freelist,log⟩ := c
  obtain ⟨wcid,tid,win,last,out,timer,drops,rcv,status,next,qlen⟩ := entry
  have same : qlen = next.length := counted
  subst same
  simp [handUp]

theorem handUpTwice (c out rest out' keep) :
    handUp (handUp c out rest) out' keep = handUp c (out ++ out') keep := by
  simp only [handUp,map_append,reverse_append,append_assoc,length_append]
  congr 2
  omega

theorem handUpMore (c m out rest keep) :
    handUp (handUp c [m] rest) out keep = handUp c (m :: out) keep := handUpTwice c [m] rest out keep

theorem announceHeadSome {c m rest} (counted : c.entry.list.Counted)
    (found : c.entry.list.next = m :: rest) : announceHead c = (some m,handUp c [m] rest) := by
  simp only [announceHead,dequeueSome counted found]
  refine Prod.ext rfl ?_
  simp only [baMpduBlkFree,announceReorderingPacket,Ctx.emit,Ctx.setList,baEnqueue,handUp,upOf,
    map_cons,map_nil,reverse_cons,reverse_nil,nil_append,
    singleton_append,length_cons,length_nil]
  congr 2
  omega

theorem announceHeadNone {c} (counted : c.entry.list.Counted)
    (empty : c.entry.list.next = []) : announceHead c = (none,c) := by
  simp only [announceHead,dequeueNone counted empty,Ctx.setList]

def leTest (sequence : Nat) (m : Mpdu) : Bool :=
  decide (m.sequence = sequence ∨ seqSmaller m.sequence sequence maxSeq)

theorem leSeqLoopEq (sequence) {c} (counted : c.entry.list.Counted) (fuel)
    (enough : c.entry.list.next.length ≤ fuel) : leSeqLoop sequence fuel c =
      handUp c (c.entry.list.next.takeWhile (leTest sequence)) (c.entry.list.next.dropWhile (leTest sequence)) := by
  have same := handUpNone counted
  induction fuel generalizing c with
  | zero =>
    have empty : c.entry.list.next = [] := length_eq_zero_iff.mp (Nat.le_zero.mp enough)
    rw [empty] at same
    simp only [leSeqLoop,empty,takeWhile_nil,dropWhile_nil,same]
  | succ fuel ih =>
    cases found : c.entry.list.next with
    | nil =>
      rw [found] at same
      simp [leSeqLoop,baReorderingMpduProbe,found,same]
    | cons m rest =>
      by_cases test : leTest sequence m
      · have head : m.sequence = sequence ∨ seqSmaller m.sequence sequence maxSeq = true :=
          of_decide_eq_true test
        have next := ih (handUpCounted c [m] rest) (by simpa [found] using enough)
          (handUpNone (handUpCounted c [m] rest))
        simp only [leSeqLoop,baReorderingMpduProbe,found,head?_cons,if_pos head,
          announceHeadSome counted found,next,handUpList,handUpMore,takeWhile_cons_of_pos test,
          dropWhile_cons_of_pos test]
      · have head : ¬(m.sequence = sequence ∨ seqSmaller m.sequence sequence maxSeq = true) :=
          fun h => test (decide_eq_true h)
        rw [found] at same
        simp only [leSeqLoop,baReorderingMpduProbe,found,head?_cons,if_neg head,
          takeWhile_cons_of_neg test,dropWhile_cons_of_neg test,same]

theorem leSeqEq {c} (counted : c.entry.list.Counted) (sequence) : baIndicateReorderingMpdusLeSeq c sequence =
      handUp c (c.entry.list.next.takeWhile (leTest sequence)) (c.entry.list.next.dropWhile (leTest sequence)) :=
  leSeqLoopEq sequence counted _ (Nat.le_refl _)

def runSplit : Nat → List Mpdu → List Mpdu × List Mpdu
  | _,[] => ([],[])
  | startSeq,m :: rest =>
    if seqStepOne m.sequence startSeq maxSeq then
      (m :: (runSplit m.sequence rest).1,(runSplit m.sequence rest).2)
    else ([],m :: rest)

theorem runSplitAppend (startSeq next) : (runSplit startSeq next).1 ++ (runSplit startSeq next).2 = next := by
  induction next generalizing startSeq with
  | nil => rfl
  | cons m rest ih =>
    simp only [runSplit]
    split
    · simp [ih]
    · rfl

def lastOf (otherwise : Nat) (out : List Mpdu) : Nat := (out.getLast?.map Mpdu.sequence).getD otherwise

theorem lastOfCons (otherwise m out) : lastOf otherwise (m :: out) = lastOf m.sequence out := by
  cases out with
  | nil => rfl
  | cons x rest => simp [lastOf,getLast?_cons]

theorem inOrderLoopEq {c} (counted : c.entry.list.Counted) (fuel startSeq lastIndSeq)
    (enough : c.entry.list.next.length ≤ fuel) : inOrderLoop fuel c startSeq lastIndSeq =
      (handUp c (runSplit startSeq c.entry.list.next).1 (runSplit startSeq c.entry.list.next).2,
        lastOf lastIndSeq (runSplit startSeq c.entry.list.next).1) := by
  have same := handUpNone counted
  induction fuel generalizing c startSeq lastIndSeq with
  | zero =>
    have empty : c.entry.list.next = [] := length_eq_zero_iff.mp (Nat.le_zero.mp enough)
    rw [empty] at same
    simp only [inOrderLoop,empty,runSplit,same]
    rfl
  | succ fuel ih =>
    cases found : c.entry.list.next with
    | nil =>
      rw [found] at same
      simp only [inOrderLoop,baReorderingMpduProbe,found,head?_nil,runSplit,same]
      rfl
    | cons m rest =>
      by_cases test : seqStepOne m.sequence startSeq maxSeq
      · have next := ih (handUpCounted c [m] rest) m.sequence m.sequence (by simpa [found] using enough)
          (handUpNone (handUpCounted c [m] rest))
        simp only [inOrderLoop,baReorderingMpduProbe,found,head?_cons,if_pos test,
          announceHeadSome counted found,next,handUpList,handUpMore,runSplit,lastOfCons]
      · rw [found] at same
        simp only [inOrderLoop,baReorderingMpduProbe,found,head?_cons,if_neg test,runSplit,same]
        rfl

theorem inOrderEq {c} (counted : c.entry.list.Counted) (startSeq) : baIndicateReorderingMpdusInOrder c startSeq =
      (handUp c (runSplit startSeq c.entry.list.next).1 (runSplit startSeq c.entry.list.next).2,
        lastOf resetRcvSeq (runSplit startSeq c.entry.list.next).1) :=
  inOrderLoopEq counted _ startSeq resetRcvSeq (Nat.le_refl _)

theorem refreshLoopEq {c} (counted : c.entry.list.Counted) (fuel) (enough : c.entry.list.next.length ≤ fuel) :
    ∃ seq, refreshLoop fuel c = (handUp c c.entry.list.next []).setLast seq := by
  induction fuel generalizing c with
  | zero =>
    have empty : c.entry.list.next = [] := length_eq_zero_iff.mp (Nat.le_zero.mp enough)
    have same := handUpNone counted
    rw [empty] at same
    exact ⟨c.entry.lastIndSeq,by simp only [refreshLoop,empty,same]; rfl⟩
  | succ fuel ih =>
    cases found : c.entry.list.next with
    | nil =>
      have same := handUpNone counted
      rw [found] at same
      exact ⟨c.entry.lastIndSeq,by simp only [refreshLoop,announceHeadNone counted found,same]; rfl⟩
    | cons m rest =>
      obtain ⟨seq,next⟩ := ih (c := (handUp c [m] rest).setLast m.sequence)
        (handUpCounted c [m] rest) (by simpa [found,Ctx.setLast] using enough)
      refine ⟨seq,?_⟩
      have list : ((handUp c [m] rest).setLast m.sequence).entry.list.next = rest := rfl
      simp only [refreshLoop,announceHeadSome counted found,next,list,← handUpMore c m rest rest []]
      rfl

theorem refreshEq {c} (counted : c.entry.list.Counted) : baRefreshReorderingMpdus c =
      (handUp (c.emit .refreshed) c.entry.list.next []).setLast resetRcvSeq := by
  obtain ⟨seq,loop⟩ := refreshLoopEq (c := c.emit .refreshed) counted _ (Nat.le_refl _)
  have start : (c.emit .refreshed).entry.list.next = c.entry.list.next := rfl
  simp only [start] at loop
  simp only [baRefreshReorderingMpdus,loop]
  rfl

end RtmpDriver.ReorderDrain
