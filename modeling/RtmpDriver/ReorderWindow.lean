import RtmpDriver.ReorderHeld
import RtmpDriver.ReorderParts
import RtmpDriver.StepMachine

/-! The reordering window of one recipient session. `Window gap last c` says that LastIndSeq stands for the number
`last` and that the buffered numbers lie between `last + gap` and `last + BAWinSize`. The gap is 2 between operations
and 1 before the list is drained. -/
namespace RtmpDriver.ReorderWindow
open SerialNumber StepMachine ReorderList ReorderEngine ReorderParts ReorderDrain ReorderHeld List

structure Window (gap last : Int) (c : Ctx) : Prop where
  lastIs : c.entry.lastIndSeq = seqOf last
  counted : c.entry.list.Counted
  held : Held last (last + gap) (last + c.entry.baWinSize) c.entry.list.next

def Reset (c : Ctx) : Prop := c.entry.lastIndSeq = resetRcvSeq ∧ c.entry.list = .empty

theorem Window.mono {gap gap' last c} (h : Window gap last c) (le : gap' ≤ gap) : Window gap' last c :=
  ⟨h.lastIs,h.counted,h.held.mono (by omega) (le_refl _)⟩

theorem Window.room {gap last c} (h : Window gap last c) (positive : 1 ≤ gap) :
    c.entry.list.qlen ≤ c.entry.baWinSize := by
  have length := h.held.length
  have counted : c.entry.list.qlen = c.entry.list.next.length := h.counted
  omega

structure Extends (c c' : Ctx) : Prop where
  counted : c'.entry.list.Counted
  grows : c.log <+: c'.log

theorem extendsParts : Parts fun c c' => c.entry.list.Counted → Extends c c' where
  refl _ counted := ⟨counted,prefix_refl _⟩
  trans h h' counted := ⟨(h' (h counted).counted).counted,(h counted).grows.trans (h' (h counted).counted).grows⟩
  emit _ _ counted := ⟨counted,prefix_append _ _⟩
  last _ _ counted := ⟨counted,prefix_refl _⟩
  timer _ _ counted := ⟨counted,prefix_refl _⟩
  counts _ _ _ counted := ⟨counted,prefix_refl _⟩
  head c counted := by
    cases found : c.entry.list.next with
    | nil =>
      rw [announceHeadNone counted found]
      exact ⟨counted,prefix_refl _⟩
    | cons m rest =>
      rw [announceHeadSome counted found]
      exact ⟨handUpCounted c [m] rest,prefix_append _ _⟩

theorem allocCases (c) : (∃ addr free, baMpduBlkAlloc c = (some (zeroed addr),{c with freelist := free})) ∨
    ∃ free, baMpduBlkAlloc c = (none,Ctx.emit {c with freelist := free} .allocFailed) := by
  unfold baMpduBlkAlloc
  split
  · exact Or.inl ⟨_,_,rfl⟩
  · exact Or.inr ⟨_,rfl⟩

theorem allocFailedLogged (p) {c} (counted : c.entry.list.Counted) {free}
    (failed : baMpduBlkAlloc c = (none,Ctx.emit {c with freelist := free} .allocFailed))
    (rx now) : Event.allocFailed ∈ (baEnqueueReorderingPacket p c rx now).log := by
  have pass := extendsParts.fallback p (Ctx.emit {c with freelist := free} .allocFailed) rx now counted
  simp only [baEnqueueReorderingPacket,failed]
  exact pass.grows.subset (by simp [Ctx.emit])

theorem extendsQueued (p c rx now) (counted : c.entry.list.Counted) :
    Extends c (baEnqueueReorderingPacket p c rx now) := by
  have fallback (b : Ctx) (start : Extends c b) :=
    extendsParts.trans (fun _ => start) (extendsParts.fallback p b rx now)
  unfold baEnqueueReorderingPacket
  rcases allocCases c with ⟨addr,free,found⟩ | ⟨free,failed⟩
  · rw [found]
    cases rx.eap with
    | true => exact fallback _ ⟨counted,prefix_refl _⟩ counted
    | false =>
      refine extendsParts.trans (fun _ => ?_) (extendsParts.asserted _ _) counted
      cases scan : baReorderingMpduInsertsorted c.entry.list (fillMpdu (zeroed addr) rx) with
      | some l =>
        exact ⟨insertedCounted counted scan,prefix_refl _⟩
      | none =>
        exact ⟨counted,prefix_append _ _⟩
  · rw [failed]
    exact fallback _ ⟨counted,prefix_append _ _⟩ counted

structure Cut (last w : Int) (next out keep : List Mpdu) : Prop where
  parts : next = out ++ keep
  upTo : ∀ m ∈ out, key last m ≤ w
  past : ∀ m ∈ keep, w < key last m

theorem leSeqShift {c v lo hi w} (counted : c.entry.list.Counted)
    (held : Held v lo hi c.entry.list.next) (below : w - lo < 2048) (above : hi - w < 2048) :
    ∃ out keep, Cut v w c.entry.list.next out keep ∧ Held v (w + 1) hi keep ∧
      baIndicateReorderingMpdusLeSeq c (seqOf w) = handUp c out keep := by
  have kept := held.dropLe below above
  exact ⟨_,_,⟨(takeWhile_append_dropWhile).symm,held.takeLe below above,kept.low⟩,kept,leSeqEq counted _⟩

theorem drainShift {c v hi} (lastIs : c.entry.lastIndSeq = seqOf v)
    (counted : c.entry.list.Counted) (held : Held v (v + 1) hi c.entry.list.next) (near : hi ≤ v + 4096) :
    ∃ out keep v', v ≤ v' ∧ v' ≤ max v hi ∧ Cut v v' c.entry.list.next out keep ∧
      Held v' (v' + 2) hi keep ∧ drainInOrder c c.entry.lastIndSeq = (handUp c out keep).setLast (seqOf v') := by
  obtain ⟨keys,keep,ret⟩ := held.run (by omega) near resetRcvSeq
  have sub : (runSplit (seqOf v) c.entry.list.next).1.Sublist c.entry.list.next := by
    conv => rhs; rw [← runSplitAppend (seqOf v) c.entry.list.next]
    exact sublist_append_left _ _
  have count := (held.sublist sub).length
  refine ⟨_,_,v + (runSplit (seqOf v) c.entry.list.next).1.length,by omega,by omega,
    ⟨(runSplitAppend _ _).symm,fun m mem => (keys m mem).2,fun m mem => ?_⟩,
    keep.rebase (by omega) (by omega),?_⟩
  · have := keep.low m mem
    omega
  simp only [drainInOrder,inOrderEq counted,lastIs]
  rcases ret with none | some
  · rw [none]
    simp only [length_nil]
    rw [if_pos (by rfl)]
    simp only [Ctx.setLast,handUp,lastIs]
    simp
  · rw [some,if_neg (seqOfNotReset _)]

def shift (c : Ctx) (out keep : List Mpdu) (w : Int) (now : Time) : Ctx :=
  ((handUp c out keep).setLast (seqOf w)).setTimer now

theorem Cut.trans {v w w' next out rest out' keep} (h : Cut v w next out rest)
    (h' : Cut w w' rest out' keep) (up : v ≤ w) (le : w ≤ w') : Cut v w' next (out ++ out') keep := by
  have same : ∀ m ∈ rest, key w m = key v m := fun m mem => keyShift up (h.past m mem).le
  rw [h'.parts] at same
  refine ⟨by rw [h.parts,h'.parts,append_assoc],?_,?_⟩
  · intro m mem
    rcases mem_append.mp mem with first | second
    · exact (h.upTo m first).trans le
    · rw [← same m (mem_append_left _ second)]
      exact h'.upTo m second
  · intro m mem
    rw [← same m (mem_append_right _ mem)]
    exact h'.past m mem

theorem flushStep {c v} (now) (h : Window 1 v c) (win : c.entry.baWinSize ≤ 255) :
    ∃ out keep w, v < w ∧ w ≤ v + 256 ∧ Cut v w c.entry.list.next out keep ∧
      Held w (w + 2) (v + c.entry.baWinSize) keep ∧
      drainInOrder (((baIndicateReorderingMpdusLeSeq c (seqOf (v + 1))).setTimer now).setLast (seqOf (v + 1)))
        (seqOf (v + 1)) = shift c out keep w now := by
  obtain ⟨out,rest,cut,held,first⟩ := leSeqShift (w := v + 1) h.counted h.held (by omega) (by omega)
  rw [first]
  have loose : Held (v + 1) (v + 1 + 1) (v + c.entry.baWinSize) rest :=
    held.rebase (by omega) (by omega)
  obtain ⟨out',keep,w,le,reach,cut',held',second⟩ :=
    drainShift (c := ((handUp c out rest).setTimer now).setLast (seqOf (v + 1))) rfl
      (handUpCounted c out rest) loose (by omega)
  refine ⟨out ++ out',keep,w,by omega,by omega,cut.trans cut' (by omega) le,held',?_⟩
  rwa [shift,← handUpTwice c out rest]

theorem flushCases (p) {c v} (now) (h : Window 1 v c) (win : c.entry.baWinSize ≤ 255) :
    baFlushReorderingTimeoutMpdus p c now = c ∨
    baFlushReorderingTimeoutMpdus p c now = (baRefreshReorderingMpdus c).setTimer now ∨
    ∃ out keep w, v < w ∧ w ≤ v + 256 ∧ Cut v w c.entry.list.next out keep ∧
      Held w (w + 2) (v + c.entry.baWinSize) keep ∧
      baFlushReorderingTimeoutMpdus p c now = shift c out keep w now := by
  unfold baFlushReorderingTimeoutMpdus
  split
  · exact Or.inl rfl
  · split
    · exact Or.inr (Or.inl rfl)
    · split
      · rw [h.lastIs,seqOfSucc]
        exact Or.inr (Or.inr (flushStep now h win))
      · exact Or.inl rfl

theorem liftSequence (last) (rx : RxBlk) : lift 4096 last rx.sequence % 4096 = rx.sequence := by
  have := rx.sequence.isLt
  rw [liftResidue]
  omega

theorem seqOfLift (last) (rx : RxBlk) : seqOf (lift 4096 last rx.sequence) = rx.sequence := by
  rw [seqOf,liftSequence]
  exact Int.toNat_natCast _

theorem Window.advanced {last c} (window : Window 2 last c) (rx : RxBlk)
    (next : lift 4096 last rx.sequence = last + 1) : Window 1 (last + 1) (c.setLast rx.sequence) := by
  have here : (rx.sequence : Nat) = seqOf (last + 1) := by rw [← next,seqOfLift]
  exact ⟨here,window.counted,(window.held.rebase (by omega) (by omega)).mono (by omega)
    (by simp only [Ctx.setLast]; omega)⟩

theorem winStartIs (last) (rx : RxBlk) {baWinSize} (win : baWinSize ≤ 255) :
    winStartSeq rx.sequence baWinSize = seqOf (lift 4096 last rx.sequence - baWinSize) := by
  have residue := liftSequence last rx
  simp only [winStartSeq,cAndMask,seqOf]
  have limit : (maxSeq : Int) = 4095 := rfl
  split <;> omega

theorem enqueueCases (p : Platform) {c v lo hi} (rx : RxBlk) (now)
    (counted : c.entry.list.Counted) (held : Held v lo hi c.entry.list.next)
    (low : lo ≤ lift 4096 v rx.sequence) (high : lift 4096 v rx.sequence ≤ hi)
    (near : hi - lo < 2048) (room : hi + 1 - lo ≤ c.entry.baWinSize) (eap : rx.eap = false)
    (alloc : Event.allocFailed ∉ (baEnqueueReorderingPacket p c rx now).log) :
    ∃ addr free next', let m := fillMpdu (zeroed addr) rx
      Held v lo hi next' ∧
      ((insertScan m c.entry.list.next = some next' ∧ baEnqueueReorderingPacket p c rx now =
          {c with entry.list := ⟨next',next'.length⟩, freelist := free}) ∨
        (insertScan m c.entry.list.next = none ∧ next' = c.entry.list.next ∧
          baEnqueueReorderingPacket p c rx now =
            Ctx.emit {c with entry.list := ⟨next',next'.length⟩, freelist := free} (.freed rx.packet))) := by
  rcases allocCases c with ⟨addr,free,found⟩ | ⟨free,failed⟩
  · have length : ∀ next', Held v lo hi next' → next'.length ≤ c.entry.baWinSize := by
      intro next' h
      have := h.length
      omega
    have seq : (fillMpdu (zeroed addr) rx).sequence < 4096 := rx.sequence.isLt
    cases scan : insertScan (fillMpdu (zeroed addr) rx) c.entry.list.next with
    | some next' =>
      have shape := held.insert seq low high near scan
      refine ⟨addr,free,next',shape,Or.inl ⟨scan,?_⟩⟩
      have qlen : c.entry.list.qlen + 1 = next'.length := by
        have := (insertScanPerm scan).length_eq
        have : c.entry.list.qlen = c.entry.list.next.length := counted
        simp only [length_cons] at *
        omega
      simp only [baEnqueueReorderingPacket,found,eap,baReorderingMpduInsertsorted,scan,Option.map_some,
        Ctx.setList,qlen,Ctx.assert,decide_eq_true (length next' shape),if_true]
    | none =>
      have same : c.entry.list = ⟨c.entry.list.next,c.entry.list.next.length⟩ := by
        rw [← show c.entry.list.qlen = c.entry.list.next.length from counted]
      refine ⟨addr,baEnqueue free (fillMpdu (zeroed addr) rx),c.entry.list.next,held,Or.inr ⟨scan,rfl,?_⟩⟩
      have qlen : c.entry.list.qlen ≤ c.entry.baWinSize := by
        rw [show c.entry.list.qlen = c.entry.list.next.length from counted]
        exact length _ held
      simp only [baEnqueueReorderingPacket,found,eap,baReorderingMpduInsertsorted,scan,Option.map_none,
        Ctx.assert,Ctx.emit,baMpduBlkFree,decide_eq_true qlen,if_true,← same]
  · exact absurd (allocFailedLogged p counted failed rx now) alloc

theorem classifyCases (p) {c last} (rx now now')
    (lastIs : c.entry.lastIndSeq = seqOf last) (win : c.entry.baWinSize ≤ 255) :
    let u := lift 4096 last rx.sequence
    (u = last + 1 ∧ classify p c rx now now' = inOrderArrival p c rx now now') ∨
    ((u = last ∨ last + 2048 ≤ u) ∧ classify p c rx now now' = dropPacket c rx) ∨
    (last + 2 ≤ u ∧ u ≤ last + c.entry.baWinSize ∧
      classify p c rx now now' = baEnqueueReorderingPacket p c rx now') ∨
    (last + 2 ≤ u ∧ last + c.entry.baWinSize < u ∧ u < last + 2048 ∧
      classify p c rx now now' = surpassingArrival p c rx now now') := by
  intro u
  have s := rx.sequence.isLt
  have residue : u % 4096 = rx.sequence := liftSequence last rx
  have lower : last ≤ u := liftLower (by decide) last rx.sequence
  have upper : u < last + 4096 := liftUpper (by decide) last rx.sequence
  have lastCast := seqOfCast last
  have stepOne : seqStepOne rx.sequence c.entry.lastIndSeq maxSeq = true ↔ u = last + 1 := by
    rw [seqStepOneIff,lastIs,lastCast]
    omega
  have equal : (rx.sequence : Nat) = c.entry.lastIndSeq ↔ u = last := by
    omega
  have behind : seqSmaller rx.sequence c.entry.lastIndSeq maxSeq = true ↔ last + 2048 ≤ u := by
    rw [seqSmallerIff,lastIs,lastCast]
    omega
  have within (ahead : u < last + 2048) :
      seqSmaller rx.sequence (cAnd (c.entry.lastIndSeq + c.entry.baWinSize + 1) maxSeq) maxSeq = true ↔
        u ≤ last + c.entry.baWinSize := by
    rw [seqSmallerIff,cAndMask,lastIs,lastCast]
    omega
  unfold classify
  by_cases one : u = last + 1
  · rw [if_pos (stepOne.mpr one)]
    exact Or.inl ⟨one,rfl⟩
  rw [if_neg (mt stepOne.mp one)]
  by_cases same : u = last
  · rw [if_pos (equal.mpr same)]
    exact Or.inr (Or.inl ⟨Or.inl same,rfl⟩)
  rw [if_neg (mt equal.mp same)]
  by_cases old : last + 2048 ≤ u
  · rw [if_pos (behind.mpr old)]
    exact Or.inr (Or.inl ⟨Or.inr old,rfl⟩)
  rw [if_neg (mt behind.mp old)]
  have ahead : u < last + 2048 := not_le.mp old
  by_cases inside : u ≤ last + c.entry.baWinSize
  · rw [if_pos ((within ahead).mpr inside)]
    exact Or.inr (Or.inr (Or.inl ⟨by omega,inside,rfl⟩))
  · rw [if_neg (mt (within ahead).mp inside)]
    exact Or.inr (Or.inr (Or.inr ⟨by omega,not_le.mp inside,ahead,rfl⟩))

theorem surpassShift (p) {c last rx} (now now')
    (window : Window 2 last c) (winLow : 1 ≤ c.entry.baWinSize) (winHigh : c.entry.baWinSize ≤ 255)
    (past : last + c.entry.baWinSize < lift 4096 last rx.sequence)
    (ahead : lift 4096 last rx.sequence < last + 2048) :
    ∃ out keep w, last < w ∧ w + c.entry.baWinSize = lift 4096 last rx.sequence ∧
      Cut last w c.entry.list.next out keep ∧ Window 1 w (shift c out keep w now) ∧
      lift 4096 w rx.sequence = w + c.entry.baWinSize ∧ surpassingArrival p c rx now now' =
        drainInOrder (baEnqueueReorderingPacket p (shift c out keep w now) rx now')
          (baEnqueueReorderingPacket p (shift c out keep w now) rx now').entry.lastIndSeq := by
  simp only [surpassingArrival,winStartIs last rx winHigh]
  generalize hw : lift 4096 last rx.sequence - c.entry.baWinSize = w
  obtain ⟨out,keep,cut,held,drained⟩ := leSeqShift (w := w) window.counted window.held (by omega) (by omega)
  refine ⟨out,keep,w,by omega,by omega,cut,⟨rfl,handUpCounted c out keep,?_⟩,?_,by rw [drained]; rfl⟩
  · exact (held.rebase (by omega) (by omega)).mono (by omega)
      (by simp only [shift,Ctx.setLast,Ctx.setTimer,handUp]; omega)
  · rw [liftShift (by decide) (show last ≤ w by omega) (by omega)]
    omega

end RtmpDriver.ReorderWindow
