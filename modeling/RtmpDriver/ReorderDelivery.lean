import RtmpDriver.ReorderSession

/-! Order and multiplicity of what the reordering engine delivers. `Moved` says what a part of an operation does when
every frame carries an unwrapped number `num`: LastIndSeq moves from `last` to `last'`, and the frames `ups` go up. -/
namespace RtmpDriver.ReorderDelivery
open SerialNumber StepMachine ReorderList ReorderEngine ReorderDrain ReorderHeld ReorderWindow List
open ReorderSession

def upsOf (log : List Event) : List Nat :=
  log.filterMap fun
    | .up packet _ _ => some packet
    | _ => none

def freedOf (log : List Event) : List Nat :=
  log.filterMap fun
    | .freed packet => some packet
    | _ => none

def ids (c : Ctx) : List Nat := c.entry.list.next.map Mpdu.packet

theorem upsOfAppend (log rest) : upsOf (log ++ rest) = upsOf log ++ upsOf rest :=
  filterMap_append

theorem freedOfAppend (log rest) : freedOf (log ++ rest) = freedOf log ++ freedOf rest :=
  filterMap_append

theorem upsOfHandUp (out : List Mpdu) : upsOf (out.map upOf) = out.map Mpdu.packet := by
  induction out with
  | nil => rfl
  | cons m rest ih =>
    simp only [map_cons,← ih]
    rfl

theorem freedOfHandUp (out : List Mpdu) : freedOf (out.map upOf) = [] := by
  induction out with
  | nil => rfl
  | cons m rest ih =>
    simp only [map_cons,← ih]
    rfl

structure Moved (num : Nat → Int) (gap last last' : Int) (c c' : Ctx) (fresh ups drops : List Nat) :
    Prop where
  mono : last ≤ last'
  window : Window gap last' c'
  win : c'.entry.baWinSize = c.entry.baWinSize
  numbered : ∀ m ∈ c'.entry.list.next, num m.packet = key last' m
  up : upsOf c'.log = upsOf c.log ++ ups
  freed : freedOf c'.log = freedOf c.log ++ drops
  parts : (ups ++ ids c' ++ drops).Perm (ids c ++ fresh)
  sorted : ups.Pairwise fun i j => num i < num j
  range : ∀ i ∈ ups, last < num i ∧ num i ≤ last'

section
variable {num : Nat → Int} {gap gap' last last' last'' : Int} {c c' c'' : Ctx}
variable {fresh ups drops fresh' ups' drops' : List Nat}

theorem Moved.refl (window : Window gap last c) (numbered : ∀ m ∈ c.entry.list.next, num m.packet = key last m) :
    Moved num gap last last c c [] [] [] :=
  ⟨le_refl _,window,rfl,numbered,(append_nil _).symm,(append_nil _).symm,
    by simp,.nil,by simp⟩

theorem Moved.trans (h : Moved num gap last last' c c' fresh ups drops)
    (h' : Moved num gap' last' last'' c' c'' fresh' ups' drops') :
    Moved num gap' last last'' c c'' (fresh ++ fresh') (ups ++ ups') (drops ++ drops') := by
  refine ⟨h.mono.trans h'.mono,h'.window,h'.win.trans h.win,h'.numbered,?_,?_,?_,?_,?_⟩
  · rw [h'.up,h.up,append_assoc]
  · rw [h'.freed,h.freed,append_assoc]
  · rw [perm_iff_count]
    intro i
    have first := perm_iff_count.mp h.parts i
    have second := perm_iff_count.mp h'.parts i
    simp only [count_append] at *
    omega
  · refine pairwise_append.mpr ⟨h.sorted,h'.sorted,?_⟩
    intro i mem j mem'
    exact (h.range i mem).2.trans_lt (h'.range j mem').1
  · intro i mem
    have first := h.mono
    have second := h'.mono
    rcases mem_append.mp mem with inside | inside
    · have := h.range i inside
      omega
    · have := h'.range i inside
      omega

theorem Moved.setTimer (h : Moved num gap last last' c c' fresh ups drops) (now) :
    Moved num gap last last' c (c'.setTimer now) fresh ups drops :=
  ⟨h.mono,⟨h.window.1,h.window.2,h.window.3⟩,h.win,h.numbered,h.up,h.freed,h.parts,h.sorted,h.range⟩

theorem numberedCut {w out keep} (numbered : ∀ m ∈ c.entry.list.next, num m.packet = key last m)
    (cut : Cut last w c.entry.list.next out keep) :
    (∀ m ∈ out, num m.packet = key last m) ∧ ∀ m ∈ keep, num m.packet = key last m := by
  rw [cut.parts] at numbered
  exact ⟨fun m mem => numbered m (mem_append_left _ mem),
    fun m mem => numbered m (mem_append_right _ mem)⟩

theorem movedHandUp {lo hi hi' w out keep} (held : Held last lo hi c.entry.list.next) (above : last < lo)
    (numbered : ∀ m ∈ c.entry.list.next, num m.packet = key last m)
    (cut : Cut last w c.entry.list.next out keep) (kept : Held w (w + gap) hi' keep) (up : last ≤ w)
    (width : hi' ≤ w + c.entry.baWinSize) :
    Moved num gap last w c ((handUp c out keep).setLast (seqOf w)) [] (out.map Mpdu.packet) [] := by
  obtain ⟨outNum,keepNum⟩ := numberedCut numbered cut
  have outHeld : Held last lo hi out := held.sublist (by rw [cut.parts]; exact sublist_append_left _ _)
  refine ⟨up,⟨rfl,handUpCounted c out keep,kept.mono (le_refl _) width⟩,rfl,?_,?_,?_,?_,?_,?_⟩
  · intro m mem
    exact (keepNum m mem).trans (keyShift up (cut.past m mem).le).symm
  · exact (upsOfAppend _ _).trans (congrArg _ (upsOfHandUp out))
  · exact (freedOfAppend _ _).trans (congrArg _ (freedOfHandUp out))
  · simp only [ids,cut.parts,map_append,append_nil]
    exact Perm.refl _
  · rw [pairwise_map]
    refine outHeld.sorted.imp_of_mem ?_
    intro a b ha hb less
    rwa [outNum a ha,outNum b hb]
  · intro i mem
    obtain ⟨m,inside,rfl⟩ := mem_map.mp mem
    have low := outHeld.low m inside
    have high := cut.upTo m inside
    rw [outNum m inside]
    omega

theorem movedDrain (window : Window 1 last c) (win : c.entry.baWinSize ≤ 255)
    (numbered : ∀ m ∈ c.entry.list.next, num m.packet = key last m) :
    ∃ last' ups, last' ≤ last + c.entry.baWinSize ∧
      Moved num 2 last last' c (drainInOrder c c.entry.lastIndSeq) [] ups [] := by
  obtain ⟨out,keep,v,up,reach,cut,kept,eq⟩ := drainShift window.lastIs window.counted window.held (by omega)
  rw [eq]
  exact ⟨v,_,by omega,movedHandUp window.held (by omega) numbered cut kept up (by omega)⟩

theorem movedFlush (p now) (window : Window 2 last c) (win : c.entry.baWinSize ≤ 255)
    (numbered : ∀ m ∈ c.entry.list.next, num m.packet = key last m)
    (calm : Event.refreshed ∉ (baFlushReorderingTimeoutMpdus p c now).log) : ∃ last' ups, last' ≤ last + 256 ∧
      Moved num 2 last last' c (baFlushReorderingTimeoutMpdus p c now) [] ups [] := by
  rcases flushCases p now (window.mono (by decide)) win with same | refreshed | ⟨out,keep,w,up,reach,cut,kept,eq⟩
  · rw [same]
    exact ⟨last,[],by omega,.refl window numbered⟩
  · rw [refreshed,refreshEq window.counted] at calm
    exact absurd (mem_append_left _ (mem_append_right _ (mem_singleton_self _))) calm
  · rw [eq]
    exact ⟨w,_,reach,(movedHandUp window.held (by omega) numbered cut kept up.le (by omega)).setTimer now⟩

theorem legacyFlushEarly (p) {now} (early : timedOut c now (reorderingPacketTimeout p) = false) :
    legacyFlush p c now = c := by
  simp [legacyFlush,early]

def SizeGuard (rx : RxBlk) : Prop :=
  rx.amsdu = false ∧ (maxRxPktLen < rx.dataSize.toNat ∨ maxRxPktLen < (convertTo8023 rx).toNat)

instance (rx : RxBlk) : Decidable (SizeGuard rx) := by unfold SizeGuard; infer_instance

theorem movedAnnounce (p) {rx now} (window : Window 2 last c)
    (early : timedOut c now (reorderingPacketTimeout p) = false)
    (numbered : ∀ m ∈ c.entry.list.next, num m.packet = key last m) (eap : rx.eap = false)
    (next : lift 4096 last rx.sequence = last + 1) (number : num rx.packet = last + 1) :
    ∃ ups drops, (drops = [] ∨ SizeGuard rx) ∧ (drops = [] ∨ drops = [rx.packet]) ∧
      Moved num 1 last (last + 1) c (indicateLegacyOrAmsdu p (c.setLast rx.sequence) rx now)
        [rx.packet] ups drops := by
  have loose := window.advanced rx next
  have kept : ∀ m ∈ c.entry.list.next, num m.packet = key (last + 1) m := by
    intro m mem
    have low := window.held.low m mem
    exact (numbered m mem).trans (keyShift (by omega) (by omega)).symm
  have passed (amsdu : Bool) : Moved num 1 last (last + 1) c
      ((c.setLast rx.sequence).emit (.up rx.packet rx.sequence amsdu)) [rx.packet] [rx.packet] [] := by
    refine ⟨by omega,⟨loose.1,loose.2,loose.3⟩,rfl,kept,upsOfAppend _ _,freedOfAppend _ _,?_,
      pairwise_singleton _ _,?_⟩
    · rw [append_nil]
      exact perm_append_comm
    · intro i mem
      rw [mem_singleton.mp mem,number]
      omega
  have dropped : Moved num 1 last (last + 1) c ((c.setLast rx.sequence).emit (.freed rx.packet))
      [rx.packet] [] [rx.packet] :=
    ⟨by omega,⟨loose.1,loose.2,loose.3⟩,rfl,kept,upsOfAppend _ _,freedOfAppend _ _,Perm.refl _,.nil,by simp⟩
  unfold indicateLegacyOrAmsdu indicateLegacyPacket
  split
  · exact ⟨_,[],Or.inl rfl,Or.inl rfl,passed true⟩
  · rename_i single
    rw [if_neg (by simp [eap]),legacyFlushEarly p (c := c.setLast rx.sequence) early]
    split
    · rename_i size
      exact ⟨[],_,Or.inr ⟨by simpa using single,Or.inr size⟩,Or.inr rfl,dropped⟩
    · exact ⟨_,[],Or.inl rfl,Or.inl rfl,passed false⟩

theorem movedEnqueue (p) {rx now} (window : Window gap last c) (low : 1 ≤ gap)
    (win : c.entry.baWinSize ≤ 255) (numbered : ∀ m ∈ c.entry.list.next, num m.packet = key last m)
    (fromGap : last + gap ≤ lift 4096 last rx.sequence)
    (toEnd : lift 4096 last rx.sequence ≤ last + c.entry.baWinSize)
    (number : num rx.packet = lift 4096 last rx.sequence) (eap : rx.eap = false)
    (alloc : Event.allocFailed ∉ (baEnqueueReorderingPacket p c rx now).log) :
    ∃ drops, (drops = [] ∨ ∃ m ∈ c.entry.list.next, num m.packet = num rx.packet) ∧
      (drops = [] ∨ drops = [rx.packet]) ∧
      Moved num gap last last c (baEnqueueReorderingPacket p c rx now) [rx.packet] [] drops := by
  obtain ⟨addr,free,next',held,⟨scan,eq⟩ | ⟨scan,same,eq⟩⟩ := enqueueCases p rx now window.counted
    window.held fromGap toEnd (by omega) (by omega) eap alloc
  · have perm := insertScanPerm scan
    rw [eq]
    refine ⟨[],Or.inl rfl,Or.inl rfl,le_refl _,⟨window.lastIs,rfl,held⟩,rfl,?_,
      (append_nil _).symm,(append_nil _).symm,?_,.nil,by simp⟩
    · intro m mem
      rcases mem_cons.mp (perm.mem_iff.mp mem) with rfl | old
      · exact number
      · exact numbered m old
    · simp only [nil_append,append_nil]
      exact (perm.map Mpdu.packet).trans (perm_append_singleton rx.packet (ids c)).symm
  · subst same
    obtain ⟨x,mem,equal⟩ := window.held.duplicate scan
    rw [eq]
    refine ⟨[rx.packet],Or.inr ⟨x,mem,?_⟩,Or.inr rfl,le_refl _,⟨window.lastIs,rfl,held⟩,rfl,numbered,
      upsOfAppend _ _,freedOfAppend _ _,Perm.refl _,.nil,by simp⟩
    rw [numbered x mem,equal,number]
    rfl

theorem unwrapSequence {rx : RxBlk} (ahead : lift 4096 last rx.sequence < last + 2048) :
    unwrap 2048 last rx.sequence = lift 4096 last rx.sequence := by
  refine unwrapAhead ?_
  simp only [lift] at ahead
  omega

theorem unwrapOld {rx : RxBlk}
    (old : lift 4096 last rx.sequence = last ∨ last + 2048 ≤ lift 4096 last rx.sequence) :
    unwrap 2048 last rx.sequence ≤ last := by
  rcases old with same | behind
  · rw [unwrapSequence (by omega)]
    exact same.le
  · refine (unwrapBehind (by decide) ?_).le
    simp only [lift] at behind
    omega

def Excused (num : Nat → Int) (last : Int) (c : Ctx) (rx : RxBlk) : Prop :=
  num rx.packet ≤ last ∨ num rx.packet ∈ (ids c).map num ∨ SizeGuard rx

theorem movedClassify (p) {rx now now'} (window : Window 2 last c) (winLow : 1 ≤ c.entry.baWinSize)
    (win : c.entry.baWinSize ≤ 255) (early : timedOut c now' (reorderingPacketTimeout p) = false)
    (numbered : ∀ m ∈ c.entry.list.next, num m.packet = key last m)
    (number : num rx.packet = unwrap 2048 last rx.sequence) (eap : rx.eap = false)
    (alloc : Event.allocFailed ∉ (classify p c rx now now').log) :
    ∃ last' ups drops, last' ≤ last + 2048 ∧ (drops = [] ∨ drops = [rx.packet] ∧ Excused num last c rx) ∧
      Moved num 2 last last' c (classify p c rx now now') [rx.packet] ups drops := by
  rcases classifyCases p rx now now' window.lastIs win with
    ⟨one,eq⟩ | ⟨old,eq⟩ | ⟨low,high,eq⟩ | ⟨low,past,ahead,eq⟩
  · rw [unwrapSequence (by omega),one] at number
    obtain ⟨ups,drops,excuse,drop,first⟩ := movedAnnounce p window early numbered eap one number
    obtain ⟨last',ups',reach,second⟩ := movedDrain first.window (by rw [first.win]; exact win) first.numbered
    have both := (first.trans second).setTimer now
    simp only [append_nil] at both
    rw [first.win] at reach
    rw [eq]
    refine ⟨last',ups ++ ups',drops,by omega,?_,both⟩
    rcases excuse with none | size
    · exact Or.inl none
    · exact drop.imp_right fun one => ⟨one,Or.inr (Or.inr size)⟩
  · rw [eq]
    refine ⟨last,[],[rx.packet],by omega,Or.inr ⟨rfl,Or.inl ?_⟩,le_refl _,⟨window.1,window.2,window.3⟩,rfl,
      numbered,upsOfAppend _ _,freedOfAppend _ _,Perm.refl _,.nil,by simp⟩
    rw [number]
    exact unwrapOld old
  · rw [unwrapSequence (by omega)] at number
    rw [eq] at alloc ⊢
    obtain ⟨drops,excuse,drop,moved⟩ := movedEnqueue p window (by decide) win numbered low high number eap alloc
    refine ⟨last,[],drops,by omega,?_,moved⟩
    rcases excuse with none | ⟨m,mem,same⟩
    · exact Or.inl none
    · exact drop.imp_right fun one =>
        ⟨one,Or.inr (Or.inl (mem_map.mpr ⟨m.packet,mem_map_of_mem mem,same⟩))⟩
  · rw [unwrapSequence ahead] at number
    obtain ⟨out,keep,w,up,width,cut,loose,here,shape⟩ := surpassShift p now now' window winLow win past ahead
    rw [eq,shape] at alloc ⊢
    have first := (movedHandUp window.held (by omega) numbered cut loose.held up.le (le_refl _)).setTimer now
    have queued := extendsQueued p _ rx now' loose.counted
    have alloc' := fun mem => alloc ((extendsParts.drain _ _ queued.counted).grows.subset mem)
    have winShift : (shift c out keep w now).entry.baWinSize = c.entry.baWinSize := rfl
    obtain ⟨drops,excuse,drop,second⟩ := movedEnqueue p loose (le_refl _) win first.numbered
      (by rw [here]; omega) (by rw [here,winShift]) (by rw [number,here,width]) eap alloc'
    obtain ⟨last',ups,reach,third⟩ := movedDrain second.window (by rw [second.win]; exact win) second.numbered
    have all := (first.trans second).trans third
    simp only [append_nil,nil_append] at all
    rw [second.win,winShift] at reach
    refine ⟨last',_,drops,by omega,?_,all⟩
    rcases excuse with none | ⟨m,mem,same⟩
    · exact Or.inl none
    · have inside : m ∈ c.entry.list.next := by rw [cut.parts]; exact mem_append_right _ mem
      exact drop.imp_right fun one =>
        ⟨one,Or.inr (Or.inl (mem_map.mpr ⟨m.packet,mem_map_of_mem inside,same⟩))⟩

theorem movedArrived (p) {rx now} (window : Window 2 last c)
    (win : c.entry.baWinSize ≤ 255) (numbered : ∀ m ∈ c.entry.list.next, num m.packet = key last m)
    (calm : Event.refreshed ∉ (arrived p c rx now).log) :
    ∃ last' ups, last' ≤ last + 256 ∧ Moved num 2 last last' c (arrived p c rx now) [] ups [] := by
  obtain ⟨last',ups,reach,h⟩ := movedFlush p (c := {c with entry.rcvSeq := rx.sequence}) now
    ⟨window.1,window.2,window.3⟩ win numbered calm
  have timed := h.setTimer now
  exact ⟨last',ups,reach,timed.1,timed.2,timed.3,timed.4,timed.5,timed.6,timed.7,timed.8,timed.9⟩

end

/- The run, with the unwrapped numbers beside it: LastIndSeq never goes back, so its number is the least one at or above
the previous; a frame's number is the one nearest to LastIndSeq. -/
structure Arrival where
  rx : RxBlk
  number : Int
  lastAt : Int
  heldAt : List Int
  deriving DecidableEq, Repr

structure Ghost where
  ctx : Ctx
  last : Int
  arrivals : List Arrival

def Ghost.start (c : Ctx) : Ghost := ⟨{c with log := []},c.entry.lastIndSeq,[]⟩

def Ghost.number (g : Ghost) (i : Nat) : Int := ((g.arrivals[i]?).map Arrival.number).getD 0

def Ghost.tag (g : Ghost) (rx : RxBlk) : RxBlk := {rx with packet := g.arrivals.length}

def Ghost.found (p : Platform) (g : Ghost) (rx : RxBlk) (now : Time) : Ctx :=
  if oversize rx then g.ctx else arrived p g.ctx rx now

def arrive (p : Platform) (g : Ghost) (frame : RxBlk × Time × Time) : Ghost :=
  let rx := g.tag frame.1
  let found := g.found p rx frame.2.1
  let lastAt := lift 4096 g.last found.entry.lastIndSeq
  let ctx := indicateAmpdu p g.ctx rx frame.2.1 frame.2.2
  ⟨ctx,lift 4096 g.last ctx.entry.lastIndSeq,
    g.arrivals ++ [⟨rx,unwrap 2048 lastAt rx.sequence,lastAt,(ids found).map g.number⟩]⟩

def Regular (p : Platform) (g : Ghost) (frame : RxBlk × Time × Time) : Prop :=
  frame.1.eap = false ∧ timeAfter frame.2.2 (frame.2.1 + BitVec.ofNat 64 (reorderingPacketTimeout p)) = false ∧
    Event.refreshed ∉ (arrive p g frame).ctx.log ∧ Event.allocFailed ∉ (arrive p g frame).ctx.log

instance (p : Platform) (g : Ghost) (frame : RxBlk × Time × Time) : Decidable (Regular p g frame) := by
  unfold Regular; infer_instance

/- In-order, exactly-once delivery. `fates` gives every arrival exactly one place among the
delivered, the buffered and the freed ones; `excused` are drops that neither the position nor the
buffer explains. -/
structure Delivered (excused : RxBlk → Prop) (g : Ghost) : Prop where
  increasing : (upsOf g.ctx.log).Pairwise fun i j => g.number i < g.number j
  fates : (upsOf g.ctx.log ++ ids g.ctx ++ freedOf g.ctx.log).Perm (range g.arrivals.length)
  dropped : ∀ i ∈ freedOf g.ctx.log, ∃ a, g.arrivals[i]? = some a ∧
    (a.number ≤ a.lastAt ∨ a.number ∈ a.heldAt ∨ excused a.rx)

structure Good (g : Ghost) : Prop where
  window : Window 2 g.last g.ctx
  winLow : 1 ≤ g.ctx.entry.baWinSize
  winHigh : g.ctx.entry.baWinSize ≤ 255
  numbered : ∀ m ∈ g.ctx.entry.list.next, g.number m.packet = key g.last m
  below : ∀ i ∈ upsOf g.ctx.log, g.number i ≤ g.last
  delivered : Delivered SizeGuard g

theorem numberOld (p g frame) {i} (old : i < g.arrivals.length) : (arrive p g frame).number i = g.number i := by
  simp only [Ghost.number,arrive,List.getElem?_append_left old]

theorem numberNew (p g frame) : (arrive p g frame).number g.arrivals.length =
      unwrap 2048 (lift 4096 g.last (g.found p (g.tag frame.1) frame.2.1).entry.lastIndSeq) frame.1.sequence := by
  simp [Ghost.number,arrive,Ghost.tag]

theorem Good.known {g} (h : Good g) {i}
    (mem : i ∈ upsOf g.ctx.log ++ ids g.ctx ++ freedOf g.ctx.log) : i < g.arrivals.length :=
  mem_range.mp (h.delivered.fates.mem_iff.mp mem)

theorem lastNumber {gap last last' c} (window : Window gap last' c) (up : last ≤ last')
    (near : last' < last + 4096) : lift 4096 last c.entry.lastIndSeq = last' := by
  refine liftUnique up near ?_
  rw [window.lastIs,seqOfCast,Int.emod_emod]

theorem Good.advance (p) {g} (h : Good g) {frame last' ups drops} (reach : last' < g.last + 4096)
    (moved : Moved (arrive p g frame).number 2 g.last last' g.ctx (arrive p g frame).ctx
      [g.arrivals.length] ups drops) (excuse : ∀ i ∈ drops, ∃ a, (arrive p g frame).arrivals[i]? = some a ∧
      (a.number ≤ a.lastAt ∨ a.number ∈ a.heldAt ∨ SizeGuard a.rx)) : Good (arrive p g frame) := by
  have last : (arrive p g frame).last = last' := lastNumber moved.window moved.mono reach
  have old {i : Nat} (mem : i ∈ upsOf g.ctx.log) : (arrive p g frame).number i = g.number i :=
    numberOld p g frame (h.known (mem_append_left _ (mem_append_left _ mem)))
  have under {i : Nat} (mem : i ∈ upsOf g.ctx.log) : (arrive p g frame).number i ≤ g.last := by
    rw [old mem]
    exact h.below i mem
  refine ⟨by rw [last]; exact moved.window,by rw [moved.win]; exact h.winLow,
    by rw [moved.win]; exact h.winHigh,by rw [last]; exact moved.numbered,?_,?_,?_,?_⟩
  · intro i mem
    rw [last]
    rw [moved.up] at mem
    rcases mem_append.mp mem with before | now
    · exact (under before).trans moved.mono
    · exact (moved.range i now).2
  · rw [moved.up]
    refine pairwise_append.mpr ⟨h.delivered.increasing.imp_of_mem ?_,moved.sorted,?_⟩
    · intro i j hi hj less
      rwa [old hi,old hj]
    · intro i hi j hj
      exact (under hi).trans_lt (moved.range j hj).1
  · have length : (arrive p g frame).arrivals.length = g.arrivals.length + 1 := by simp [arrive]
    rw [length,range_succ,moved.up,moved.freed,perm_iff_count]
    intro i
    have before := perm_iff_count.mp h.delivered.fates i
    have now := perm_iff_count.mp moved.parts i
    simp only [count_append] at *
    omega
  · intro i mem
    rw [moved.freed] at mem
    rcases mem_append.mp mem with before | now
    · obtain ⟨a,at_,reason⟩ := h.delivered.dropped i before
      refine ⟨a,?_,reason⟩
      have known : i < g.arrivals.length := h.known (mem_append_right _ before)
      simp only [arrive,List.getElem?_append_left known]
      exact at_
    · exact excuse i now

theorem Good.step (p : Platform) {g} (h : Good g) {frame} (ok : Regular p g frame) : Good (arrive p g frame) := by
  obtain ⟨eap,early,calm,alloc⟩ := ok
  have numbered : ∀ m ∈ g.ctx.entry.list.next, (arrive p g frame).number m.packet = key g.last m := by
    intro m mem
    have known : m.packet < g.arrivals.length :=
      h.known (mem_append_left _ (mem_append_right _ (mem_map_of_mem mem)))
    rw [numberOld p g frame known]
    exact h.numbered m mem
  have record : (arrive p g frame).arrivals[g.arrivals.length]? = some
      ⟨g.tag frame.1,(arrive p g frame).number g.arrivals.length,
        lift 4096 g.last (g.found p (g.tag frame.1) frame.2.1).entry.lastIndSeq,
        (ids (g.found p (g.tag frame.1) frame.2.1)).map g.number⟩ := by
    rw [numberNew]
    simp [arrive,Ghost.tag]
  by_cases size : oversize (g.tag frame.1)
  · -- freed at the top of Indicate_AMPDU_Packet, the session is not touched
    have ctx : (arrive p g frame).ctx = g.ctx.emit (.freed g.arrivals.length) := if_pos size
    have moved : Moved (arrive p g frame).number 2 g.last g.last g.ctx (arrive p g frame).ctx
        [g.arrivals.length] [] [g.arrivals.length] := by
      rw [ctx]
      exact ⟨le_refl _,⟨h.window.1,h.window.2,h.window.3⟩,rfl,numbered,upsOfAppend _ _,freedOfAppend _ _,
        Perm.refl _,.nil,by simp⟩
    refine h.advance p (by omega) moved ?_
    intro i mem
    rw [mem_singleton.mp mem]
    refine ⟨_,record,Or.inr (Or.inr ?_)⟩
    simp only [oversize,Bool.and_eq_true,Bool.not_eq_true',decide_eq_true_eq] at size
    exact ⟨size.1,Or.inl size.2⟩
  · have found : g.found p (g.tag frame.1) frame.2.1 = arrived p g.ctx (g.tag frame.1) frame.2.1 := if_neg size
    have counted := (extendsParts.arrived p _ (g.tag frame.1) frame.2.1 h.window.counted).counted
    have ctx : (arrive p g frame).ctx = receiveAmpdu p g.ctx (g.tag frame.1) frame.2.1 frame.2.2 := if_neg size
    rw [ctx] at calm alloc
    have calm' := fun mem =>
      calm ((extendsParts.received extendsQueued p _ _ frame.2.1 frame.2.2 counted).grows.subset mem)
    obtain ⟨last1,ups1,reach1,first⟩ := movedArrived p h.window h.winHigh numbered calm'
    have set : (arrived p g.ctx (g.tag frame.1) frame.2.1).entry.lastIndSeq ≠ resetRcvSeq := by
      rw [first.window.lastIs]
      exact seqOfNotReset last1
    have split : receiveAmpdu p g.ctx (g.tag frame.1) frame.2.1 frame.2.2 =
        classify p (arrived p g.ctx (g.tag frame.1) frame.2.1) (g.tag frame.1) frame.2.1 frame.2.2 := if_neg set
    have lastAt := lastNumber first.window first.mono (by omega)
    have number : (arrive p g frame).number (g.tag frame.1).packet =
        unwrap 2048 last1 (g.tag frame.1).sequence := by
      rw [← lastAt,← found]
      exact numberNew p g frame
    have single : (g.tag frame.1).eap = false := eap
    rw [split] at alloc
    obtain ⟨last2,ups2,drops,reach2,excuse,second⟩ := movedClassify p first.window
      (by rw [first.win]; exact h.winLow) (by rw [first.win]; exact h.winHigh) early first.numbered number
      single alloc
    have moved := first.trans second
    rw [← split,← ctx] at moved
    refine h.advance p (by omega) moved ?_
    intro i mem
    rcases excuse with none | ⟨one,reason⟩
    · simp [none] at mem
    · rw [nil_append,one,mem_singleton] at mem
      subst mem
      refine ⟨_,record,?_⟩
      rw [found,lastAt]
      have same : (ids (arrived p g.ctx (g.tag frame.1) frame.2.1)).map (arrive p g frame).number =
          (ids (arrived p g.ctx (g.tag frame.1) frame.2.1)).map g.number := by
        refine map_congr_left fun j inside => numberOld p g frame (h.known ?_)
        have kept := first.parts.mem_iff.mp (mem_append_left _ (mem_append_right _ inside))
        rw [append_nil] at kept
        exact mem_append_left _ (mem_append_right _ kept)
      rw [Excused,same] at reason
      exact reason

theorem Good.start {c} (invariant : WindowInvariant c.entry) (set : c.entry.lastIndSeq ≠ resetRcvSeq)
    (empty : c.entry.list.next = []) (win : 1 ≤ c.entry.baWinSize ∧ c.entry.baWinSize ≤ 255) : Good (.start c) := by
  have bounded : c.entry.lastIndSeq ≤ maxSeq := by
    rcases invariant.shape with ⟨reset,_⟩ | ⟨bounded,_⟩
    · exact absurd reset set
    · exact bounded
  have window := windowOfInvariant invariant bounded
  refine ⟨⟨window.1,window.2,window.3⟩,win.1,win.2,?_,by simp [Ghost.start,upsOf],?_,?_,?_⟩
  · simp [Ghost.start,empty]
  · simp [Ghost.start,upsOf]
  · simp [Ghost.start,upsOf,freedOf,ids,empty]
  · simp [Ghost.start,freedOf]

theorem inOrderDelivery (p : Platform) {c : Ctx} {frames : List (RxBlk × Time × Time)}
    (invariant : WindowInvariant c.entry) (set : c.entry.lastIndSeq ≠ resetRcvSeq)
    (empty : c.entry.list.next = []) (win : 1 ≤ c.entry.baWinSize ∧ c.entry.baWinSize ≤ 255)
    (regular : Meets (arrive p) (Regular p) (.start c) frames) :
    Delivered SizeGuard (run (arrive p) (.start c) frames) := by
  have all := StepMachine.invariant (fun _ _ h ok => h.step p ok) (Good.start invariant set empty win) regular
  exact (alwaysLast all).delivered

def sampleStarted : Ctx := sessionStep samplePlatform sampleSession (.ampdu (sampleFrame 0 4094) 10 10)

theorem sampleStartedSession : Session 2 sampleStarted :=
  (Session.fill (by decide) rfl 1 8 ⟨0,8,0⟩).step samplePlatform (by decide +kernel)

theorem inOrderDeliveryAcrossWrap :
    Delivered SizeGuard (run (arrive samplePlatform) (.start sampleStarted)
      [(sampleFrame 0 1,11,11),(sampleFrame 0 4095,12,37),(sampleFrame 0 1,38,38),(sampleFrame 0 0,39,40)]) :=
  inOrderDelivery samplePlatform sampleStartedSession.invariant (by decide +kernel) (by decide +kernel)
    (by decide +kernel) (by decide +kernel)

def sampleLong : RxBlk := {sampleFrame 0 4095 with dataSize := 1600}

def lateReading : List (RxBlk × Time × Time) := [(sampleFrame 0 0,11,11),(sampleFrame 0 4095,12,38)]

theorem longFrameDropped :
    (Meets (arrive samplePlatform) (Regular samplePlatform) (.start sampleStarted) [(sampleLong,11,11)] ∧
      ¬ Delivered (fun _ => False) (run (arrive samplePlatform) (.start sampleStarted) [(sampleLong,11,11)])) ∧
    ((∀ frame ∈ lateReading, frame.1.eap = false) ∧
      Event.refreshed ∉ (run (arrive samplePlatform) (.start sampleStarted) lateReading).ctx.log ∧
      Event.allocFailed ∉ (run (arrive samplePlatform) (.start sampleStarted) lateReading).ctx.log ∧
      ¬ Delivered SizeGuard (run (arrive samplePlatform) (.start sampleStarted) lateReading)) := by
  refine ⟨⟨by decide +kernel,fun h => ?_⟩,by decide +kernel,by decide +kernel,by decide +kernel,fun h => ?_⟩
  · obtain ⟨a,found,reason⟩ := h.dropped 0 (by decide +kernel)
    have record : (run (arrive samplePlatform) (.start sampleStarted) [(sampleLong,11,11)]).arrivals[0]? =
        some ⟨sampleLong,4095,4094,[]⟩ := by decide +kernel
    rw [record] at found
    cases Option.some.inj found
    exact absurd reason (by simp)
  · have ups : upsOf (run (arrive samplePlatform) (.start sampleStarted) lateReading).ctx.log = [0,1] := by
      decide +kernel
    have sorted := h.increasing
    rw [ups] at sorted
    exact absurd (rel_of_pairwise_cons sorted mem_cons_self) (by decide +kernel)

end RtmpDriver.ReorderDelivery
