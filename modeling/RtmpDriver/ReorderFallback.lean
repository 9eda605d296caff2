import RtmpDriver.ReorderSession

/-! The fallback branch of ba_enqueue_reordering_packet, for a frame inside the window: there is no block for it, or
it is an EAPOL frame. Indicate_Legacy_Packet may flush the list once more before it announces the frame. -/
namespace RtmpDriver.ReorderFallback
open SerialNumber ReorderList ReorderEngine ReorderDrain ReorderHeld ReorderWindow ReorderSession List

structure Fallback (c : Ctx) (rx : RxBlk) : Prop where
  set : c.entry.lastIndSeq ≠ resetRcvSeq
  notNext : seqStepOne rx.sequence c.entry.lastIndSeq maxSeq = false
  notSame : (rx.sequence : Nat) ≠ c.entry.lastIndSeq
  notOld : seqSmaller rx.sequence c.entry.lastIndSeq maxSeq = false
  within : seqSmaller rx.sequence (cAnd (c.entry.lastIndSeq + c.entry.baWinSize + 1) maxSeq) maxSeq = true
  noBlock : (baMpduBlkAlloc c).1 = none ∨ rx.eap = true

instance (c : Ctx) (rx : RxBlk) : Decidable (Fallback c rx) :=
  decidable_of_iff (c.entry.lastIndSeq ≠ resetRcvSeq ∧ seqStepOne rx.sequence c.entry.lastIndSeq maxSeq = false ∧
      (rx.sequence : Nat) ≠ c.entry.lastIndSeq ∧ seqSmaller rx.sequence c.entry.lastIndSeq maxSeq = false ∧
      seqSmaller rx.sequence (cAnd (c.entry.lastIndSeq + c.entry.baWinSize + 1) maxSeq) maxSeq = true ∧
      ((baMpduBlkAlloc c).1 = none ∨ rx.eap = true))
    ⟨fun ⟨a,b,d,e,f,g⟩ => ⟨a,b,d,e,f,g⟩,fun ⟨a,b,d,e,f,g⟩ => ⟨a,b,d,e,f,g⟩⟩

def passedUp (rx : RxBlk) (log : List Event) : List Nat :=
  log.filterMap fun
    | .up _ sequence _ => some sequence
    | .eapol _ => some rx.sequence
    | _ => none

def Before (c : Ctx) (a b : Nat) : Prop := lift 4096 c.entry.lastIndSeq a < lift 4096 c.entry.lastIndSeq b

structure OrderKept (rx : RxBlk) (c c' : Ctx) : Prop where
  sorted : (passedUp rx (c'.log.drop c.log.length)).Pairwise (Before c)
  cleared : ∀ m ∈ c'.entry.list.next, 2 ≤ distance c'.entry m

def fits (rx : RxBlk) : Bool := decide ((convertTo8023 rx).toNat ≤ maxRxPktLen)

def legacyTaken (p : Platform) (rx : RxBlk) : Bool := !rx.amsdu && (!rx.eap || p.wpaSupplicantUp)

def announced (p : Platform) (rx : RxBlk) : Bool := !legacyTaken p rx || fits rx

def later (c : Ctx) (rx : RxBlk) : List Mpdu := c.entry.list.next.filter fun m => !leTest rx.sequence m

def flushes (p : Platform) (c : Ctx) (rx : RxBlk) (now : Time) : Bool :=
  legacyTaken p rx && fits rx && !p.bDisableReordering && decide (0 < (later c rx).length) &&
    timedOut c now (reorderingPacketTimeout p)

def Buffered (c : Ctx) (sequence : Nat) : Prop := ∃ m ∈ c.entry.list.next, m.sequence = sequence

structure FallbackSafe (p : Platform) (c : Ctx) (rx : RxBlk) (now : Time) : Prop where
  fresh : announced p rx = true → ¬ Buffered c rx.sequence
  next : ¬ Buffered c ((rx.sequence + 1) % 4096)
  calm : flushes p c rx now = true → ¬ Buffered c ((rx.sequence + 2) % 4096) ∧
    (timedOut c now (maxReorderingPacketTimeout p / 6) = true → (later c rx).length ≤ 1)

section
variable {p : Platform} {c : Ctx} {rx : RxBlk} {now : Time}

theorem passedUpAppend (rx log rest) :
    passedUp rx (log ++ rest) = passedUp rx log ++ passedUp rx rest := filterMap_append

theorem passedUpHandUp (rx) (out : List Mpdu) : passedUp rx (out.map upOf) = out.map Mpdu.sequence := by
  induction out with
  | nil => rfl
  | cons m rest ih =>
    simp only [map_cons,← ih]
    rfl

theorem fallbackEq (p now) (noBlock : (baMpduBlkAlloc c).1 = none ∨ rx.eap = true) :
    ∃ free pre, passedUp rx pre = [] ∧ baEnqueueReorderingPacket p c rx now =
      indicateLegacyOrAmsdu p ((baIndicateReorderingMpdusLeSeq
        { c with freelist := free, log := c.log ++ pre } rx.sequence).setLast rx.sequence) rx now := by
  rcases allocCases c with ⟨addr,free,found⟩ | ⟨free,failed⟩
  · rw [found] at noBlock
    have eap : rx.eap = true := noBlock.resolve_left (fun none => by cases none)
    refine ⟨free,[],rfl,?_⟩
    simp only [baEnqueueReorderingPacket,found,eap,append_nil]
  · refine ⟨free,[.allocFailed],rfl,?_⟩
    simp only [baEnqueueReorderingPacket,failed]
    rfl

theorem legacyIs (taken : legacyTaken p rx = true) (c : Ctx) :
    indicateLegacyOrAmsdu p c rx now = indicateLegacyPacket p c rx now := by
  unfold legacyTaken at taken
  unfold indicateLegacyOrAmsdu indicateEapolPacket
  cases amsdu : rx.amsdu <;> cases eap : rx.eap <;> simp_all

theorem passedIs (other : legacyTaken p rx = false) (c : Ctx) (now) :
    ∃ e, passedUp rx [e] = [(rx.sequence : Nat)] ∧ indicateLegacyOrAmsdu p c rx now = c.emit e := by
  unfold legacyTaken at other
  unfold indicateLegacyOrAmsdu indicateEapolPacket
  cases amsdu : rx.amsdu with
  | true => exact ⟨.up rx.packet rx.sequence true,rfl,if_pos rfl⟩
  | false =>
    refine ⟨.eapol rx.packet,rfl,?_⟩
    cases eap : rx.eap <;> simp_all

theorem sequenceIs {last v m} (seq : m.sequence < 4096) (low : last ≤ v) (high : v < last + 4096) :
    m.sequence = seqOf v ↔ key last m = v := by
  have residue := keyResidue seq last
  have cast := seqOfCast v
  constructor
  · intro same
    refine liftUnique low high ?_
    rw [same,cast,Int.emod_emod_of_dvd v (Int.dvd_refl 4096)]
  · intro same
    rw [same] at residue
    omega

theorem flushStill (p) {v hi} (now) (lastIs : c.entry.lastIndSeq = seqOf v)
    (counted : c.entry.list.Counted) (held : Held v (v + 3) hi c.entry.list.next) (near : hi < v + 2048)
    (some : 0 < c.entry.list.qlen)
    (calm : timedOut c now (maxReorderingPacketTimeout p / 6) = true → c.entry.list.qlen ≤ 1)
    (timed : timedOut c now (reorderingPacketTimeout p) = true) :
    baFlushReorderingTimeoutMpdus p c now = (c.setTimer now).setLast (seqOf (v + 1)) := by
  have none : c.entry.list.next.takeWhile (leTest (seqOf (v + 1))) = [] ∧
      c.entry.list.next.dropWhile (leTest (seqOf (v + 1))) = c.entry.list.next ∧
      runSplit (seqOf (v + 1)) c.entry.list.next = ([],c.entry.list.next) := by
    cases next : c.entry.list.next with
    | nil => exact ⟨rfl,rfl,rfl⟩
    | cons m rest =>
      rw [next] at held
      have low := held.low m mem_cons_self
      have high := held.high m mem_cons_self
      have seq := held.seq m mem_cons_self
      have past : ¬ leTest (seqOf (v + 1)) m = true := by
        rw [leTestKeys v (v + 1) seq (by omega) (by omega)]
        omega
      have gap : ¬ seqStepOne m.sequence (seqOf (v + 1)) maxSeq = true := by
        rw [stepOneKeys v (v + 1) seq (by omega) (by omega)]
        omega
      exact ⟨takeWhile_cons_of_neg past,dropWhile_cons_of_neg past,if_neg gap⟩
  have notLate : ¬ (timedOut c now (maxReorderingPacketTimeout p / 6) && decide (1 < c.entry.list.qlen)) = true := by
    intro late
    rw [Bool.and_eq_true,decide_eq_true_eq] at late
    have few := calm late.1
    omega
  unfold baFlushReorderingTimeoutMpdus
  rw [if_neg (by omega),if_neg notLate,if_pos (by rw [timed,decide_eq_true some]; rfl),lastIs,seqOfSucc]
  simp only [leSeqEq counted,none.1,none.2.1,handUpNone counted]
  have drained := inOrderEq (c := (c.setTimer now).setLast (seqOf (v + 1))) counted (seqOf (v + 1))
  have list : ((c.setTimer now).setLast (seqOf (v + 1))).entry.list.next = c.entry.list.next := rfl
  rw [list,none.2.2] at drained
  have still : handUp ((c.setTimer now).setLast (seqOf (v + 1))) [] c.entry.list.next =
      (c.setTimer now).setLast (seqOf (v + 1)) := handUpNone (c := (c.setTimer now).setLast (seqOf (v + 1))) counted
  simp only [drainInOrder,drained,still]
  exact if_pos rfl

theorem fallbackNumber (set : c.entry.lastIndSeq ≤ maxSeq) (win : c.entry.baWinSize ≤ 255) (h : Fallback c rx) :
    c.entry.lastIndSeq + 2 ≤ lift 4096 c.entry.lastIndSeq rx.sequence ∧
      lift 4096 c.entry.lastIndSeq rx.sequence ≤ c.entry.lastIndSeq + c.entry.baWinSize := by
  have limit : maxSeq = 4095 := rfl
  have seq := rx.sequence.isLt
  have notNext := mt (seqStepOneIff rx.sequence c.entry.lastIndSeq).mpr (by rw [h.notNext]; decide)
  have notOld := mt (seqSmallerIff rx.sequence c.entry.lastIndSeq).mpr (by rw [h.notOld]; decide)
  have within := (seqSmallerIff _ _).mp h.within
  have notSame := h.notSame
  rw [cAndMask] at within
  unfold lift
  omega

structure Split (c : Ctx) (rx : RxBlk) (w : Int) (out keep : List Mpdu) : Prop where
  number : lift 4096 c.entry.lastIndSeq rx.sequence = w
  low : c.entry.lastIndSeq + 2 ≤ w
  high : w ≤ c.entry.lastIndSeq + c.entry.baWinSize
  held : Held c.entry.lastIndSeq (c.entry.lastIndSeq + 2) (c.entry.lastIndSeq + c.entry.baWinSize) c.entry.list.next
  cut : Cut c.entry.lastIndSeq w c.entry.list.next out keep
  kept : Held c.entry.lastIndSeq (w + 1) (c.entry.lastIndSeq + c.entry.baWinSize) keep
  win : c.entry.baWinSize ≤ 255

section
variable {w : Int} {out keep : List Mpdu}

section
variable (h : Split c rx w out keep)
include h

theorem Split.sequence : seqOf w = rx.sequence := by
  rw [← h.number]
  exact seqOfLift _ rx

theorem Split.buffered {d} (small : d ≤ 2) :
    Buffered c ((rx.sequence + d) % 4096) ↔ ∃ m ∈ c.entry.list.next, key c.entry.lastIndSeq m = w + d := by
  have low := h.low
  have high := h.high
  have win := h.win
  have cast := seqOfCast w
  have same : (rx.sequence + d) % 4096 = seqOf (w + d) := by
    have residue := h.sequence
    unfold seqOf at residue ⊢
    omega
  rw [same]
  refine exists_congr fun m => and_congr_right fun member => ?_
  exact sequenceIs (h.held.seq m member) (by omega) (by omega)

theorem Split.fresh :
    (∀ m ∈ out, key c.entry.lastIndSeq m < w) ↔ ¬ Buffered c rx.sequence := by
  have here := h.buffered (d := 0) (Nat.zero_le 2)
  have same : (rx.sequence + 0) % 4096 = (rx.sequence : Nat) := Nat.mod_eq_of_lt rx.sequence.isLt
  rw [same,Nat.cast_zero,add_zero,h.cut.parts] at here
  rw [here]
  constructor
  · rintro less ⟨m,member,equal⟩
    rcases mem_append.mp member with up | stay
    · have := less m up
      omega
    · have := h.cut.past m stay
      omega
  · intro absent m member
    have := h.cut.upTo m member
    have other : key c.entry.lastIndSeq m ≠ w := fun equal => absent ⟨m,mem_append_left _ member,equal⟩
    omega

theorem Split.behind {d : Nat} (some : 0 < d) (small : d ≤ 2) :
    (∀ m ∈ keep, key c.entry.lastIndSeq m ≠ w + d) ↔ ¬ Buffered c ((rx.sequence + d) % 4096) := by
  rw [h.buffered small,h.cut.parts]
  constructor
  · rintro other ⟨m,member,equal⟩
    rcases mem_append.mp member with up | stay
    · have := h.cut.upTo m up
      omega
    · exact other m stay equal
  · intro absent m member equal
    exact absent ⟨m,mem_append_right _ member,equal⟩

theorem Split.later : later c rx = keep := by
  have low := h.low
  have high := h.high
  have win := h.win
  have test (m : Mpdu) (member : m ∈ c.entry.list.next) :
      leTest rx.sequence m = true ↔ key c.entry.lastIndSeq m ≤ w := by
    have below := h.held.low m member
    have above := h.held.high m member
    rw [← h.sequence]
    exact leTestKeys _ w (h.held.seq m member) (by omega) (by omega)
  unfold ReorderFallback.later
  rw [h.cut.parts] at test ⊢
  rw [filter_append,filter_eq_nil_iff.mpr,filter_eq_self.mpr,nil_append]
  · intro m member
    have past := h.cut.past m member
    have fails : ¬ leTest rx.sequence m = true := fun pass =>
      absurd ((test m (mem_append_right _ member)).mp pass) (by omega)
    rw [Bool.eq_false_iff.mpr fails]
    rfl
  · intro m member
    rw [(test m (mem_append_left _ member)).mpr (h.cut.upTo m member)]
    decide

end

theorem splitOfInvariant (invariant : WindowInvariant c.entry) (win : c.entry.baWinSize ≤ 255) (h : Fallback c rx)
    (free log) : ∃ w out keep, Split c rx w out keep ∧
      baIndicateReorderingMpdusLeSeq { c with freelist := free, log := log } rx.sequence =
        handUp { c with freelist := free, log := log } out keep := by
  have set : c.entry.lastIndSeq ≤ maxSeq := by
    rcases invariant.shape with reset | set
    · exact absurd reset.1 h.set
    · exact set.1
  have window := windowOfInvariant invariant set
  obtain ⟨low,high⟩ := fallbackNumber set win h
  generalize number : lift 4096 c.entry.lastIndSeq rx.sequence = w at low high
  obtain ⟨out,keep,cut,kept,drained⟩ := leSeqShift (c := { c with freelist := free, log := log }) (w := w)
    window.counted window.held (by omega) (by omega)
  have split : Split c rx w out keep := ⟨number,low,high,window.held,cut,kept,win⟩
  rw [split.sequence] at drained
  exact ⟨w,out,keep,split,drained⟩

section
variable (h : Split c rx w out keep)
include h

theorem Split.sortedOut : (out.map Mpdu.sequence).Pairwise (Before c) := by
  have sorted := h.held.sorted
  rw [h.cut.parts] at sorted
  exact pairwise_map.mpr (pairwise_append.mp sorted).1

theorem Split.sortedFrame (mid) (stays : ∀ m ∈ mid, m ∈ keep) :
    (out.map Mpdu.sequence ++ (mid.map Mpdu.sequence ++ [(rx.sequence : Nat)])).Pairwise (Before c) ↔
      ¬ Buffered c rx.sequence ∧ mid = [] := by
  have number : lift 4096 c.entry.lastIndSeq ((rx.sequence : Nat) : Int) = w := h.number
  constructor
  · intro sorted
    have before : ∀ m ∈ out ++ mid, key c.entry.lastIndSeq m < w := by
      intro m member
      rw [← append_assoc,← map_append] at sorted
      have less := (pairwise_append.mp sorted).2.2 m.sequence (mem_map_of_mem member) _
        (mem_singleton.mpr rfl)
      rwa [Before,number] at less
    refine ⟨h.fresh.mp fun m member => before m (mem_append_left _ member),?_⟩
    refine eq_nil_iff_forall_not_mem.mpr fun m member => ?_
    have less := before m (mem_append_right _ member)
    have past := h.cut.past m (stays m member)
    omega
  · rintro ⟨absent,rfl⟩
    refine pairwise_append.mpr ⟨h.sortedOut,pairwise_singleton _ _,fun a up b last => ?_⟩
    obtain ⟨m,member,rfl⟩ := mem_map.mp up
    rw [map_nil,nil_append,mem_singleton] at last
    rw [last,Before,number]
    exact h.fresh.mpr absent m member

theorem Split.distance {e} (lastIs : e.lastIndSeq = seqOf w) {m}
    (stays : m ∈ keep) : distance e m = key c.entry.lastIndSeq m - w := by
  have low := h.low
  rw [distanceKey lastIs,keyShift (by omega) (h.cut.past m stays).le]

theorem Split.cleared {e} (lastIs : e.lastIndSeq = seqOf w) :
    (∀ m ∈ keep, 2 ≤ ReorderSession.distance e m) ↔ ¬ Buffered c ((rx.sequence + 1) % 4096) := by
  rw [← h.behind Nat.one_pos (Nat.le_succ 1)]
  refine forall₂_congr fun m stays => ?_
  have past := h.cut.past m stays
  rw [h.distance lastIs stays]
  omega

end

def moved (c : Ctx) (free : ReorderingList) (pre : List Event) (out keep : List Mpdu) (rx : RxBlk) : Ctx :=
  (handUp { c with freelist := free, log := c.log ++ pre } out keep).setLast rx.sequence

variable {free : ReorderingList} {pre : List Event}

theorem keptIff (none : passedUp rx pre = []) {c' extra}
    (log : c'.log = (moved c free pre out keep rx).log ++ extra) :
    OrderKept rx c c' ↔ (out.map Mpdu.sequence ++ passedUp rx extra).Pairwise (Before c) ∧
      ∀ m ∈ c'.entry.list.next, 2 ≤ distance c'.entry m := by
  have whole : (moved c free pre out keep rx).log = c.log ++ pre ++ out.map upOf := rfl
  have passed : passedUp rx (c'.log.drop c.log.length) = out.map Mpdu.sequence ++ passedUp rx extra := by
    rw [log,whole,append_assoc,append_assoc,drop_left,passedUpAppend,passedUpAppend,passedUpHandUp,
      none,nil_append]
  constructor
  · intro kept
    have sorted := kept.sorted
    rw [passed] at sorted
    exact ⟨sorted,kept.cleared⟩
  · rintro ⟨sorted,cleared⟩
    rw [← passed] at sorted
    exact ⟨sorted,cleared⟩

section
variable (h : Split c rx w out keep)
include h

theorem Split.keptFreed (none : passedUp rx pre = []) :
    OrderKept rx c ((moved c free pre out keep rx).emit (.freed rx.packet)) ↔
      ¬ Buffered c ((rx.sequence + 1) % 4096) := by
  rw [keptIff none rfl]
  have nothing : passedUp rx [.freed rx.packet] = [] := rfl
  rw [nothing,append_nil]
  exact ⟨fun both => (h.cleared h.sequence.symm).mp both.2,
    fun absent => ⟨h.sortedOut,(h.cleared h.sequence.symm).mpr absent⟩⟩

theorem Split.keptAnnounced (none : passedUp rx pre = []) {e}
    (frame : passedUp rx [e] = [(rx.sequence : Nat)]) : OrderKept rx c ((moved c free pre out keep rx).emit e) ↔
      ¬ Buffered c rx.sequence ∧ ¬ Buffered c ((rx.sequence + 1) % 4096) := by
  rw [keptIff none rfl,frame]
  have sorted := h.sortedFrame [] (fun m member => by cases member)
  rw [map_nil,nil_append] at sorted
  rw [sorted]
  exact and_congr ⟨fun both => both.1,fun absent => ⟨absent,rfl⟩⟩ (h.cleared h.sequence.symm)

theorem Split.loose : Held w (w + 1) (c.entry.lastIndSeq + c.entry.baWinSize) keep := by
  have low := h.low
  exact h.kept.rebase (by omega) (by omega)

theorem Split.looseWindow (free pre) : Window 1 w (moved c free pre out keep rx) := by
  have low := h.low
  have held := h.loose
  exact ⟨h.sequence.symm,rfl,held.mono (Int.le_refl _) (by simp only [moved,Ctx.setLast,handUp]; omega)⟩

theorem Split.gap (next : ¬ Buffered c ((rx.sequence + 1) % 4096))
    (second : ¬ Buffered c ((rx.sequence + 2) % 4096)) :
    Held w (w + 3) (c.entry.lastIndSeq + c.entry.baWinSize) keep := by
  have low := h.low
  have held := h.loose
  refine ⟨held.seq,held.sorted,fun m stays => ?_,held.high⟩
  have past := h.cut.past m stays
  have notNext := (h.behind Nat.one_pos (Nat.le_succ 1)).mpr next m stays
  have notSecond := (h.behind Nat.two_pos (Nat.le_refl 2)).mpr second m stays
  rw [keyShift (by omega) past.le]
  omega

theorem Split.refreshBreaks (none : passedUp rx pre = []) (some : 0 < keep.length) :
    ¬ OrderKept rx c (((baRefreshReorderingMpdus (moved c free pre out keep rx)).setTimer now).emit
        (.up rx.packet rx.sequence false)) := by
  have refreshed := refreshEq (c := moved c free pre out keep rx) rfl
  have log : (((baRefreshReorderingMpdus (moved c free pre out keep rx)).setTimer now).emit
      (.up rx.packet rx.sequence false)).log =
      (moved c free pre out keep rx).log ++ .refreshed :: (keep.map upOf ++ [.up rx.packet rx.sequence false]) := by
    rw [refreshed]
    simp [Ctx.emit,Ctx.setTimer,Ctx.setLast,handUp,moved]
  rw [keptIff none log]
  have passed : passedUp rx (.refreshed :: (keep.map upOf ++ [.up rx.packet rx.sequence false])) =
      keep.map Mpdu.sequence ++ [(rx.sequence : Nat)] := by
    rw [← passedUpHandUp rx keep]
    exact passedUpAppend rx (.refreshed :: keep.map upOf) [.up rx.packet rx.sequence false]
  rw [passed,h.sortedFrame keep (fun m member => member)]
  rintro ⟨⟨_,empty⟩,_⟩
  rw [empty] at some
  cases some

theorem Split.stepKept (none : passedUp rx pre = []) {out' keep' w'}
    (up : w < w') (cut : Cut w w' keep out' keep') {hi : Int} (held : Held w' (w' + 2) hi keep')
    (kept : OrderKept rx c ((shift (moved c free pre out keep rx) out' keep' w' now).emit
      (.up rx.packet rx.sequence false))) : ¬ Buffered c rx.sequence ∧ ¬ Buffered c ((rx.sequence + 1) % 4096) ∧
      ¬ Buffered c ((rx.sequence + 2) % 4096) := by
  have low := h.low
  have log : ((shift (moved c free pre out keep rx) out' keep' w' now).emit (.up rx.packet rx.sequence false)).log =
      (moved c free pre out keep rx).log ++ (out'.map upOf ++ [.up rx.packet rx.sequence false]) := by
    simp [Ctx.emit,shift,Ctx.setTimer,Ctx.setLast,handUp]
  rw [keptIff none log,passedUpAppend,passedUpHandUp] at kept
  have stays : ∀ m ∈ out', m ∈ keep := fun m member => by
    rw [cut.parts]
    exact mem_append_left _ member
  obtain ⟨absent,empty⟩ := (h.sortedFrame out' stays).mp kept.1
  have same : keep = keep' := by rw [cut.parts,empty,nil_append]
  have far : ∀ m ∈ keep, w + 3 ≤ key c.entry.lastIndSeq m := by
    intro m member
    have past := h.cut.past m member
    rw [same] at member
    have above := held.low m member
    rw [keyShift up.le (cut.past m member).le,keyShift (by omega) past.le] at above
    omega
  refine ⟨absent,(h.behind Nat.one_pos (Nat.le_succ 1)).mp fun m member => ?_,
    (h.behind Nat.two_pos (Nat.le_refl 2)).mp fun m member => ?_⟩
  · have := far m member
    omega
  · have := far m member
    omega

theorem Split.keptFlushed (none : passedUp rx pre = []) (some : 0 < keep.length)
    (timed : timedOut c now (reorderingPacketTimeout p) = true) :
    OrderKept rx c ((baFlushReorderingTimeoutMpdus p (moved c free pre out keep rx) now).emit
        (.up rx.packet rx.sequence false)) ↔
      ¬ Buffered c rx.sequence ∧ ¬ Buffered c ((rx.sequence + 1) % 4096) ∧ ¬ Buffered c ((rx.sequence + 2) % 4096) ∧
        (timedOut c now (maxReorderingPacketTimeout p / 6) = true → keep.length ≤ 1) := by
  have filled : ¬ (moved c free pre out keep rx).entry.list.qlen = 0 := Nat.pos_iff_ne_zero.mp some
  rcases Decidable.em (timedOut c now (maxReorderingPacketTimeout p / 6) = true ∧ 1 < keep.length) with late | calm
  · have refresh : baFlushReorderingTimeoutMpdus p (moved c free pre out keep rx) now =
        (baRefreshReorderingMpdus (moved c free pre out keep rx)).setTimer now := by
      unfold baFlushReorderingTimeoutMpdus
      rw [if_neg filled]
      exact if_pos (Bool.and_eq_true_iff.mpr ⟨late.1,decide_eq_true late.2⟩)
    rw [refresh]
    refine ⟨fun kept => absurd kept (h.refreshBreaks none some),fun safe => ?_⟩
    have few := safe.2.2.2 late.1
    omega
  · have calm' : timedOut c now (maxReorderingPacketTimeout p / 6) = true → keep.length ≤ 1 := fun late =>
      Nat.not_lt.mp fun many => calm ⟨late,many⟩
    have notLate : ¬ (timedOut (moved c free pre out keep rx) now (maxReorderingPacketTimeout p / 6) &&
        decide (1 < (moved c free pre out keep rx).entry.list.qlen)) = true := fun both =>
      calm ((Bool.and_eq_true_iff.mp both).imp_right of_decide_eq_true)
    have ready : (timedOut (moved c free pre out keep rx) now (reorderingPacketTimeout p) &&
        decide (0 < (moved c free pre out keep rx).entry.list.qlen)) = true :=
      Bool.and_eq_true_iff.mpr ⟨timed,decide_eq_true some⟩
    constructor
    · intro kept
      obtain ⟨out',keep',w',up,_,cut,held,step⟩ := flushStep now (h.looseWindow free pre) h.win
      have flush : baFlushReorderingTimeoutMpdus p (moved c free pre out keep rx) now =
          shift (moved c free pre out keep rx) out' keep' w' now := by
        have lastIs : (moved c free pre out keep rx).entry.lastIndSeq = seqOf w := h.sequence.symm
        unfold baFlushReorderingTimeoutMpdus
        rwa [if_neg filled,if_neg notLate,if_pos ready,lastIs,seqOfSucc]
      rw [flush] at kept
      obtain ⟨absent,next,second⟩ := h.stepKept none up cut held kept
      exact ⟨absent,next,second,calm'⟩
    · rintro ⟨absent,next,second,_⟩
      have gap := h.gap next second
      have still := flushStill p (c := moved c free pre out keep rx) now h.sequence.symm rfl gap
        (by have := h.win; have := h.low; omega) some calm' timed
      have log : (((moved c free pre out keep rx).setTimer now).setLast (seqOf (w + 1)) |>.emit
          (.up rx.packet rx.sequence false)).log =
          (moved c free pre out keep rx).log ++ [.up rx.packet rx.sequence false] := rfl
      rw [still,keptIff none log]
      refine ⟨(h.sortedFrame [] (fun m member => by cases member)).mpr ⟨absent,rfl⟩,fun m member => ?_⟩
      have above := gap.low m member
      have lastIs : (((moved c free pre out keep rx).setTimer now).setLast (seqOf (w + 1))).entry.lastIndSeq =
          seqOf (w + 1) := rfl
      have number := distanceKey lastIs m
      have shifted : key (w + 1) m = key w m := keyShift (by omega) (by omega)
      have far : 2 ≤ key w m - (w + 1) := by omega
      rw [← shifted,← number] at far
      exact far

theorem indicatedKept (none : passedUp rx pre = []) :
    OrderKept rx c (indicateLegacyOrAmsdu p (moved c free pre out keep rx) rx now) ↔ FallbackSafe p c rx now := by
  have plain (fine : announced p rx = true) (quiet : flushes p c rx now = false) :
      FallbackSafe p c rx now ↔ ¬ Buffered c rx.sequence ∧ ¬ Buffered c ((rx.sequence + 1) % 4096) := by
    constructor
    · exact fun safe => ⟨safe.fresh fine,safe.next⟩
    · exact fun both => ⟨fun _ => both.1,both.2,fun flush => by rw [quiet] at flush; cases flush⟩
  cases taken : legacyTaken p rx with
  | false =>
    obtain ⟨e,frame,eq⟩ := passedIs taken (moved c free pre out keep rx) now
    rw [eq,h.keptAnnounced none frame,plain (by simp [announced,taken]) (by simp [flushes,taken])]
  | true =>
  rw [legacyIs taken]
  unfold indicateLegacyPacket
  split
  next long =>
    have unfit : fits rx = false := decide_eq_false (Nat.not_le.mpr long)
    rw [h.keptFreed none]
    constructor
    · exact fun absent => ⟨fun fine => by simp [announced,taken,unfit] at fine,absent,
        fun flush => by simp [flushes,unfit] at flush⟩
    · exact fun safe => safe.next
  next short =>
    have fit : fits rx = true := decide_eq_true (Nat.not_lt.mp short)
    have fine : announced p rx = true := by simp [announced,fit]
    have test : flushes p c rx now = (!p.bDisableReordering && decide (0 < keep.length) &&
        timedOut c now (reorderingPacketTimeout p)) := by
      simp [flushes,taken,fit,h.later]
    unfold legacyFlush
    split
    next flush =>
      have flushed : flushes p c rx now = true := test.trans flush
      simp only [flushes,Bool.and_eq_true,decide_eq_true_eq,h.later] at flushed
      rw [h.keptFlushed none flushed.1.2 flushed.2]
      constructor
      · rintro ⟨absent,next,second,calm⟩
        exact ⟨fun _ => absent,next,fun _ => ⟨second,by rw [h.later]; exact calm⟩⟩
      · intro safe
        obtain ⟨second,calm⟩ := safe.calm (test.trans flush)
        rw [h.later] at calm
        exact ⟨safe.fresh fine,safe.next,second,calm⟩
    next still =>
      have quiet : flushes p c rx now = false := test.trans (Bool.eq_false_iff.mpr still)
      rw [h.keptAnnounced none rfl,plain fine quiet]

end

end

theorem fallbackOrdered (p : Platform) (c : Ctx) (rx : RxBlk) (now : Time) (invariant : WindowInvariant c.entry)
    (win : c.entry.baWinSize ≤ 255) (h : Fallback c rx) :
    OrderKept rx c (baEnqueueReorderingPacket p c rx now) ↔ FallbackSafe p c rx now := by
  obtain ⟨free,pre,none,eq⟩ := fallbackEq p now h.noBlock
  obtain ⟨w,out,keep,split,drained⟩ := splitOfInvariant invariant win h free (c.log ++ pre)
  rw [eq,drained]
  exact indicatedKept split none

end

def pending (sequence : Fin 4096) : Ctx where
  entry := { wcid := 1, tid := 0, baWinSize := 8, lastIndSeq := 100, timeOutValue := 0, lastIndSeqAtTimer := 10,
             nDropPacket := 0, rcvSeq := 0, status := .accept, list := ⟨[⟨0,7,sequence,false,0⟩],1⟩ }
  freelist := .empty
  log := []

theorem pendingInvariant {sequence : Fin 4096} (low : 102 ≤ (sequence : Nat)) (high : (sequence : Nat) ≤ 108) :
    WindowInvariant (pending sequence).entry := by
  refine ⟨rfl,by simp [pending],.inr ⟨by simp [pending,maxSeq],pairwise_singleton _ _,fun m member => ?_⟩⟩
  rw [mem_singleton.mp member]
  refine ⟨Nat.le_of_lt_succ sequence.isLt,?_,?_⟩ <;> simp only [distance,pending] <;> omega

theorem fallbackOrderedGap : OrderKept (sampleFrame 8 104) (pending 102)
    (baEnqueueReorderingPacket samplePlatform (pending 102) (sampleFrame 8 104) 10) := by
  refine (fallbackOrdered samplePlatform (pending 102) (sampleFrame 8 104) 10
    (pendingInvariant (by decide) (by decide)) (by decide) (by decide)).mpr ⟨fun _ => ?_,?_,fun flush => ?_⟩
  · rintro ⟨m,member,same⟩
    rw [mem_singleton.mp member] at same
    cases same
  · rintro ⟨m,member,same⟩
    rw [mem_singleton.mp member] at same
    cases same
  · exact absurd flush (by decide)

theorem fallbackDisorders :
    (WindowInvariant (pending 102).entry ∧ Fallback (pending 102) (sampleFrame 8 102) ∧
      (baEnqueueReorderingPacket samplePlatform (pending 102) (sampleFrame 8 102) 10).log =
        [.allocFailed,.up 7 102 false,.up 8 102 false] ∧
      ¬ OrderKept (sampleFrame 8 102) (pending 102)
        (baEnqueueReorderingPacket samplePlatform (pending 102) (sampleFrame 8 102) 10)) ∧
    (WindowInvariant (pending 103).entry ∧ Fallback (pending 103) (sampleFrame 8 102) ∧
      (baEnqueueReorderingPacket samplePlatform (pending 103) (sampleFrame 8 102) 10).entry.lastIndSeq = 102 ∧
      ¬ OrderKept (sampleFrame 8 102) (pending 103)
        (baEnqueueReorderingPacket samplePlatform (pending 103) (sampleFrame 8 102) 10)) := by
  refine ⟨⟨pendingInvariant (by decide) (by decide),by decide,by decide,fun kept => ?_⟩,
    ⟨pendingInvariant (by decide) (by decide),by decide,by decide,fun kept => ?_⟩⟩
  · have sorted := kept.sorted
    have passed : passedUp (sampleFrame 8 102) ((baEnqueueReorderingPacket samplePlatform (pending 102)
        (sampleFrame 8 102) 10).log.drop (pending 102).log.length) = [102,102] := by decide
    rw [passed] at sorted
    exact absurd (rel_of_pairwise_cons sorted mem_cons_self) (lt_irrefl _)
  · have close := kept.cleared ⟨0,7,103,false,0⟩ (by decide)
    exact absurd close (by decide)

end RtmpDriver.ReorderFallback
