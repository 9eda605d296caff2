import Mathlib.Data.List.TakeWhile
import RtmpDriver.ReorderDrain

/-! The reordering list over unbounded numbers. Relative to an integer `last` that LastIndSeq stands for, every buffered
sequence has one number at or above `last` (`key`). `Held last lo hi` is the shape all the operations keep. -/
namespace RtmpDriver.ReorderHeld
open SerialNumber ReorderList ReorderEngine ReorderDrain List

def key (last : Int) (m : Mpdu) : Int := lift 4096 last m.sequence

def seqOf (v : Int) : Nat := (v % 4096).toNat

theorem seqOfCast (v) : (seqOf v : Int) = v % 4096 := by
  unfold seqOf
  omega

theorem seqOfLt (v) : seqOf v < 4096 := by
  unfold seqOf
  omega

theorem seqOfNotReset (v) : seqOf v ≠ resetRcvSeq := by
  have := seqOfLt v
  unfold resetRcvSeq
  omega

theorem seqOfNat {n : Nat} (small : n < 4096) : seqOf n = n := by
  unfold seqOf
  omega

theorem seqOfSucc (v) : cAnd ((seqOf v : Int) + 1) maxSeq = seqOf (v + 1) := by
  rw [cAndMask,seqOfCast]
  unfold seqOf
  omega

theorem keyResidue {m} (seq : m.sequence < 4096) (last) : key last m % 4096 = m.sequence := by
  have h := liftResidue 4096 last m.sequence
  rw [Int.emod_eq_of_lt (a := (m.sequence : Int)) (by omega) (by omega)] at h
  exact h

theorem keyShift {last last' m} (up : last ≤ last') (reach : last' ≤ key last m) :
    key last' m = key last m := liftShift (by decide) up reach

structure Held (last lo hi : Int) (next : List Mpdu) : Prop where
  seq : ∀ m ∈ next, m.sequence < 4096
  sorted : next.Pairwise fun a b => key last a < key last b
  low : ∀ m ∈ next, lo ≤ key last m
  high : ∀ m ∈ next, key last m ≤ hi

theorem Held.nil (last lo hi) : Held last lo hi [] := ⟨by simp,.nil,by simp,by simp⟩

theorem Held.mono {last lo hi lo' hi' next} (h : Held last lo hi next) (down : lo' ≤ lo) (up : hi ≤ hi') :
    Held last lo' hi' next :=
  ⟨h.seq,h.sorted,fun m mem => down.trans (h.low m mem),fun m mem => (h.high m mem).trans up⟩

theorem Held.sublist {last lo hi next part} (h : Held last lo hi next) (sub : part.Sublist next) :
    Held last lo hi part :=
  ⟨fun m mem => h.seq m (sub.subset mem),h.sorted.sublist sub,fun m mem => h.low m (sub.subset mem),
    fun m mem => h.high m (sub.subset mem)⟩

theorem Held.tail {last lo hi m rest} (h : Held last lo hi (m :: rest)) : Held last (key last m + 1) hi rest := by
  obtain ⟨first,sorted⟩ := pairwise_cons.mp h.sorted
  exact ⟨fun x mem => h.seq x (mem_cons_of_mem _ mem),sorted,fun x mem => first x mem,
    fun x mem => h.high x (mem_cons_of_mem _ mem)⟩

theorem Held.cons {last lo hi m rest} (seq : m.sequence < 4096) (low : lo ≤ key last m)
    (high : key last m ≤ hi) (h : Held last (key last m + 1) hi rest) : Held last lo hi (m :: rest) := by
  refine ⟨?_,pairwise_cons.mpr ⟨fun x mem => h.low x mem,h.sorted⟩,?_,?_⟩
  · intro x mem
    rcases mem_cons.mp mem with rfl | inside
    · exact seq
    · exact h.seq x inside
  · intro x mem
    rcases mem_cons.mp mem with rfl | inside
    · exact low
    · have := h.low x inside
      omega
  · intro x mem
    rcases mem_cons.mp mem with rfl | inside
    · exact high
    · exact h.high x inside

theorem Held.rebase {last lo hi next last'} (h : Held last lo hi next) (up : last ≤ last')
    (reach : last' ≤ lo) : Held last' lo hi next := by
  have same : ∀ m ∈ next, key last' m = key last m := fun m mem => keyShift up (reach.trans (h.low m mem))
  refine ⟨h.seq,?_,?_,?_⟩
  · refine h.sorted.imp_of_mem ?_
    intro a b ha hb less
    rwa [same a ha,same b hb]
  · intro m mem
    rw [same m mem]
    exact h.low m mem
  · intro m mem
    rw [same m mem]
    exact h.high m mem

theorem Held.length {last lo hi next} (h : Held last lo hi next) : (next.length : Int) ≤ max 0 (hi + 1 - lo) := by
  induction next generalizing lo with
  | nil => exact le_max_left _ _
  | cons m rest ih =>
    have low := h.low m mem_cons_self
    have high := h.high m mem_cons_self
    have tail := ih h.tail
    simp only [length_cons]
    omega

theorem smallerKeys (last) {a b} (sa : a.sequence < 4096) (sb : b.sequence < 4096)
    (near : key last b - key last a < 2048) (near' : key last a - key last b < 2048) :
    seqSmaller a.sequence b.sequence maxSeq = true ↔ key last a < key last b := by
  rw [seqSmallerIff,← keyResidue sa last,← keyResidue sb last,← Int.sub_emod]
  exact smallerIff near near'

theorem leTestKeys (last w) {m} (seq : m.sequence < 4096)
    (near : w - key last m < 2048) (near' : key last m - w < 2048) :
    leTest (seqOf w) m = true ↔ key last m ≤ w := by
  have same : m.sequence = seqOf w ↔ key last m = w := by
    constructor
    · intro h
      have residue := keyResidue seq last
      rw [h,seqOfCast] at residue
      exact equalOfResidue residue (by omega) (by omega)
    · intro h
      have residue := keyResidue seq last
      rw [h,← seqOfCast] at residue
      omega
  have smaller : seqSmaller m.sequence (seqOf w) maxSeq = true ↔ key last m < w := by
    rw [seqSmallerIff,seqOfCast,← keyResidue seq last,← Int.sub_emod]
    exact smallerIff near near'
  simp only [leTest,decide_eq_true_eq,same,smaller]
  omega

theorem stepOneKeys (last v) {m} (seq : m.sequence < 4096) (after : v < key last m) (near : key last m ≤ v + 4096) :
    seqStepOne m.sequence (seqOf v) maxSeq = true ↔ key last m = v + 1 := by
  rw [seqStepOneIff,seqOfCast,← keyResidue seq last]
  constructor
  · intro h
    exact equalOfResidue (m := 4096) (by omega) (by omega) (by omega)
  · intro h
    omega

theorem Held.takeLe {last lo hi next} (h : Held last lo hi next) {w} (below : w - lo < 2048)
    (above : hi - w < 2048) : ∀ m ∈ next.takeWhile (leTest (seqOf w)), key last m ≤ w := by
  intro m mem
  have inside := (takeWhile_sublist _).subset mem
  have low := h.low m inside
  have high := h.high m inside
  exact (leTestKeys last w (h.seq m inside) (by omega) (by omega)).mp (mem_takeWhile_imp mem)

theorem Held.dropLe {last lo hi next} (h : Held last lo hi next) {w} (below : w - lo < 2048)
    (above : hi - w < 2048) : Held last (w + 1) hi (next.dropWhile (leTest (seqOf w))) := by
  induction next generalizing lo with
  | nil => exact Held.nil _ _ _
  | cons m rest ih =>
    have low := h.low m mem_cons_self
    have high := h.high m mem_cons_self
    have seq := h.seq m mem_cons_self
    have test := leTestKeys last w seq (by omega) (by omega)
    by_cases pass : leTest (seqOf w) m = true
    · rw [dropWhile_cons_of_pos pass]
      exact ih h.tail (by omega)
    · rw [dropWhile_cons_of_neg pass]
      have past : ¬ key last m ≤ w := fun le => pass (test.mpr le)
      exact Held.cons seq (by omega) high h.tail

theorem Held.run {last lo hi next} (h : Held last lo hi next) {v} (after : v < lo)
    (near : hi ≤ v + 4096) (otherwise) :
    (∀ m ∈ (runSplit (seqOf v) next).1, v < key last m ∧ key last m ≤ v + (runSplit (seqOf v) next).1.length) ∧
    Held last (v + (runSplit (seqOf v) next).1.length + 2) hi (runSplit (seqOf v) next).2 ∧
    ((runSplit (seqOf v) next).1 = [] ∨
      lastOf otherwise (runSplit (seqOf v) next).1 = seqOf (v + (runSplit (seqOf v) next).1.length)) := by
  induction next generalizing lo v otherwise with
  | nil => exact ⟨by simp [runSplit],Held.nil _ _ _,Or.inl rfl⟩
  | cons m rest ih =>
    have low := h.low m mem_cons_self
    have high := h.high m mem_cons_self
    have seq := h.seq m mem_cons_self
    have test := stepOneKeys last v seq (by omega) (by omega)
    by_cases pass : seqStepOne m.sequence (seqOf v) maxSeq = true
    · have here : key last m = v + 1 := test.mp pass
      have start : m.sequence = seqOf (v + 1) := by
        have residue := keyResidue seq last
        rw [here,← seqOfCast] at residue
        omega
      obtain ⟨keys,keep,ret⟩ := ih (v := v + 1) h.tail (by omega) (by omega) m.sequence
      have split : runSplit (seqOf v) (m :: rest) =
          (m :: (runSplit (seqOf (v + 1)) rest).1,(runSplit (seqOf (v + 1)) rest).2) := by
        rw [← start]
        exact if_pos pass
      rw [split]
      refine ⟨?_,keep.mono (by simp only [length_cons]; omega) (le_refl _),Or.inr ?_⟩
      · intro x mem
        simp only [length_cons]
        rcases mem_cons.mp mem with rfl | inside
        · omega
        · have := keys x inside
          omega
      · rw [lastOfCons]
        rcases ret with none | some
        · rw [none]
          simpa [lastOf] using start
        · rw [some]
          congr 1
          simp only [length_cons]
          omega
    · have past : key last m ≠ v + 1 := fun eq => pass (test.mpr eq)
      have split : runSplit (seqOf v) (m :: rest) = ([],m :: rest) := if_neg pass
      rw [split]
      refine ⟨by simp,?_,Or.inl rfl⟩
      exact Held.cons seq (by simp only [length_nil]; omega) high h.tail

theorem Held.insert {last lo hi next} (h : Held last lo hi next) {m} (seq : m.sequence < 4096)
    (low : lo ≤ key last m) (high : key last m ≤ hi) (near : hi - lo < 2048) {next'}
    (ok : insertScan m next = some next') : Held last lo hi next' := by
  induction next generalizing lo next' with
  | nil =>
    cases Option.some.inj ok
    exact Held.cons seq low high (Held.nil _ _ _)
  | cons x rest ih =>
    have xlow := h.low x mem_cons_self
    have xhigh := h.high x mem_cons_self
    have xseq := h.seq x mem_cons_self
    have test := smallerKeys last xseq seq (by omega) (by omega)
    simp only [insertScan] at ok
    split at ok
    · rename_i smaller
      have less := test.mp smaller
      obtain ⟨tail,ht,rfl⟩ := Option.map_eq_some_iff.mp ok
      exact Held.cons xseq xlow xhigh (ih h.tail (by omega) (by omega) ht)
    · rename_i notSmaller
      split at ok
      · contradiction
      · rename_i different
        cases Option.some.inj ok
        have ge : key last m ≤ key last x := not_lt.mp fun less => notSmaller (test.mpr less)
        have ne : key last m ≠ key last x := by
          intro eq
          have residue := keyResidue seq last
          rw [eq,keyResidue xseq last] at residue
          omega
        have tail : Held last (key last m + 1) hi (x :: rest) :=
          Held.cons xseq (by omega) xhigh h.tail
        exact Held.cons seq low high tail

theorem Held.duplicate {last lo hi next} (h : Held last lo hi next) {m}
    (none : insertScan m next = none) : ∃ x ∈ next, key last x = key last m := by
  induction next generalizing lo with
  | nil => simp [insertScan] at none
  | cons x rest ih =>
    simp only [insertScan] at none
    split at none
    · obtain ⟨y,mem,same⟩ := ih h.tail (Option.map_eq_none_iff.mp none)
      exact ⟨y,mem_cons_of_mem _ mem,same⟩
    · split at none
      · rename_i equal
        exact ⟨x,mem_cons_self,by rw [key,key,equal]⟩
      · contradiction

end RtmpDriver.ReorderHeld
