import Mathlib.Data.List.GetD
import RtmpDriver.KeyWrap

/-! What holds of ARC4 at every key and every text: the key block stays a permutation of the bytes, and a text may be
computed piece by piece. -/
namespace RtmpDriver.Arc4Laws
open EapolFrame StepMachine KeyWrap List

def arc4KeyBlockSize : Nat := 256

def Permuted (block : List UInt8) : Prop := block.Perm ((range arc4KeyBlockSize).map UInt8.ofNat)

def Permutation (c : Arc4) : Prop := Permuted c.keyBlock

section Permuted
variable {c : Arc4} {block : List UInt8} {i j : Nat}

theorem swapPerm (left : i < block.length) (right : j < block.length) : (swapIn block i j).Perm block := by
  rw [swapIn,getD_eq_getElem _ _ left,getD_eq_getElem _ _ right]
  exact set_set_perm left right

theorem permutedLength (whole : Permuted block) : block.length = arc4KeyBlockSize := by
  rw [whole.length_eq,length_map,length_range]

theorem scheduleKeeps (key s) (inside : i < arc4KeyBlockSize) (whole : Permuted s.1) :
    Permuted (arc4Schedule key s i).1 := by
  have length := permutedLength whole
  have swapIndex : (s.2 + (s.1.getD i 0).toNat + (key.getD (i % key.length) 0).toNat) % 256 < s.1.length := by
    rw [length]
    exact Nat.mod_lt _ (by decide)
  exact (swapPerm (by omega) swapIndex).trans whole

theorem scheduleRun (key) {indices} (inside : ∀ i ∈ indices, i < arc4KeyBlockSize)
    {s} (whole : Permuted s.1) : Permuted (run (arc4Schedule key) s indices).1 :=
  @runKeeps _ _ (arc4Schedule key) (fun s => Permuted s.1) indices
    (fun s i mem keeps => scheduleKeeps key s (inside i mem) keeps) s whole

theorem initPermutation (key) : Permutation (arc4Init key) := by
  have inside (i : Nat) (mem : i ∈ range 256) : i < arc4KeyBlockSize := mem_range.mp mem
  have start : Permuted ((range 256).map UInt8.ofNat) := by
    unfold Permuted arc4KeyBlockSize
    exact Perm.refl _
  unfold Permutation arc4Init
  generalize (range 256).map UInt8.ofNat = block at start ⊢
  generalize range 256 = indices at inside ⊢
  exact scheduleRun key inside start

theorem nextPermutation (whole : Permutation c) : Permutation (arc4Next c) := by
  have length := permutedLength whole
  refine (swapPerm ?_ ?_).trans whole
  all_goals
    rw [length]
    exact Nat.mod_lt _ (by decide)

theorem discardPermutation (whole : Permutation c) (n) : Permutation (arc4DiscardKeyLength c n) :=
  runKeeps (fun _ _ _ keeps => nextPermutation keeps) whole

end Permuted

section Compute
variable (c : Arc4)

theorem computeAppend (front back) : arc4Compute c (front ++ back) =
    ((arc4Compute (arc4Compute c front).1 back).1,
      (arc4Compute c front).2 ++ (arc4Compute (arc4Compute c front).1 back).2) := by
  induction front generalizing c with
  | nil => rfl
  | cons b rest ih => simp only [cons_append,arc4Compute,ih]

theorem discardSucc (n) : arc4DiscardKeyLength c (n + 1) = arc4DiscardKeyLength (arc4Next c) n := by
  simp only [arc4DiscardKeyLength,run,range_succ_eq_map,foldl_cons,foldl_map]

theorem discardComputes (data) : arc4DiscardKeyLength c data.length = (arc4Compute c data).1 := by
  induction data generalizing c with
  | nil => rfl
  | cons b rest ih => rw [length_cons,discardSucc,ih,arc4Compute]

end Compute

theorem arc4Laws :
    (∀ key : Bytes, 1 ≤ key.length → key.length ≤ 256 → Permutation (arc4Init key)) ∧
      (∀ c, Permutation c → (∀ data, Permutation (arc4Compute c data).1) ∧
        ∀ n, Permutation (arc4DiscardKeyLength c n)) ∧
      (∀ c front back, arc4Compute c (front ++ back) =
        ((arc4Compute (arc4Compute c front).1 back).1,
          (arc4Compute c front).2 ++ (arc4Compute (arc4Compute c front).1 back).2)) ∧
      (∀ c data, arc4DiscardKeyLength c data.length = (arc4Compute c data).1) ∧
      ∀ kek iv gtk wrapped opened,
        tkipGtkKeyUnwrap true kek iv (tkipGtkKeyWrap true kek iv gtk wrapped) opened = gtk := by
  refine ⟨fun key _ _ => initPermutation key,?_,computeAppend,discardComputes,tkipUnwrapWrap⟩
  intro c whole
  constructor
  · intro data
    rw [← discardComputes]
    exact discardPermutation whole data.length
  · exact discardPermutation whole

theorem arc4LawsKey :
    Permutation (arc4Init [1,2,3]) ∧ Permutation (arc4Compute (arc4Init [1,2,3]) [7,7]).1 :=
  ⟨arc4Laws.1 [1,2,3] (by decide) (by decide),
    (arc4Laws.2.1 _ (arc4Laws.1 [1,2,3] (by decide) (by decide))).1 [7,7]⟩

end RtmpDriver.Arc4Laws
