import Mathlib.Data.List.Dedup
import Mathlib.Data.List.Perm.Subperm

/-! Lists that grow at their end by what is not in them yet. `distinct xs` has each element of `xs` once, in the order
of the first occurrences. -/
namespace RtmpDriver.DistinctList
open List
universe u
variable {α : Type u} [DecidableEq α]

def addNew (seen : List α) (a : α) : List α := if a ∈ seen then seen else seen ++ [a]

def distinct (xs : List α) : List α := xs.foldl addNew []

variable {seen xs : List α} {a b : α}

theorem addNewMem : b ∈ addNew seen a ↔ b ∈ seen ∨ b = a := by
  unfold addNew
  split
  next old => exact ⟨.inl,fun either => either.elim id fun same => same ▸ old⟩
  next => rw [mem_append,mem_singleton]

theorem addNewNodup (nodup : seen.Nodup) : (addNew seen a).Nodup := by
  unfold addNew
  split
  next => exact nodup
  next fresh => exact List.Nodup.append nodup (nodup_singleton a) (by simpa using fresh)

theorem foldMem : b ∈ xs.foldl addNew seen ↔ b ∈ seen ∨ b ∈ xs := by
  induction xs generalizing seen with
  | nil => simp
  | cons a xs ih => rw [foldl_cons,ih,addNewMem,mem_cons,or_assoc]

theorem foldNodup (nodup : seen.Nodup) : (xs.foldl addNew seen).Nodup := by
  induction xs generalizing seen with
  | nil => exact nodup
  | cons a xs ih => exact ih (addNewNodup nodup)

theorem mem : b ∈ distinct xs ↔ b ∈ xs := by simp [distinct,foldMem]

theorem nodup (xs : List α) : (distinct xs).Nodup := foldNodup nodup_nil

theorem snoc : distinct (xs ++ [a]) = addNew (distinct xs) a := foldl_concat _ _ _ _

theorem eqNil : distinct xs = [] ↔ xs = [] := by
  simp only [eq_nil_iff_forall_not_mem,mem]

theorem lengthDedup (xs : List α) : (distinct xs).length = xs.dedup.length :=
  ((perm_ext_iff_of_nodup (nodup xs) xs.nodup_dedup).mpr fun _ => mem.trans mem_dedup.symm).length_eq

theorem lengthMono (xs ys : List α) : (distinct xs).length ≤ (distinct (xs ++ ys)).length :=
  (subperm_of_subset (nodup xs) fun _ old => mem.mpr (mem_append_left ys (mem.mp old))).length_le

theorem lengthLe (xs : List α) : (distinct xs).length ≤ xs.length :=
  (lengthDedup xs).symm ▸ (dedup_sublist xs).length_le

end RtmpDriver.DistinctList
