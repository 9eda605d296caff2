import Mathlib.Data.List.Nodup
import Mathlib.Data.List.Perm.Basic
import Mathlib.Data.List.Range
import Mathlib.Logic.Equiv.Basic

/-! Arrays as functions from their indices, of which the first `n` elements are in use. `front e n` is the list of
these. -/
namespace RtmpDriver.ArrayFront
open List
universe u v
variable {α : Type u} {β : Type v}

def front (e : Nat → α) (n : Nat) : List α := (range n).map e

def set (e : Nat → α) (i : Nat) (a : α) : Nat → α := fun k => if k = i then a else e k

def swap (e : Nat → α) (i j : Nat) : Nat → α := fun k => e (Equiv.swap i j k)

variable {e e' : Nat → α} {n i j k : Nat} {a : α}

@[simp] theorem setSame : set e i a i = a := if_pos rfl

theorem setOther (other : k ≠ i) : set e i a k = e k := if_neg other

@[simp] theorem frontLength : (front e n).length = n := by simp [front]

theorem frontGet (inside : k < n) : (front e n)[k]? = some (e k) := by simp [front,inside]

theorem frontCongr (same : ∀ k, k < n → e k = e' k) : front e n = front e' n :=
  map_congr_left fun k mem => same k (mem_range.mp mem)

theorem frontSucc : front e (n + 1) = front e n ++ [e n] := by
  rw [front,range_succ,map_append]
  rfl

theorem frontDropLast : (front e n).dropLast = front e (n - 1) := by
  cases n with
  | zero => rfl
  | succ n => rw [frontSucc,dropLast_concat,Nat.add_sub_cancel]

theorem frontSet (b) : front (set e i b) n = (front e n).set i b := by
  apply ext_getElem?
  intro k
  rw [getElem?_set]
  by_cases inside : k < n
  · rw [frontGet inside]
    split
    next here =>
      subst here
      rw [if_pos (by simpa using inside),setSame]
    next other => rw [frontGet inside,setOther (Ne.symm other)]
  · have outside : ∀ f : Nat → α, (front f n)[k]? = none := by
      intro f
      apply getElem?_eq_none
      rw [frontLength]
      omega
    rw [outside,outside]
    split
    next here =>
      subst here
      rw [if_neg (by simpa using inside)]
    next => rfl

theorem frontBetween {l r} (parts : front e n = l ++ a :: r) : l.length < n ∧ e l.length = a := by
  have size := congrArg length parts
  rw [frontLength,length_append,length_cons] at size
  have inside : l.length < n := by omega
  have here := frontGet (e := e) inside
  rw [parts,getElem?_append_right (Nat.le_refl _),Nat.sub_self] at here
  exact ⟨inside,(Option.some.inj here).symm⟩

theorem memFront : a ∈ front e n ↔ ∃ k, k < n ∧ e k = a := by simp [front]

theorem frontErase (inside : i < n) (before : ∀ k, k < i → e' k = e k)
    (behind : ∀ k, i ≤ k → k + 1 < n → e' k = e (k + 1)) : front e' (n - 1) = (front e n).eraseIdx i := by
  apply ext_getElem?
  intro k
  rw [getElem?_eraseIdx]
  by_cases last : k < n - 1
  · rw [frontGet last]
    split
    next low => rw [frontGet (by omega),before k low]
    next high => rw [frontGet (by omega),behind k (by omega) (by omega)]
  · have none : (front e' (n - 1))[k]? = none := getElem?_eq_none (by simpa using last)
    rw [none,if_neg (by omega)]
    exact (getElem?_eq_none (by simp; omega)).symm

theorem pairwiseFront {r} : (front e n).Pairwise r ↔ ∀ k m, k < m → m < n → r (e k) (e m) := by
  rw [pairwise_iff_getElem]
  constructor
  · intro pairs k m less inside
    simpa [front] using pairs k m (by simp; omega) (by simpa using inside) less
  · intro pairs k m _ inside less
    simpa [front] using pairs k m less (by simpa using inside)

theorem swapLeft : swap e i j i = e j := by simp [swap]

theorem swapRight : swap e i j j = e i := by simp [swap]

theorem swapOther (left : k ≠ i) (right : k ≠ j) : swap e i j k = e k := by
  rw [swap,Equiv.swap_apply_of_ne_of_ne left right]

theorem swapInside (left : i < n) (right : j < n) (inside : k < n) : Equiv.swap i j k < n := by
  rw [Equiv.swap_apply_def]
  split
  · exact right
  split
  · exact left
  · exact inside

theorem swapPerm (left : i < n) (right : j < n) : (front (swap e i j) n).Perm (front e n) := by
  have indices : ((range n).map (Equiv.swap i j)).Perm (range n) := by
    rw [perm_ext_iff_of_nodup (List.Nodup.map (Equiv.swap i j).injective nodup_range) nodup_range]
    intro k
    rw [mem_map,mem_range]
    constructor
    · rintro ⟨m,inside,rfl⟩
      exact swapInside left right (mem_range.mp inside)
    · intro inside
      exact ⟨Equiv.swap i j k,mem_range.mpr (swapInside left right inside),Equiv.swap_apply_self i j k⟩
  have image : front (swap e i j) n = ((range n).map (Equiv.swap i j)).map e := by
    rw [map_map]
    rfl
  rw [image]
  exact indices.map e

end RtmpDriver.ArrayFront
