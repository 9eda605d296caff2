import Mathlib.Order.Lattice
import RtmpDriver.ArrayFront

/-! The exchange sort: place `i` is compared with every place behind it, and the two elements are exchanged as often as
the later one has to go first. The results are for a comparison that comes from a key. -/
namespace RtmpDriver.ExchangeSort
open ArrayFront
universe u v
variable {α : Type u} {κ : Type v}

def pass (first : α → α → Bool) (i : Nat) : Nat → Nat → (Nat → α) → Nat → α
  | 0,_,e => e
  | count + 1,j,e => pass first i count (j + 1) (if first (e j) (e i) then swap e i j else e)

def passes (first : α → α → Bool) (n : Nat) : Nat → Nat → (Nat → α) → Nat → α
  | 0,_,e => e
  | count + 1,i,e => passes first n count (i + 1) (pass first i (n - (i + 1)) (i + 1) e)

def sort (first : α → α → Bool) (n : Nat) (e : Nat → α) : Nat → α := passes first n (n - 1) 0 e

structure Moved (i n : Nat) (e e' : Nat → α) : Prop where
  perm : (front e' n).Perm (front e n)
  before : ∀ k, k < i → e' k = e k
  behind : ∀ k, i ≤ k → k < n → ∃ k', i ≤ k' ∧ k' < n ∧ e' k = e k'

variable {i n : Nat} {e e' e'' : Nat → α}

theorem Moved.refl : Moved i n e e := ⟨List.Perm.refl _,fun _ _ => rfl,fun k low high => ⟨k,low,high,rfl⟩⟩

theorem Moved.trans (one : Moved i n e e') (two : Moved i n e' e'') : Moved i n e e'' := by
  refine ⟨two.perm.trans one.perm,fun k low => (two.before k low).trans (one.before k low),fun k low high => ?_⟩
  obtain ⟨k',low',high',same⟩ := two.behind k low high
  obtain ⟨k'',low'',high'',same'⟩ := one.behind k' low' high'
  exact ⟨k'',low'',high'',same.trans same'⟩

theorem Moved.swap {j} (behind : i < j) (inside : j < n) : Moved i n e (swap e i j) := by
  refine ⟨swapPerm (by omega) inside,fun k low => swapOther (by omega) (by omega),fun k low high => ?_⟩
  by_cases left : k = i
  · exact ⟨j,by omega,inside,left ▸ swapLeft⟩
  by_cases right : k = j
  · exact ⟨i,Nat.le_refl i,by omega,right ▸ swapRight⟩
  · exact ⟨k,low,high,swapOther left right⟩

theorem Moved.weaken {i'} (less : i' ≤ i) (moved : Moved i n e e') : Moved i' n e e' := by
  refine ⟨moved.perm,fun k low => moved.before k (by omega),fun k low high => ?_⟩
  by_cases early : k < i
  · exact ⟨k,low,high,moved.before k early⟩
  · obtain ⟨k',low',high',same⟩ := moved.behind k (by omega) high
    exact ⟨k',by omega,high',same⟩

variable [LinearOrder κ] {key : α → κ} {first : α → α → Bool}

theorem passLargest (byKey : ∀ a b, first a b = true ↔ key b < key a) (count) {j} (behind : i < j)
    (inside : j + count ≤ n) (so : ∀ k, i ≤ k → k < j → key (e k) ≤ key (e i)) :
    Moved i n e (pass first i count j e) ∧
      ∀ k, i ≤ k → k < j + count → key (pass first i count j e k) ≤ key (pass first i count j e i) := by
  induction count generalizing j e with
  | zero => exact ⟨Moved.refl,so⟩
  | succ count ih =>
    rw [pass]
    have places : j + 1 + count = j + (count + 1) := by omega
    by_cases goes : first (e j) (e i) = true
    · rw [if_pos goes]
      have larger := (byKey _ _).mp goes
      have exchanged : Moved i n e (ArrayFront.swap e i j) := Moved.swap behind (by omega)
      have now : ∀ k, i ≤ k → k < j + 1 → key (ArrayFront.swap e i j k) ≤ key (ArrayFront.swap e i j i) := by
        intro k low high
        rw [swapLeft]
        by_cases left : k = i
        · rw [left,swapLeft]
        by_cases right : k = j
        · rw [right,swapRight]
          exact le_of_lt larger
        · rw [swapOther left right]
          exact le_trans (so k low (by omega)) (le_of_lt larger)
      obtain ⟨moved,largest⟩ := ih (by omega) (by omega) now
      exact ⟨exchanged.trans moved,places ▸ largest⟩
    · rw [if_neg goes]
      have now : ∀ k, i ≤ k → k < j + 1 → key (e k) ≤ key (e i) := by
        intro k low high
        by_cases right : k = j
        · rw [right]
          exact not_lt.mp fun less => goes ((byKey _ _).mpr less)
        · exact so k low (by omega)
      obtain ⟨moved,largest⟩ := ih (by omega) (by omega) now
      exact ⟨moved,places ▸ largest⟩

def Settled (key : α → κ) (i n : Nat) (e : Nat → α) : Prop := ∀ k m, k < i → k < m → m < n → key (e m) ≤ key (e k)

theorem Moved.settled (moved : Moved i n e e') (settled : Settled key i n e) : Settled key i n e' := by
  intro k m low less high
  rw [moved.before k low]
  by_cases early : m < i
  · rw [moved.before m early]
    exact settled k m low less high
  · obtain ⟨m',low',high',same⟩ := moved.behind m (by omega) high
    rw [same]
    exact settled k m' low (by omega) high'

theorem passesSettled (byKey : ∀ a b, first a b = true ↔ key b < key a) (count) (inside : i + count < n)
    (settled : Settled key i n e) :
    Moved i n e (passes first n count i e) ∧ Settled key (i + count) n (passes first n count i e) := by
  induction count generalizing i e with
  | zero => exact ⟨Moved.refl,settled⟩
  | succ count ih =>
    have alone : ∀ k, i ≤ k → k < i + 1 → key (e k) ≤ key (e i) := by
      intro k low high
      have here : k = i := by omega
      rw [here]
    obtain ⟨moved,largest⟩ := passLargest (n := n) byKey (n - (i + 1)) (Nat.lt_succ_self i) (by omega) alone
    have next : Settled key (i + 1) n (pass first i (n - (i + 1)) (i + 1) e) := by
      intro k m low less high
      by_cases early : k < i
      · exact moved.settled settled k m early less high
      · have here : k = i := by omega
        rw [here]
        exact largest m (by omega) (by omega)
    obtain ⟨moved',settled'⟩ := ih (by omega) next
    rw [passes]
    refine ⟨moved.trans (moved'.weaken (Nat.le_succ i)),?_⟩
    rwa [← Nat.add_assoc,Nat.add_right_comm]

theorem sortSorts (byKey : ∀ a b, first a b = true ↔ key b < key a) (n e) :
    (front (sort first n e) n).Perm (front e n) ∧ (front (sort first n e) n).Pairwise fun a b => key b ≤ key a := by
  cases n with
  | zero => exact ⟨List.Perm.refl _,List.Pairwise.nil⟩
  | succ n =>
    have start : Settled key 0 (n + 1) e := fun k _ low => absurd low (Nat.not_lt_zero k)
    obtain ⟨moved,settled⟩ := passesSettled byKey n (by omega) start
    refine ⟨moved.perm,pairwiseFront.mpr fun k m less high => ?_⟩
    exact settled k m (by omega) less high

end RtmpDriver.ExchangeSort
