import Mathlib

/-! Tables of numbered entries with an index on the side. `tally` counts the entries from 1 on that satisfy a predicate.
In a `Book` every owner's slot holds the number of its entry, 0 for none, and a counter the number of owned ones. -/
namespace RtmpDriver.SlotTable
open List
universe u
variable {κ : Type u}

def indices (n : Nat) : List Nat := List.range' 1 (n - 1)

theorem memIndices {n i} : i ∈ indices n ↔ 1 ≤ i ∧ i < n := by
  simp only [indices,mem_range'_1]
  omega

theorem nodupIndices (n) : (indices n).Nodup := nodup_range'

def tally (n : Nat) (p : Nat → Bool) : Nat := (indices n).countP p

theorem tallyCongr {n p q} (same : ∀ i, 1 ≤ i → i < n → p i = q i) : tally n p = tally n q := by
  refine countP_congr fun i mem => ?_
  obtain ⟨low,high⟩ := memIndices.mp mem
  rw [same i low high]

theorem countOne {l : List Nat} (nodup : l.Nodup) {i} (mem : i ∈ l) {p q}
    (was : p i = false) (is : q i = true) (rest : ∀ j, j ≠ i → p j = q j) : l.countP q = l.countP p + 1 := by
  induction l with
  | nil => simp at mem
  | cons j l ih =>
    obtain ⟨absent,nodup⟩ := nodup_cons.mp nodup
    rcases mem_cons.mp mem with rfl | inside
    · have same : l.countP q = l.countP p := countP_congr fun k mem => by
        rw [rest k fun eq => absent (eq ▸ mem)]
      simp [was,is,same]
    · have other : p j = q j := rest j fun eq => absent (eq ▸ inside)
      simp only [countP_cons,ih nodup inside,other]
      omega

theorem tallyEnter {n i} (low : 1 ≤ i) (high : i < n) {p q : Nat → Bool}
    (was : p i = false) (is : q i = true) (rest : ∀ j, j ≠ i → p j = q j) : tally n q = tally n p + 1 :=
  countOne (nodupIndices n) (memIndices.mpr ⟨low,high⟩) was is rest

theorem tallyFree {n p} (room : tally n p < n - 1) :
    ∃ i, (indices n).find? (fun i => !p i) = some i ∧ 1 ≤ i ∧ i < n ∧ p i = false := by
  cases found : (indices n).find? (fun i => !p i) with
  | none =>
    have full : ∀ i ∈ indices n, p i = true := by simpa using List.find?_eq_none.mp found
    have all : tally n p = (indices n).length := countP_eq_length.mpr full
    simp only [indices,length_range'] at all
    omega
  | some i =>
    obtain ⟨low,high⟩ := memIndices.mp (mem_of_find?_eq_some found)
    exact ⟨i,rfl,low,high,by simpa using List.find?_some found⟩

structure Book (n : Nat) (owner : Nat → Option κ) (slot : κ → Nat) (count : Int) : Prop where
  counted : count = tally n fun i => (owner i).isSome
  link : ∀ k i, i ≠ 0 → (slot k = i ↔ i < n ∧ owner i = some k)

section
variable {n : Nat} {owner : Nat → Option κ} {slot : κ → Nat} {count : Int}

theorem Book.bound (h : Book n owner slot count) {k} (held : slot k ≠ 0) :
    slot k < n ∧ owner (slot k) = some k := (h.link k (slot k) held).mp rfl

theorem Book.unowned (h : Book n owner slot count) {k} (none : slot k = 0) {i} (pos : 1 ≤ i)
    (high : i < n) : owner i ≠ some k := by
  intro owned
  have := (h.link k i (by omega)).mpr ⟨high,owned⟩
  omega

theorem Book.alone (h : Book n owner slot count) {k k'} (held : slot k ≠ 0) (other : k' ≠ k) :
    slot k' ≠ slot k := by
  intro same
  have owned := (h.link k' (slot k) held).mp same
  exact other (Option.some.inj (owned.2.symm.trans (h.bound held).2))

theorem Book.apart (h : Book n owner slot count) {i} (pos : 1 ≤ i) (free : owner i = Option.none) (k) :
    slot k ≠ i := by
  intro same
  have owned := ((h.link k i (by omega)).mp same).2
  rw [free] at owned
  cases owned

variable [DecidableEq κ]

theorem Book.assign (h : Book n owner slot count) {k i} (none : slot k = 0) (low : 1 ≤ i)
    (high : i < n) (free : owner i = Option.none) :
    Book n (Function.update owner i (some k)) (Function.update slot k i) (count + 1) := by
  refine ⟨?_,?_⟩
  · rw [tallyEnter low high (p := fun j => (owner j).isSome) (by simp [free]) (by simp)]
    · have := h.counted
      push_cast
      omega
    · intro j other
      simp [other]
  · intro k' j pos
    by_cases key : k' = k
    · subst key
      by_cases entry : j = i
      · subst entry
        simp [high]
      · have absent : ¬(j < n ∧ owner j = some k') := fun ⟨inside,owned⟩ => h.unowned none (by omega) inside owned
        simp [entry,Ne.symm entry,absent]
    · have old := h.link k' j pos
      by_cases entry : j = i
      · subst entry
        simp [key,old,free,Ne.symm key]
      · simp [key,entry,old]

theorem Book.release (h : Book n owner slot count) {k} (held : slot k ≠ 0) :
    Book n (Function.update owner (slot k) Option.none) (Function.update slot k 0) (count - 1) := by
  obtain ⟨high,owned⟩ := h.bound held
  refine ⟨?_,?_⟩
  · have before := tallyEnter (by omega) high (p := fun j => (Function.update owner (slot k) Option.none j).isSome)
      (q := fun j => (owner j).isSome) (by simp) (by simp [owned]) (by intro j other; simp [other])
    have := h.counted
    omega
  · intro k' j pos
    have old := h.link k' j pos
    by_cases key : k' = k
    · subst key
      have gone : (0 : Nat) = j ↔ False := ⟨fun zero => pos zero.symm,False.elim⟩
      by_cases entry : j = slot k'
      · subst entry
        simp [gone]
      · have absent : ¬(j < n ∧ owner j = some k') := fun both => entry (old.mpr both).symm
        simp [gone,entry,absent]
    · by_cases entry : j = slot k
      · subst entry
        have other : slot k' ≠ slot k := by
          intro same
          have both := (old.mp same).2
          rw [owned] at both
          exact key (Option.some.inj both).symm
        simp [key,other]
      · simp [key,entry,old]

end

theorem slotUpdate {α : Type u} (owners) (slots : α → Nat → Nat) {w t i a}
    (changed : slots a = Function.update (slots (owners w)) t i) :
    (fun k : Nat × Nat => slots (Function.update owners w a k.1) k.2) =
      Function.update (fun k : Nat × Nat => slots (owners k.1) k.2) (w,t) i := by
  funext ⟨v,s⟩
  by_cases owner : v = w
  · subst owner
    by_cases key : s = t
    · subst key
      simp [changed]
    · simp [changed,key]
  · simp [owner]

theorem slotSame {α : Type u} (owners) (slots : α → Nat → Nat) {w a} (same : slots a = slots (owners w)) :
    (fun k : Nat × Nat => slots (Function.update owners w a k.1) k.2) = fun k => slots (owners k.1) k.2 := by
  funext ⟨v,s⟩
  by_cases owner : v = w
  · subst owner
    simp [same]
  · simp [owner]

theorem sumUpdate {l : List Nat} (nodup : l.Nodup) {i : Nat} (mem : i ∈ l) {f g : Nat → Nat}
    (rest : ∀ j, j ≠ i → f j = g j) : (l.map g).sum + f i = (l.map f).sum + g i := by
  induction l with
  | nil => simp at mem
  | cons j l ih =>
    obtain ⟨absent,nodup⟩ := nodup_cons.mp nodup
    simp only [map_cons,sum_cons]
    rcases mem_cons.mp mem with rfl | inside
    · have same : l.map f = l.map g := map_congr_left fun k mem => rest k fun eq => absent (eq ▸ mem)
      rw [same]
      omega
    · have other : f j = g j := rest j fun eq => absent (eq ▸ inside)
      have := ih nodup inside
      omega

end RtmpDriver.SlotTable
