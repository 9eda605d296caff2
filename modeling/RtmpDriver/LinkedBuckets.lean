import Mathlib.Data.Fintype.Card
import Mathlib.Data.List.Nodup

/-! Intrusive linked lists sharing one set of nodes: every bucket has a head and every node one link. Loops run on fuel
and return `none` when it is used up. `Chain` is the list behind a pointer, `Holds` all the buckets at once. -/
namespace RtmpDriver.LinkedBuckets
open List
open Function (update update_of_ne update_self)
universe u v
variable {κ : Type u} {α : Type v}

structure Links (κ : Type u) (α : Type v) where
  head : κ → Option α
  next : α → Option α

section
variable [DecidableEq κ] [DecidableEq α]

def Links.setHead (links : Links κ α) (k : κ) (p : Option α) : Links κ α :=
  {links with head := Function.update links.head k p}

def Links.setNext (links : Links κ α) (a : α) (p : Option α) : Links κ α :=
  {links with next := Function.update links.next a p}

def seek (next : α → Option α) (stop : α → Bool) : Nat → Option α → Option (Option α)
  | 0,_ => none
  | _ + 1,none => some none
  | fuel + 1,some a => if stop a then some (some a) else seek next stop fuel (next a)

def last (next : α → Option α) : Nat → α → Option α
  | 0,_ => none
  | fuel + 1,a =>
    match next a with
    | none => some a
    | some b => last next fuel b

def Links.append (links : Links κ α) (fuel : Nat) (k : κ) (a : α) : Option (Links κ α) :=
  match links.head k with
  | none => some (links.setHead k (some a))
  | some b => (last links.next fuel b).map fun z => links.setNext z (some a)

def Links.bypass (links : Links κ α) (k : κ) (a : α) : Option α → Links κ α
  | none => links.setHead k (links.next a)
  | some z => links.setNext z (links.next a)

/- The walk keeps the node before the probe; a list without `a` is left as it is. -/
def Links.unlinkFrom (links : Links κ α) (k : κ) (a : α) : Nat → Option α → Option α → Option (Links κ α)
  | 0,_,_ => none
  | _ + 1,_,none => some links
  | fuel + 1,prev,some probe =>
    if probe = a then some (links.bypass k a prev)
    else links.unlinkFrom k a fuel (some probe) (links.next probe)

def Links.unlink (links : Links κ α) (fuel : Nat) (k : κ) (a : α) : Option (Links κ α) :=
  links.unlinkFrom k a fuel none (links.head k)
end

def Chain (next : α → Option α) : Option α → List α → Prop
  | p,[] => p = none
  | p,a :: l => p = some a ∧ Chain next (next a) l

section
variable {next next' : α → Option α} {p : Option α} {l : List α} {a : α}

theorem Chain.unique {l'} (h : Chain next p l) (h' : Chain next p l') : l = l' := by
  induction l generalizing p l' with
  | nil =>
    cases l' with
    | nil => rfl
    | cons b l' => exact absurd (h.symm.trans h'.1) (by simp)
  | cons a l ih =>
    cases l' with
    | nil => exact absurd (h.1.symm.trans h') (by simp)
    | cons b l' =>
      have same : a = b := Option.some.inj (h.1.symm.trans h'.1)
      subst same
      rw [ih h.2 h'.2]

theorem Chain.suffix {before} (h : Chain next p (before ++ a :: l)) : Chain next (next a) l := by
  induction before generalizing p with
  | nil => exact h.2
  | cons b before ih => exact ih h.2

theorem Chain.nodup (h : Chain next p l) : l.Nodup := by
  induction l generalizing p with
  | nil => exact nodup_nil
  | cons a l ih =>
    refine nodup_cons.mpr ⟨?_,ih h.2⟩
    intro again
    obtain ⟨before,after,split⟩ := append_of_mem again
    have rest : Chain next (next a) l := h.2
    have shorter : Chain next (next a) after := Chain.suffix (split ▸ rest)
    have same := congrArg List.length (rest.unique shorter)
    have longer := congrArg List.length split
    simp only [length_append,length_cons] at longer
    omega

theorem Chain.congr (h : Chain next p l) (same : ∀ a ∈ l, next' a = next a) : Chain next' p l := by
  induction l generalizing p with
  | nil => exact h
  | cons a l ih =>
    refine ⟨h.1,?_⟩
    rw [same a mem_cons_self]
    exact ih h.2 fun b mem => same b (mem_cons_of_mem a mem)

theorem Chain.ends {z} (h : Chain next p (l ++ [z])) : next z = none := h.suffix

theorem Chain.inner {z} (h : Chain next p (l ++ [z])) (mem : a ∈ l) : next a ≠ none := by
  obtain ⟨before,after,rfl⟩ := append_of_mem mem
  rw [append_assoc,cons_append] at h
  have rest := h.suffix
  cases after with
  | nil => rw [rest.1]; simp
  | cons b after => rw [rest.1]; simp

theorem Chain.extend {z} (h : Chain next p (l ++ [z])) (same : ∀ b ∈ l, next' b = next b)
    (link : next' z = some a) (stop : next' a = none) : Chain next' p (l ++ [z] ++ [a]) := by
  induction l generalizing p with
  | nil => exact ⟨h.1,link,stop⟩
  | cons b l ih =>
    refine ⟨h.1,?_⟩
    rw [same b mem_cons_self]
    exact ih h.2 fun c mem => same c (mem_cons_of_mem b mem)

theorem Chain.skip {z r} (h : Chain next p (l ++ [z] ++ a :: r))
    (same : ∀ b ∈ l ++ r, next' b = next b) (link : next' z = next a) : Chain next' p (l ++ [z] ++ r) := by
  induction l generalizing p with
  | nil =>
    refine ⟨h.1,?_⟩
    rw [link]
    exact h.2.2.congr fun b mem => same b mem
  | cons b l ih =>
    refine ⟨h.1,?_⟩
    rw [same b mem_cons_self]
    exact ih h.2 fun c mem => same c (mem_cons_of_mem b mem)

theorem seekChain (stop) {fuel} (h : Chain next p l) (enough : l.length < fuel) :
    seek next stop fuel p = some (l.find? stop) := by
  induction l generalizing p fuel with
  | nil =>
    obtain ⟨fuel,rfl⟩ := Nat.exists_eq_succ_of_ne_zero (Nat.ne_zero_of_lt enough)
    rw [show p = none from h]
    rfl
  | cons a l ih =>
    obtain ⟨fuel,rfl⟩ := Nat.exists_eq_succ_of_ne_zero (Nat.ne_zero_of_lt enough)
    rw [h.1,seek,List.find?_cons]
    cases stop a with
    | true => rfl
    | false => exact ih h.2 (Nat.lt_of_succ_lt_succ enough)

theorem seekNever {stop} (inside : α → Prop)
    (stays : ∀ a, inside a → stop a = false ∧ ∃ b, next a = some b ∧ inside b) (fuel : Nat) (start : inside a) :
    seek next stop fuel (some a) = none := by
  induction fuel generalizing a with
  | zero => rfl
  | succ fuel ih =>
    obtain ⟨other,b,link,again⟩ := stays a start
    rw [seek,other,link]
    exact ih again

theorem lastChain {z b fuel} (h : Chain next (some b) (l ++ [z])) (enough : l.length < fuel) :
    last next fuel b = some z := by
  induction l generalizing b fuel with
  | nil =>
    obtain ⟨fuel,rfl⟩ := Nat.exists_eq_succ_of_ne_zero (Nat.ne_zero_of_lt enough)
    have same : b = z := Option.some.inj h.1
    subst same
    rw [last,show next b = none from h.2]
  | cons c l ih =>
    obtain ⟨fuel,rfl⟩ := Nat.exists_eq_succ_of_ne_zero (Nat.ne_zero_of_lt enough)
    have same : b = c := Option.some.inj h.1
    subst same
    have rest : Chain next (next b) (l ++ [z]) := h.2
    cases after : next b with
    | none =>
      rw [after] at rest
      cases l with
      | nil => exact absurd rest.1 (by simp)
      | cons d l => exact absurd rest.1 (by simp)
    | some d =>
      rw [last,after]
      exact ih (after ▸ rest) (Nat.lt_of_succ_lt_succ enough)
end

section
variable [DecidableEq κ] [DecidableEq α] {links : Links κ α} {k : κ} {a : α}

theorem unlinkFromChain {l r fuel prev p}
    (h : Chain links.next p (l ++ a :: r)) (fresh : a ∉ l) (enough : l.length < fuel) :
    links.unlinkFrom k a fuel prev p = some (links.bypass k a (l.getLast?.or prev)) := by
  induction l generalizing p prev fuel with
  | nil =>
    obtain ⟨fuel,rfl⟩ := Nat.exists_eq_succ_of_ne_zero (Nat.ne_zero_of_lt enough)
    rw [show p = some a from h.1,Links.unlinkFrom]
    simp
  | cons b l ih =>
    obtain ⟨fuel,rfl⟩ := Nat.exists_eq_succ_of_ne_zero (Nat.ne_zero_of_lt enough)
    have other : b ≠ a := fun same => fresh (same ▸ mem_cons_self)
    have rest : links.unlinkFrom k a fuel (some b) (links.next b) = _ :=
      ih h.2 (fun mem => fresh (mem_cons_of_mem b mem)) (Nat.lt_of_succ_lt_succ enough)
    rw [show p = some b from h.1,Links.unlinkFrom,if_neg other,rest,List.getLast?_cons]
    cases l.getLast? <;> rfl

end

structure Links.Holds (links : Links κ α) (rows : κ → List α) : Prop where
  chain : ∀ k, Chain links.next (links.head k) (rows k)
  apart : ∀ j k a, a ∈ rows j → a ∈ rows k → j = k

section
variable {links links' : Links κ α} {rows : κ → List α} {k : κ} {a : α} {fuel : Nat}

theorem Links.Holds.short [Fintype α] (h : links.Holds rows) (k) : (rows k).length ≤ Fintype.card α :=
  (h.chain k).nodup.length_le_card

variable [DecidableEq κ]

theorem Links.Holds.replace (h : links.Holds rows) {row} (chain : Chain links'.next (links'.head k) row)
    (heads : ∀ j, j ≠ k → links'.head j = links.head j)
    (nexts : ∀ j, j ≠ k → ∀ b ∈ rows j, links'.next b = links.next b)
    (alone : ∀ j, j ≠ k → ∀ b ∈ row, b ∉ rows j) : links'.Holds (update rows k row) := by
  constructor
  · intro j
    rcases eq_or_ne j k with rfl | other
    · simpa using chain
    · rw [update_of_ne other,heads j other]
      exact (h.chain j).congr (nexts j other)
  · intro i j b left right
    rcases eq_or_ne i k with rfl | first
    · rcases eq_or_ne j i with rfl | second
      · rfl
      · rw [update_self] at left
        rw [update_of_ne second] at right
        exact absurd right (alone j second b left)
    · rw [update_of_ne first] at left
      rcases eq_or_ne j k with rfl | second
      · rw [update_self] at right
        exact absurd left (alone i first b right)
      · rw [update_of_ne second] at right
        exact h.apart i j b left right

variable [DecidableEq α]

section
variable (h : links.Holds rows) (enough : (rows k).length ≤ fuel)
include h enough

theorem Links.Holds.appended :
    (rows k = [] ∧ links.append fuel k a = some (links.setHead k (some a))) ∨
    ∃ l z, rows k = l ++ [z] ∧ links.append fuel k a = some (links.setNext z (some a)) := by
  have chain := h.chain k
  rcases eq_nil_or_concat (rows k) with empty | ⟨l,z,row⟩
  · rw [empty] at chain
    exact .inl ⟨empty,by rw [Links.append,show links.head k = none from chain]⟩
  · rw [row] at chain enough
    rw [concat_eq_append] at row chain enough
    refine .inr ⟨l,z,row,?_⟩
    cases first : links.head k with
    | none =>
      rw [first] at chain
      cases l <;> exact absurd chain.1 (by simp)
    | some b =>
      rw [first] at chain
      rw [length_append,length_singleton] at enough
      have reached := lastChain chain (Nat.lt_of_succ_le enough)
      simp only [Links.append,first,reached,Option.map_some]

theorem Links.Holds.append (fresh : ∀ j, a ∉ rows j) (loose : links.next a = none) :
    ∃ links', links.append fuel k a = some links' ∧
      links'.Holds (update rows k (rows k ++ [a])) ∧ ∀ b, (∀ j, b ∉ rows j) → links'.next b = links.next b := by
  have alone : ∀ j, j ≠ k → ∀ b ∈ rows k ++ [a], b ∉ rows j := by
    intro j other b mem
    rcases mem_append.mp mem with old | new
    · exact fun again => other (h.apart j k b again old)
    · rw [mem_singleton.mp new]
      exact fresh j
  rcases h.appended (a := a) enough with ⟨empty,result⟩ | ⟨l,z,row,result⟩
  · refine ⟨_,result,h.replace ?_ ?_ ?_ alone,fun b _ => rfl⟩
    · rw [empty]
      exact ⟨update_self ..,loose⟩
    · exact fun j other => update_of_ne other ..
    · exact fun j other b mem => rfl
  · have member : z ∈ rows k := row ▸ mem_append_right l mem_cons_self
    have chain := h.chain k
    have nodup := chain.nodup
    rw [row] at chain nodup
    have distinct : ∀ b ∈ l, b ≠ z := fun b mem same =>
      (nodup_append.mp nodup).2.2 b mem z mem_cons_self same
    refine ⟨_,result,h.replace ?_ ?_ ?_ alone,?_⟩
    · rw [row]
      refine chain.extend (fun b mem => update_of_ne (distinct b mem) ..) (update_self ..) ?_
      have other : a ≠ z := fun same => fresh k (same ▸ member)
      exact (update_of_ne other ..).trans loose
    · exact fun j other => rfl
    · intro j other b mem
      have apart : b ≠ z := fun same => other (h.apart j k b mem (same ▸ member))
      exact update_of_ne apart ..
    · intro b outside
      have apart : b ≠ z := fun same => outside k (same ▸ member)
      exact update_of_ne apart ..

theorem Links.Holds.appendStale (fresh : a ∉ rows k) (stale : links.next a ≠ none)
    (result : links.append fuel k a = some links')
    {row} (members : ∀ b, b ∈ row ↔ b ∈ rows k ∨ b = a) : ¬ Chain links'.next (links'.head k) row := by
  intro chain
  obtain ⟨l',z',row'⟩ : ∃ l z, row = l ++ [z] := by
    rcases eq_nil_or_concat row with empty | ⟨l,z,concat⟩
    · exact absurd ((members a).mpr (.inr rfl)) (by simp [empty])
    · exact ⟨l,z,by simpa using concat⟩
  have stop : links'.next z' = none := (row' ▸ chain).ends
  have mem : z' ∈ rows k ∨ z' = a := (members z').mp (by simp [row'])
  rcases h.appended (a := a) enough with ⟨empty,last⟩ | ⟨l,z,old,last⟩
  · cases Option.some.inj (result.symm.trans last)
    rcases mem with inside | rfl
    · simp [empty] at inside
    · exact stale stop
  · cases Option.some.inj (result.symm.trans last)
    have chain := old ▸ h.chain k
    rcases eq_or_ne z' z with rfl | other
    · exact absurd ((update_self ..).symm.trans stop) (by simp)
    · have same : links.next z' = none := (update_of_ne other ..).symm.trans stop
      rcases mem with inside | rfl
      · rw [old] at inside
        exact chain.inner (by simpa [other] using inside) same
      · exact stale same

theorem Links.Holds.unlink (mem : a ∈ rows k) :
    ∃ links', links.unlink fuel k a = some links' ∧ links'.Holds (update rows k ((rows k).erase a)) ∧
      links'.next a = links.next a ∧ ∀ b, (∀ j, b ∉ rows j) → links'.next b = links.next b := by
  obtain ⟨l,r,row,fresh⟩ : ∃ l r, rows k = l ++ a :: r ∧ a ∉ l := eq_append_cons_of_mem mem
  have chain := h.chain k
  have nodup := chain.nodup
  have erased : (rows k).erase a = l ++ r := by
    rw [row,erase_append_right _ fresh,erase_cons_head]
  have alone : ∀ j, j ≠ k → ∀ b ∈ l ++ r, b ∉ rows j := by
    intro j other b mem again
    exact other (h.apart j k b again (mem_of_mem_erase (erased ▸ mem)))
  have short : l.length < fuel := by
    simp only [row,length_append,length_cons] at enough
    omega
  rw [row] at chain nodup
  have result : links.unlink fuel k a = some (links.bypass k a l.getLast?) := by
    have walk : links.unlinkFrom k a fuel none (links.head k) = _ := unlinkFromChain chain fresh short
    simpa [Links.unlink] using walk
  rw [erased]
  rcases eq_nil_or_concat l with rfl | ⟨l,z,rfl⟩
  · refine ⟨_,result,h.replace ?_ ?_ ?_ alone,rfl,fun b _ => rfl⟩
    · have first : (links.setHead k (links.next a)).head k = links.next a := update_self ..
      exact first ▸ chain.2
    · exact fun j other => update_of_ne other ..
    · exact fun j other b mem => rfl
  · rw [concat_eq_append] at row chain nodup fresh result alone ⊢
    have member : z ∈ rows k := by simp [row]
    have bypass : links.bypass k a (l ++ [z]).getLast? = links.setNext z (links.next a) := by
      rw [getLast?_concat]
      rfl
    rw [bypass] at result
    have others : ∀ b ∈ l ++ r, b ≠ z := by
      intro b inside same
      subst same
      simp only [append_assoc,singleton_append] at nodup
      have split := nodup_middle.mp nodup
      exact (nodup_cons.mp split).1 (by
        rcases mem_append.mp inside with left | right
        · exact mem_append_left _ left
        · exact mem_append_right _ (mem_cons_of_mem a right))
    refine ⟨_,result,h.replace ?_ ?_ ?_ alone,?_,?_⟩
    · exact chain.skip (fun b mem => update_of_ne (others b mem) ..) (update_self ..)
    · exact fun j other => rfl
    · intro j other b mem
      have apart : b ≠ z := fun same => other (h.apart j k b mem (same ▸ member))
      exact update_of_ne apart ..
    · exact update_of_ne (fun same => fresh (by simp [same])) ..
    · intro b outside
      have apart : b ≠ z := fun same => outside k (same ▸ member)
      exact update_of_ne apart ..

end

end
end RtmpDriver.LinkedBuckets
