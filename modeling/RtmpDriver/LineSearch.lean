import Mathlib.Data.List.Infix
import Mathlib.Data.List.TakeWhile

/-! Search in a text of lines. `findSub p s` is the part of `s` from the first occurrence of `p` on, and `linesBehind
nl s` are the lines of `s` that a separator `nl` stands before. -/
namespace RtmpDriver.LineSearch
open List
universe u
variable {α : Type u} [DecidableEq α] {p s r : List α} {nl : α}

def findSub (p : List α) : List α → Option (List α)
  | [] => if p = [] then some [] else none
  | c :: s => if p <+: c :: s then some (c :: s) else findSub p s

def linesBehind (nl : α) : List α → List (List α)
  | [] => []
  | c :: s => if c = nl then s.takeWhile (· ≠ nl) :: linesBehind nl s else linesBehind nl s

theorem findSubSome (found : findSub p s = some r) : p <+: r ∧ r <:+ s := by
  induction s with
  | nil =>
    rw [findSub] at found
    split at found
    next empty =>
      obtain rfl := Option.some.inj found
      exact ⟨empty ▸ prefix_rfl,suffix_rfl⟩
    next => exact absurd found (by simp)
  | cons c s ih =>
    rw [findSub] at found
    split at found
    next here =>
      obtain rfl := Option.some.inj found
      exact ⟨here,suffix_rfl⟩
    next =>
      obtain ⟨first,last⟩ := ih found
      exact ⟨first,last.trans (suffix_cons c s)⟩

theorem findSubShort (short : s.length < p.length) : findSub p s = none := by
  rw [Option.eq_none_iff_forall_ne_some]
  intro r found
  obtain ⟨first,last⟩ := findSubSome found
  exact absurd (Nat.le_trans first.length_le last.length_le) (Nat.not_le.mpr short)

theorem findSubInfix (within : p <:+: s) : ∃ r, findSub p s = some r := by
  induction s with
  | nil =>
    rw [infix_nil.mp within]
    exact ⟨[],rfl⟩
  | cons c s ih =>
    rw [findSub]
    split
    next => exact ⟨_,rfl⟩
    next later => exact ih ((infix_cons_iff.mp within).resolve_left later)

theorem findSubSkip {a l} (other : a ∉ l) : findSub (a :: p) (l ++ s) = findSub (a :: p) s := by
  induction l with
  | nil => rfl
  | cons c l ih =>
    have differs : ¬a :: p <+: c :: (l ++ s) := fun here =>
      other ((cons_prefix_cons.mp here).1 ▸ mem_cons_self ..)
    rw [cons_append,findSub,if_neg differs]
    exact ih fun mem => other (mem_cons_of_mem c mem)

theorem prefixTakeWhile (clean : nl ∉ p) : p <+: s.takeWhile (· ≠ nl) ↔ p <+: s := by
  refine ⟨fun here => here.trans ⟨_,takeWhile_append_dropWhile⟩,?_⟩
  rintro ⟨t,rfl⟩
  have each : ∀ c ∈ p, decide (c ≠ nl) = true := fun c mem => decide_eq_true fun same => clean (same ▸ mem)
  rw [takeWhile_append_of_pos each]
  exact prefix_append ..

theorem findLine (clean : nl ∉ p) :
    (findSub (nl :: p) s).map (fun r => r.tail.takeWhile (· ≠ nl)) = (linesBehind nl s).find? (p <+: ·) := by
  induction s with
  | nil => rfl
  | cons c s ih =>
    rw [findSub,linesBehind]
    by_cases start : c = nl
    · subst start
      rw [if_pos rfl]
      by_cases here : p <+: s
      · rw [if_pos (cons_prefix_cons.mpr ⟨rfl,here⟩),
          List.find?_cons_of_pos (by simpa using (prefixTakeWhile clean).mpr here)]
        rfl
      · rwa [if_neg fun both => here (cons_prefix_cons.mp both).2,
          List.find?_cons_of_neg (by simpa using fun first => here ((prefixTakeWhile clean).mp first))]
    · rwa [if_neg start,if_neg fun both => start (cons_prefix_cons.mp both).1.symm]

theorem findSeparator (nl) (s : List α) : findSub [nl] s = none ∧ s.takeWhile (· ≠ nl) = s ∨
    ∃ r, findSub [nl] s = some r ∧ s = s.takeWhile (· ≠ nl) ++ r := by
  induction s with
  | nil => exact .inl ⟨rfl,rfl⟩
  | cons c s ih =>
    rw [findSub]
    by_cases start : c = nl
    · rw [if_pos (cons_prefix_cons.mpr ⟨start.symm, nil_prefix⟩),
        takeWhile_cons_of_neg (by simpa using start)]
      exact .inr ⟨_,rfl,rfl⟩
    · rw [if_neg fun both => start (cons_prefix_cons.mp both).1.symm,
        takeWhile_cons_of_pos (by simpa using start)]
      rcases ih with ⟨none',whole⟩ | ⟨r,found,parts⟩
      · exact .inl ⟨none',by rw [whole]⟩
      · exact .inr ⟨r,found,by rw [cons_append,← parts]⟩

end RtmpDriver.LineSearch
