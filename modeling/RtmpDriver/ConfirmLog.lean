import Mathlib.Data.List.Basic

/-! The log of a machine that accepts requests of several kinds and confirms them: every accepted request is to have
exactly one confirm of its kind before the next request of that kind. -/
namespace RtmpDriver.ConfirmLog
open List
universe u v

inductive Entry (κ : Type u) (σ : Type v) where
  | accepted (kind : κ)
  | confirm (kind : κ) (status : σ)
  deriving DecidableEq, Repr

variable {κ : Type u} {σ : Type v} [DecidableEq κ]

def answers (k : κ) : List (Entry κ σ) → Nat
  | [] => 0
  | .accepted j :: rest => if j = k then 0 else answers k rest
  | .confirm j _ :: rest => (if j = k then 1 else 0) + answers k rest

def EachAnswered : List (Entry κ σ) → Prop
  | [] => True
  | .accepted k :: rest => answers k rest = 1 ∧ EachAnswered rest
  | .confirm _ _ :: rest => EachAnswered rest

def Outstanding (k : κ) (log : List (Entry κ σ)) : Prop :=
  ∃ before, EachAnswered before ∧ log = before ++ [.accepted k]

variable {k j : κ} {status : σ} {log more : List (Entry κ σ)}

theorem answersAppend (k) (log more : List (Entry κ σ)) :
    (.accepted k ∈ log → answers k (log ++ more) = answers k log) ∧
      (.accepted k ∉ log → answers k (log ++ more) = answers k log + answers k more) := by
  induction log with
  | nil => simp [answers]
  | cons entry rest ih =>
    cases entry with
    | accepted j =>
      rcases eq_or_ne j k with rfl | other
      · simp [answers]
      · simpa [answers,other,other.symm] using ih
    | confirm j status =>
      constructor
      · intro mem
        have later : .accepted k ∈ rest := by simpa using mem
        simp only [cons_append,answers,ih.1 later]
      · intro absent
        have later : .accepted k ∉ rest := by simpa using absent
        simp only [cons_append,answers,ih.2 later,Nat.add_assoc]

theorem eachAppend (each : EachAnswered log) :
    EachAnswered (log ++ more) ↔ EachAnswered more ∧ ∀ k, .accepted k ∈ log → answers k more = 0 := by
  induction log with
  | nil => simp
  | cons entry rest ih =>
    cases entry with
    | accepted j =>
      have once : answers j rest = 1 := each.1
      have later := ih each.2
      obtain ⟨closed,opened⟩ := answersAppend j rest more
      simp only [cons_append,EachAnswered,later,mem_cons]
      constructor
      · rintro ⟨count,answered,none⟩
        refine ⟨answered,fun k mem => ?_⟩
        rcases mem with same | mem
        · cases same
          rcases Classical.em (.accepted j ∈ rest) with again | last
          · exact none j again
          · rw [opened last,once] at count
            omega
        · exact none k mem
      · rintro ⟨answered,none⟩
        refine ⟨?_,answered,fun k mem => none k (.inr mem)⟩
        rcases Classical.em (.accepted j ∈ rest) with again | last
        · rw [closed again,once]
        · rw [opened last,once,none j (.inl rfl)]
    | confirm j status =>
      have later := ih each
      simpa [EachAnswered] using later

theorem eachConfirmed (each : EachAnswered log) (k j status) :
    EachAnswered (log ++ [.accepted k,.confirm j status]) ↔ j = k := by
  rw [eachAppend each]
  constructor
  · rintro ⟨⟨count,_⟩,_⟩
    refine Decidable.byContradiction fun other => ?_
    simp [answers,other] at count
  · rintro rfl
    refine ⟨by simp [EachAnswered,answers],fun i _ => ?_⟩
    rcases eq_or_ne j i with rfl | other
    · simp [answers]
    · simp [answers,other]

theorem eachUnasked (each : EachAnswered log) (k status) :
    EachAnswered (log ++ [.confirm k status]) ↔ .accepted k ∉ log := by
  rw [eachAppend each]
  constructor
  · rintro ⟨_,none⟩ mem
    have count := none k mem
    simp [answers] at count
  · intro absent
    refine ⟨trivial,fun i mem => ?_⟩
    have other : k ≠ i := by
      rintro rfl
      exact absent mem
    simp [answers,other]

theorem Outstanding.confirmed (waits : Outstanding k log) (j status) :
    EachAnswered (log ++ [.confirm j status]) ↔ j = k := by
  obtain ⟨before,each,rfl⟩ := waits
  rw [append_assoc]
  exact eachConfirmed each k j status

theorem Outstanding.unanswered (waits : Outstanding k log) : ¬EachAnswered log := by
  obtain ⟨before,each,rfl⟩ := waits
  rw [eachAppend each]
  rintro ⟨⟨count,_⟩,_⟩
  simp [answers] at count

theorem notOutstanding (k j : κ) (log) (status : σ) :
    ¬Outstanding k (log ++ [.confirm j status]) := by
  rintro ⟨before,_,same⟩
  have last := congrArg getLast? same
  simp at last

theorem notEachTwice (each : EachAnswered log) (k first second) :
    ¬EachAnswered (log ++ [.accepted k,.confirm k first,.confirm k second]) := by
  rw [eachAppend each]
  rintro ⟨⟨count,_⟩,_⟩
  simp [answers] at count

end RtmpDriver.ConfirmLog
