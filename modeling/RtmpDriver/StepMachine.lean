import Mathlib.Data.List.Infix

/-! Runs of a deterministic machine: a step function folded over a list of inputs. `Meets` says that every step of a
run satisfies a condition on its state and input, `Always` that a property holds in every state reached. -/
namespace RtmpDriver.StepMachine
open List
universe u v
variable {State : Type u} {Input : Type v}

def run (step : State → Input → State) (s : State) (inputs : List Input) : State :=
  inputs.foldl step s

def Meets (step : State → Input → State) (condition : State → Input → Prop) :
    State → List Input → Prop
  | _,[] => True
  | s,i :: rest => condition s i ∧ Meets step condition (step s i) rest

instance decidableMeets (step : State → Input → State) (condition : State → Input → Prop)
    [∀ s i, Decidable (condition s i)] : ∀ s inputs, Decidable (Meets step condition s inputs)
  | _,[] => isTrue trivial
  | s,i :: rest => @instDecidableAnd _ _ _ (decidableMeets step condition (step s i) rest)

def Always (step : State → Input → State) (property : State → Prop) (s : State)
    (inputs : List Input) : Prop :=
  ∀ before, before <+: inputs → property (run step s before)

section
variable {step : State → Input → State}

theorem alwaysNil {property s} :
    Always step property s [] ↔ property s := by
  constructor
  · intro h
    exact h [] (prefix_refl [])
  · intro h before pre
    rwa [prefix_nil.mp pre]

theorem alwaysCons {property s} {i : Input}
    {rest} :
    Always step property s (i :: rest) ↔ property s ∧ Always step property (step s i) rest := by
  constructor
  · intro h
    refine ⟨h [] nil_prefix,?_⟩
    intro before pre
    exact h (i :: before) (cons_prefix_cons.mpr ⟨rfl,pre⟩)
  · rintro ⟨now,later⟩ before pre
    cases before with
    | nil => exact now
    | cons j before =>
      obtain ⟨rfl,tail⟩ := cons_prefix_cons.mp pre
      exact later before tail

theorem meetsTrue {s inputs} :
    Meets step (fun _ _ => True) s inputs := by
  induction inputs generalizing s with
  | nil => trivial
  | cons i rest ih => exact ⟨trivial,ih⟩

theorem meetsAnd {left right : State → Input → Prop} {s inputs} (first : Meets step left s inputs)
    (second : Meets step right s inputs) :
    Meets step (fun s i => left s i ∧ right s i) s inputs := by
  induction inputs generalizing s with
  | nil => trivial
  | cons i rest ih => exact ⟨⟨first.1,second.1⟩,ih first.2 second.2⟩

theorem invariant {condition : State → Input → Prop}
    {inv} (keeps : ∀ s i, inv s → condition s i → inv (step s i))
    {s inputs} (start : inv s) (meets : Meets step condition s inputs) :
    Always step inv s inputs := by
  induction inputs generalizing s with
  | nil => exact alwaysNil.mpr start
  | cons i rest ih => exact alwaysCons.mpr ⟨start,ih (keeps s i start meets.1) meets.2⟩

theorem meetsInvariant {condition goal : State → Input → Prop}
    {inv : State → Prop} (keeps : ∀ s i, inv s → condition s i → inv (step s i))
    (reach : ∀ s i, inv s → condition s i → goal s i)
    {s} {inputs : List Input} (start : inv s) (meets : Meets step condition s inputs) :
    Meets step goal s inputs := by
  induction inputs generalizing s with
  | nil => trivial
  | cons i rest ih => exact ⟨reach s i start meets.1,ih (keeps s i start meets.1) meets.2⟩

theorem alwaysIffMeets {allowed condition : State → Input → Prop}
    {inv property : State → Prop} (holds : ∀ s, inv s → property s)
    (keeps : ∀ s i, inv s → allowed s i → condition s i → inv (step s i))
    (needs : ∀ s i, inv s → allowed s i → property (step s i) → condition s i)
    {s} {inputs : List Input} (start : inv s) (admitted : Meets step allowed s inputs) :
    Always step property s inputs ↔ Meets step condition s inputs := by
  induction inputs generalizing s with
  | nil => exact alwaysNil.trans ⟨fun _ => trivial,fun _ => holds s start⟩
  | cons i rest ih =>
    rw [alwaysCons]
    constructor
    · rintro ⟨_,later⟩
      have meets := needs s i start admitted.1 (later [] nil_prefix)
      exact ⟨meets,(ih (keeps s i start admitted.1 meets) admitted.2).mp later⟩
    · rintro ⟨meets,rest⟩
      exact ⟨holds s start,(ih (keeps s i start admitted.1 meets) admitted.2).mpr rest⟩

theorem meetsIffMeets {goal condition : State → Input → Prop} {inv : State → Prop}
    (same : ∀ s i, inv s → (goal s i ↔ condition s i)) (keeps : ∀ s i, inv s → condition s i → inv (step s i))
    {s} {inputs : List Input} (start : inv s) : Meets step goal s inputs ↔ Meets step condition s inputs := by
  induction inputs generalizing s with
  | nil => exact Iff.rfl
  | cons i rest ih =>
    constructor
    · rintro ⟨now,later⟩
      have meets := (same s i start).mp now
      exact ⟨meets,(ih (keeps s i start meets)).mp later⟩
    · rintro ⟨now,later⟩
      exact ⟨(same s i start).mpr now,(ih (keeps s i start now)).mpr later⟩

end

theorem meetsIffMeetsSome {step : Option State → Input → Option State} {goal condition : Option State → Input → Prop}
    {inv : State → Prop} (one : ∀ s i, inv s → (goal (some s) i ↔ condition (some s) i) ∧
      (condition (some s) i → ∃ s', step (some s) i = some s' ∧ inv s'))
    {s} {inputs : List Input} (start : inv s) :
    Meets step goal (some s) inputs ↔ Meets step condition (some s) inputs := by
  let Known (o : Option State) : Prop := ∃ s, o = some s ∧ inv s
  have same : ∀ o i, Known o → (goal o i ↔ condition o i) := by
    rintro o i ⟨s,rfl,known⟩
    exact (one s i known).1
  have keeps : ∀ o i, Known o → condition o i → Known (step o i) := by
    rintro o i ⟨s,rfl,known⟩ meets
    exact (one s i known).2 meets
  exact meetsIffMeets same keeps ⟨s,rfl,start⟩

section
variable {step : State → Input → State}

theorem alwaysMono {strong weak}
    (imp : ∀ s, strong s → weak s) {s inputs}
    (h : Always step strong s inputs) : Always step weak s inputs :=
  fun before pre => imp _ (h before pre)

theorem alwaysLast {property s inputs} (h : Always step property s inputs) : property (run step s inputs) :=
  h inputs (prefix_refl inputs)

theorem runKeeps {inv : State → Prop} {inputs}
    (keeps : ∀ s, ∀ i ∈ inputs, inv s → inv (step s i)) {s : State} (start : inv s) : inv (run step s inputs) := by
  induction inputs generalizing s with
  | nil => exact start
  | cons i rest ih =>
    exact ih (fun s j mem => keeps s j (mem_cons_of_mem i mem)) (keeps s i mem_cons_self start)

end

theorem runCongr {step other : State → Input → State} {inputs}
    (same : ∀ s, ∀ i ∈ inputs, step s i = other s i) {s} : run step s inputs = run other s inputs := by
  induction inputs generalizing s with
  | nil => rfl
  | cons i rest ih =>
    have later := ih (fun s j mem => same s j (mem_cons_of_mem i mem)) (s := step s i)
    have first := same s i mem_cons_self
    simp only [run,foldl_cons] at later ⊢
    rw [later,first]

section
variable {step : State → Input → State} {condition : State → Input → Prop} {inputs : List Input}

theorem meetsAll (all : ∀ s, ∀ i ∈ inputs, condition s i) {s} : Meets step condition s inputs := by
  induction inputs generalizing s with
  | nil => trivial
  | cons i rest ih =>
    exact ⟨all s i mem_cons_self,ih (fun s j mem => all s j (mem_cons_of_mem i mem))⟩

theorem meetsAt {i : Input} (mem : i ∈ inputs) {s} (meets : Meets step condition s inputs) : ∃ t, condition t i := by
  induction inputs generalizing s with
  | nil => contradiction
  | cons j rest ih =>
    rcases mem_cons.mp mem with same | later
    · exact ⟨s,same ▸ meets.1⟩
    · exact ih later meets.2

end

theorem runUndo {Image : Type*} {step : State → Input → State} {back : Image → Input → Image}
    (view : State → Image) (inv : State → Prop) {inputs : List Input}
    (keeps : ∀ s, ∀ i ∈ inputs, inv s → inv (step s i))
    (undo : ∀ s, ∀ i ∈ inputs, inv s → back (view (step s i)) i = view s) {s} (start : inv s) :
    run back (view (run step s inputs)) inputs.reverse = view s := by
  induction inputs generalizing s with
  | nil => rfl
  | cons i rest ih =>
    have later := ih (fun s j mem => keeps s j (mem_cons_of_mem i mem))
      (fun s j mem => undo s j (mem_cons_of_mem i mem)) (keeps s i mem_cons_self start)
    have first : run step s (i :: rest) = run step (step s i) rest := rfl
    simp only [run] at later first ⊢
    rw [first,reverse_cons,foldl_append,later]
    exact undo s i mem_cons_self start

end RtmpDriver.StepMachine
