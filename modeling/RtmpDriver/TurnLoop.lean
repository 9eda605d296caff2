import Mathlib.Logic.Basic

/-! Loops without a condition, left from inside their body. A turn goes on with a new state, leaves the loop with its
result or reads what it must not read; `Visits` is the set of states in which a turn begins. -/
namespace RtmpDriver.TurnLoop
universe u v

inductive Turn (State : Type u) (Result : Type v) where
  | next (s : State)
  | leave (r : Result)
  | fault

variable {State : Type u} {Result : Type v}

def loop (turn : State → Turn State Result) : Nat → State → Option Result
  | 0,_ => none
  | fuel + 1,s =>
    match turn s with
    | .next s' => loop turn fuel s'
    | .leave r => some r
    | .fault => none

inductive Visits (turn : State → Turn State Result) (s : State) : State → Prop
  | first : Visits turn s s
  | later {t t' : State} (seen : Visits turn s t) (step : turn t = .next t') : Visits turn s t'

variable {turn : State → Turn State Result} {s t : State}

theorem visitsKeep (inv : State → Prop) (keeps : ∀ s s', inv s → turn s = .next s' → inv s') (start : inv s)
    (seen : Visits turn s t) : inv t := by
  induction seen with
  | first => exact start
  | later seen step ih => exact keeps _ _ ih step

theorem visitsNext {s'} (step : turn s = .next s') (seen : Visits turn s' t) : Visits turn s t := by
  induction seen with
  | first => exact .later .first step
  | later seen step' ih => exact .later ih step'

theorem loopLeaves {fuel r} (done : loop turn fuel s = some r) : ∃ t, Visits turn s t ∧ turn t = .leave r := by
  induction fuel generalizing s with
  | zero => cases done
  | succ fuel ih =>
    rw [loop] at done
    cases taken : turn s with
    | next s' =>
      rw [taken] at done
      obtain ⟨t,seen,last⟩ := ih done
      exact ⟨t,visitsNext taken seen,last⟩
    | leave r' =>
      rw [taken] at done
      cases done
      exact ⟨s,.first,taken⟩
    | fault =>
      rw [taken] at done
      cases done

theorem loopEnds (Rank : Nat → State → Prop) (turns : ∀ n s, Rank n s →
      (∃ r, turn s = .leave r) ∨ ∃ s' m, turn s = .next s' ∧ m < n ∧ Rank m s') {n} (ranked : Rank n s) :
    ∃ fuel r, loop turn fuel s = some r := by
  induction n using Nat.strongRecOn generalizing s with
  | ind n ih =>
    rcases turns n s ranked with ⟨r,left⟩ | ⟨s',m,on,less,rest⟩
    · exact ⟨1,r,by rw [loop,left]⟩
    · obtain ⟨fuel,r,done⟩ := ih m less rest
      exact ⟨fuel + 1,r,by rw [loop,on]; exact done⟩

end RtmpDriver.TurnLoop
