import Mathlib.Data.Int.ModEq
import Mathlib.Tactic.Linarith

/-! Serial numbers: integers known only modulo `m`. A residue has one representative at or above a given base (`lift`)
and one within half the modulus of it (`unwrap`). -/
namespace RtmpDriver.SerialNumber

def lift (m base s : Int) : Int := base + (s - base) % m

def unwrap (half base s : Int) : Int :=
  if (s - base) % (2*half) < half then base + (s - base) % (2*half)
  else base + (s - base) % (2*half) - 2*half

theorem liftResidue (m base s) : lift m base s % m = s % m := by
  unfold lift
  rw [Int.add_emod_emod]
  congr 1
  omega

theorem liftLower {m} (pos : 0 < m) (base s) : base ≤ lift m base s := by
  have := Int.emod_nonneg (s - base) (ne_of_gt pos)
  unfold lift
  omega

theorem liftUpper {m} (pos : 0 < m) (base s) : lift m base s < base + m := by
  have := Int.emod_lt_of_pos (s - base) pos
  unfold lift
  omega

theorem equalOfResidue {m a b : Int} (residue : a % m = b % m) (below : b - a < m) (above : a - b < m) : a = b := by
  have divides : m ∣ b - a := Int.ModEq.dvd residue
  have zero : b - a = 0 := Int.eq_zero_of_abs_lt_dvd divides (abs_lt.mpr ⟨by omega,below⟩)
  omega

theorem liftUnique {m base s x : Int} (lower : base ≤ x) (upper : x < base + m)
    (residue : x % m = s % m) : lift m base s = x := by
  have pos : 0 < m := by omega
  have low := liftLower pos base s
  have high := liftUpper pos base s
  exact equalOfResidue ((liftResidue m base s).trans residue.symm) (by omega) (by omega)

theorem liftShift {m base base' s} (pos : 0 < m) (up : base ≤ base')
    (reach : base' ≤ lift m base s) : lift m base' s = lift m base s := by
  have high := liftUpper pos base s
  exact liftUnique reach (by omega) (liftResidue m base s)

theorem unwrapAhead {half base s} (ahead : (s - base) % (2*half) < half) :
    unwrap half base s = lift (2*half) base s := by
  simp only [unwrap,if_pos ahead,lift]

theorem unwrapBehind {half base s} (pos : 0 < half)
    (behind : half ≤ (s - base) % (2*half)) : unwrap half base s < base := by
  have := Int.emod_lt_of_pos (s - base) (show 0 < 2*half by omega)
  simp only [unwrap,if_neg (not_lt.mpr behind)]
  omega

theorem smallerIff {half a b : Int} (below : b - a < half) (above : a - b < half) :
    half ≤ (a - b) % (2*half) ↔ a < b := by
  constructor
  · intro h
    by_contra ge
    rw [Int.emod_eq_of_lt (by omega) (by omega)] at h
    omega
  · intro lt
    have shifted : (a - b) % (2*half) = a - b + 2*half := by
      rw [← Int.add_emod_right]
      exact Int.emod_eq_of_lt (by omega) (by omega)
    omega

end RtmpDriver.SerialNumber
