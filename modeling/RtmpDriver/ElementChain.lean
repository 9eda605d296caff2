import Mathlib.Data.List.Basic

/-! Records laid end to end in a memory. `size p` is the length that the record at `p` gives for itself, and the last
record of `Chain size high p starts` ends at `high`. -/
namespace RtmpDriver.ElementChain

inductive Chain (size : Nat → Nat) (high : Nat) : Nat → List Nat → Prop where
  | done : Chain size high high []
  | next {p rest} (tail : Chain size high (p + size p) rest) : Chain size high p (p :: rest)

variable {size : Nat → Nat} {high p : Nat} {starts : List Nat}

theorem Chain.le (chain : Chain size high p starts) : p ≤ high := by
  induction chain with
  | done => exact Nat.le_refl high
  | next tail ih => exact Nat.le_trans (Nat.le_add_right _ _) ih

end RtmpDriver.ElementChain
