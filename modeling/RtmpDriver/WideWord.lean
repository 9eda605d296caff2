import Mathlib.Data.BitVec
import Mathlib.Tactic.Common

/-! Words of n bits kept in wider ones: the low n bits of a sum, of a shift to the left and of a rotation come from
the low n bits of the operands alone. -/
namespace RtmpDriver.WideWord
variable {n w k c : Nat}

theorem lowShift (narrow : n ≤ w) (x : BitVec w) (k : Nat) : (x <<< k).setWidth n = x.setWidth n <<< k := by
  apply BitVec.eq_of_getLsbD_eq
  intro i inside
  have wide : i < w := by omega
  have before : i - k < n := by omega
  simp only [BitVec.getLsbD_setWidth,BitVec.getLsbD_shiftLeft,inside,wide,before,decide_true,Bool.true_and]

theorem lowMasked (fits : c < 2 ^ n) (x : BitVec w) (k : Nat) :
    ((x &&& BitVec.ofNat w c) >>> k).setWidth n = (x.setWidth n &&& BitVec.ofNat n c) >>> k := by
  apply BitVec.eq_of_getLsbD_eq
  intro i inside
  simp only [BitVec.getLsbD_setWidth,BitVec.getLsbD_ushiftRight,BitVec.getLsbD_and,BitVec.getLsbD_ofNat,inside]
  by_cases high : k + i < n
  · by_cases wide : k + i < w
    · simp [high,wide]
    · simp [wide,BitVec.getLsbD_of_ge x (k + i) (Nat.le_of_not_lt wide)]
  · have zero : c.testBit (k + i) = false :=
      Nat.testBit_lt_two_pow (Nat.lt_of_lt_of_le fits (Nat.pow_le_pow_right (by decide) (Nat.le_of_not_lt high)))
    simp [zero]

theorem lowSigned (narrow : n ≤ w) (x : BitVec n) : (x.signExtend w).setWidth n = x := by
  apply BitVec.eq_of_getLsbD_eq
  intro i inside
  have wide : i < w := by omega
  simp only [BitVec.getLsbD_setWidth,BitVec.getLsbD_signExtend,inside,wide,decide_true,Bool.true_and,if_true]

theorem lowSlice {size} (inside : k + size ≤ n) (x : BitVec w) :
    ((x.setWidth n) >>> k).setWidth size = (x >>> k).setWidth size := by
  apply BitVec.eq_of_getLsbD_eq
  intro i low
  have within : k + i < n := by omega
  simp only [BitVec.getLsbD_setWidth,BitVec.getLsbD_ushiftRight,low,within,decide_true,Bool.true_and]

theorem lowMod (narrow : n < w) (x) : (x % BitVec.ofNat w (2 ^ n)).setWidth n = x.setWidth n := by
  apply BitVec.eq_of_toNat_eq
  have small : 2 ^ n < 2 ^ w := Nat.pow_lt_pow_right (by decide) narrow
  rw [BitVec.toNat_setWidth,BitVec.toNat_setWidth,BitVec.toNat_umod,BitVec.toNat_ofNat,
    Nat.mod_eq_of_lt small,Nat.mod_mod]

def rotate (n k : Nat) (x : BitVec w) : BitVec w := x <<< k ||| ((x >>> (n - k)) &&& ((1 : BitVec w) <<< k - 1))

theorem onesMask (inside : k < w) : (1 : BitVec w) <<< k - 1 = BitVec.ofNat w (2 ^ k - 1) := by
  have power : 2 ^ k < 2 ^ w := Nat.pow_lt_pow_right (by decide) inside
  have positive : 0 < 2 ^ k := Nat.pow_pos (by decide)
  have one : (1 : BitVec w).toNat = 1 := by
    have room : 1 < 2 ^ w := by omega
    exact Nat.mod_eq_of_lt room
  have shifted : ((1 : BitVec w) <<< k).toNat = 2 ^ k := by
    rw [BitVec.toNat_shiftLeft,one,Nat.one_shiftLeft,Nat.mod_eq_of_lt power]
  apply BitVec.eq_of_toNat_eq
  rw [BitVec.toNat_sub_of_le (by rw [BitVec.le_def,one,shifted]; exact positive),shifted,one,BitVec.toNat_ofNat,
    Nat.mod_eq_of_lt (by omega)]

theorem lowRotate (narrow : n ≤ w) (part : k < n) (x : BitVec w) :
    (rotate n k x).setWidth n = (x.setWidth n).rotateLeft k := by
  apply BitVec.eq_of_getLsbD_eq
  intro i inside
  have wide : i < w := by omega
  rw [rotate,onesMask (by omega)]
  simp only [BitVec.getLsbD_setWidth,BitVec.getLsbD_or,BitVec.getLsbD_shiftLeft,BitVec.getLsbD_and,
    BitVec.getLsbD_ushiftRight,BitVec.getLsbD_ofNat,Nat.testBit_two_pow_sub_one,BitVec.getLsbD_rotateLeft,
    Nat.mod_eq_of_lt part,inside,wide]
  by_cases turned : i < k
  · have within : n - k + i < n := by omega
    simp [turned,within]
  · have within : i - k < n := by omega
    simp [turned,within]

theorem rotateBack (some : 0 < k) (part : k < n) (x : BitVec n) : x.rotateLeft (n - k) = x.rotateRight k := by
  apply BitVec.eq_of_getLsbD_eq
  intro i inside
  have less : n - k < n := by omega
  rw [BitVec.getLsbD_rotateLeft,BitVec.getLsbD_rotateRight,Nat.mod_eq_of_lt less,Nat.mod_eq_of_lt part,
    Nat.sub_sub_self part.le]

end RtmpDriver.WideWord
