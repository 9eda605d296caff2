import Mathlib.Data.Nat.Basic
import Mathlib.Tactic.Ring

/-! Big-endian byte strings as numbers. On strings of one length the order of the numbers is the lexicographic order. -/
namespace RtmpDriver.BigEndian
open List

def value : List UInt8 → Nat
  | [] => 0
  | b :: rest => b.toNat * 256 ^ rest.length + value rest

theorem valueLt (l) : value l < 256 ^ l.length := by
  induction l with
  | nil => exact Nat.one_pos
  | cons b rest ih =>
    have byte : b.toNat + 1 ≤ 256 := b.toNat_lt
    calc value (b :: rest) < b.toNat * 256 ^ rest.length + 256 ^ rest.length := Nat.add_lt_add_left ih _
      _ = (b.toNat + 1) * 256 ^ rest.length := by ring
      _ ≤ 256 * 256 ^ rest.length := Nat.mul_le_mul_right _ byte
      _ = 256 ^ (b :: rest).length := by rw [length_cons,pow_succ,Nat.mul_comm]

section
variable {x y : UInt8} {xs ys : List UInt8}

theorem valueHead (length : xs.length = ys.length) (less : x < y) : value (x :: xs) < value (y :: ys) := by
  have byte : x.toNat + 1 ≤ y.toNat := UInt8.lt_iff_toNat_lt.mp less
  calc value (x :: xs) < x.toNat * 256 ^ xs.length + 256 ^ xs.length := Nat.add_lt_add_left (valueLt xs) _
    _ = (x.toNat + 1) * 256 ^ ys.length := by rw [length]; ring
    _ ≤ y.toNat * 256 ^ ys.length := Nat.mul_le_mul_right _ byte
    _ ≤ value (y :: ys) := Nat.le_add_right _ _

theorem valueTail (length : xs.length = ys.length) : value (x :: xs) < value (x :: ys) ↔ value xs < value ys := by
  simp only [value,length]
  omega

end

def encode : Nat → Nat → List UInt8
  | 0,_ => []
  | width + 1,n => UInt8.ofNat (n / 256 ^ width) :: encode width n

theorem encodeLength (width n) : (encode width n).length = width := by
  induction width with
  | zero => rfl
  | succ width ih => rw [encode,length_cons,ih]

theorem encodeMod (width n) : encode width n = encode width (n % 256 ^ width) := by
  induction width generalizing n with
  | zero => rfl
  | succ width ih =>
    have front : n % 256 ^ (width + 1) / 256 ^ width = n / 256 ^ width % 256 := by
      rw [pow_succ,Nat.mod_mul_right_div_self]
    have back : n % 256 ^ (width + 1) % 256 ^ width = n % 256 ^ width :=
      Nat.mod_mod_of_dvd n (pow_dvd_pow 256 (Nat.le_succ width))
    rw [encode,encode,front,ih n,ih (n % 256 ^ (width + 1)),back,UInt8.ofNat_mod_size]

theorem valueEncode {width n} (fits : n < 256 ^ width) : value (encode width n) = n := by
  induction width generalizing n with
  | zero =>
    have zero : n = 0 := Nat.lt_one_iff.mp fits
    rw [zero]
    rfl
  | succ width ih =>
    have positive : 0 < 256 ^ width := Nat.pow_pos (by decide)
    have small : n / 256 ^ width < 256 := Nat.div_lt_of_lt_mul (by rw [← pow_succ]; exact fits)
    rw [encode,value,encodeLength,UInt8.toNat_ofNat_of_lt' small,encodeMod,ih (Nat.mod_lt n positive)]
    exact Nat.div_add_mod' n (256 ^ width)

theorem encodeInjective {width m n} (left : m < 256 ^ width) (right : n < 256 ^ width)
    (same : encode width m = encode width n) : m = n := by
  rw [← valueEncode left,same,valueEncode right]

theorem encodeZeros {width n} (fits : n < 256 ^ width) (zeros) :
    encode (zeros + width) n = replicate zeros 0 ++ encode width n := by
  induction zeros with
  | zero => rw [Nat.zero_add]; rfl
  | succ zeros ih =>
    have zero : n / 256 ^ (zeros + width) = 0 :=
      Nat.div_eq_of_lt (lt_of_lt_of_le fits (Nat.pow_le_pow_right (by decide) (Nat.le_add_left width zeros)))
    rw [Nat.succ_add,encode,zero,ih]
    rfl

theorem encodeByte {n} (small : n < 256) (width) :
    encode (width + 1) n = replicate width 0 ++ [UInt8.ofNat n] := by
  have byte : encode 1 n = [UInt8.ofNat n] := by rw [encode,encode,pow_zero,Nat.div_one]
  rw [encodeZeros (by rwa [pow_one]) width,byte]

theorem encodeSnoc (width n) : encode (width + 1) n = encode width (n / 256) ++ [UInt8.ofNat n] := by
  induction width with
  | zero => rw [encode,encode,pow_zero,Nat.div_one]; rfl
  | succ width ih =>
    rw [encode,ih,encode,Nat.div_div_eq_div_mul,pow_succ']
    rfl

theorem encodeValue (l) : encode l.length (value l) = l := by
  induction l with
  | nil => rfl
  | cons b rest ih =>
    have less := valueLt rest
    have positive : 0 < 256 ^ rest.length := Nat.pow_pos (by decide)
    have head : (b.toNat * 256 ^ rest.length + value rest) / 256 ^ rest.length = b.toNat := by
      rw [Nat.mul_comm,Nat.mul_add_div positive,Nat.div_eq_of_lt less,Nat.add_zero]
    have tail : (b.toNat * 256 ^ rest.length + value rest) % 256 ^ rest.length = value rest := by
      rw [Nat.mul_comm,Nat.mul_add_mod,Nat.mod_eq_of_lt less]
    rw [length_cons,encode,value,head,encodeMod,tail,ih,UInt8.ofNat_toNat]

theorem valueXor {a b} (same : a.length = b.length) : value (zipWith (· ^^^ ·) a b) = value a ^^^ value b := by
  induction a generalizing b with
  | nil =>
    rw [length_eq_zero_iff.mp same.symm]
    rfl
  | cons x xs ih =>
    cases b with
    | nil => contradiction
    | cons y ys =>
      have tails : xs.length = ys.length := Nat.succ.inj same
      have width : 256 ^ ys.length = 2 ^ (8 * ys.length) := by rw [Nat.pow_mul]
      have left : value xs < 2 ^ (8 * ys.length) := by
        rw [← width,← tails]
        exact valueLt xs
      have right : value ys < 2 ^ (8 * ys.length) := by
        rw [← width]
        exact valueLt ys
      have length : (zipWith (· ^^^ ·) xs ys).length = ys.length := by
        rw [length_zipWith,tails,Nat.min_self]
      rw [zipWith_cons_cons,value,value,value,length,ih tails,tails,width,UInt8.toNat_xor,
        Nat.mul_comm _ (2 ^ _),Nat.mul_comm _ (2 ^ _),Nat.mul_comm _ (2 ^ _)]
      apply Nat.eq_of_testBit_eq
      intro k
      rw [Nat.testBit_xor,Nat.testBit_two_pow_mul_add _ (Nat.xor_lt_two_pow left right),
        Nat.testBit_two_pow_mul_add _ left,Nat.testBit_two_pow_mul_add _ right]
      split
      · exact Nat.testBit_xor ..
      · exact Nat.testBit_xor ..

end RtmpDriver.BigEndian
