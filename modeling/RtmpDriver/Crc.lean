import Mathlib.Data.List.Basic

/-! Reflected 32-bit cyclic redundancy codes. The bit loop is linear in its register, so that eight of its steps are one
step with a table. -/
namespace RtmpDriver.Crc
open List

def bitStep (polynomial r : BitVec 32) : BitVec 32 := (r >>> 1) ^^^ if r.getLsbD 0 then polynomial else 0

def bitSteps (polynomial : BitVec 32) : Nat → BitVec 32 → BitVec 32
  | 0,r => r
  | n + 1,r => bitSteps polynomial n (bitStep polynomial r)

def byteStep (polynomial : BitVec 32) (r : BitVec 32) (b : UInt8) : BitVec 32 :=
  bitSteps polynomial 8 (r ^^^ b.toBitVec.setWidth 32)

def tableStep (table : BitVec 8 → BitVec 32) (r : BitVec 32) (b : UInt8) : BitVec 32 :=
  (r >>> 8) ^^^ table ((r ^^^ b.toBitVec.setWidth 32).setWidth 8)

def code (polynomial : BitVec 32) (data : List UInt8) : BitVec 32 :=
  data.foldl (byteStep polynomial) (BitVec.allOnes 32) ^^^ BitVec.allOnes 32

def serialStep (polynomial : BitVec 32) (r : BitVec 32) (bit : Bool) : BitVec 32 :=
  (r >>> 1) ^^^ if r.getLsbD 0 ^^ bit then polynomial else 0

def messageBits (data : List UInt8) : List Bool :=
  data.flatMap fun b => (range 8).map b.toBitVec.getLsbD

def serial (polynomial r : BitVec 32) (data : List UInt8) : BitVec 32 :=
  (messageBits data).foldl (serialStep polynomial) r

variable {polynomial : BitVec 32}

theorem bitStepXor (a b) : bitStep polynomial (a ^^^ b) = bitStep polynomial a ^^^ bitStep polynomial b := by
  have cancel : ∀ x y : BitVec 32, (x ^^^ polynomial) ^^^ (y ^^^ polynomial) = x ^^^ y := by
    intro x y
    have together : (x ^^^ polynomial) ^^^ (y ^^^ polynomial) = (x ^^^ y) ^^^ (polynomial ^^^ polynomial) := by ac_rfl
    rw [together,BitVec.xor_self,BitVec.xor_zero]
  unfold bitStep
  rw [BitVec.getLsbD_xor,BitVec.ushiftRight_xor_distrib]
  cases a.getLsbD 0 <;> cases b.getLsbD 0
  · simp
  · simp [BitVec.xor_assoc]
  · simp only [Bool.xor_false,if_true,Bool.false_eq_true,if_false,BitVec.ofNat_eq_ofNat,BitVec.xor_zero]
    ac_rfl
  · simp [cancel]

theorem bitStepsXor (n a b) :
    bitSteps polynomial n (a ^^^ b) = bitSteps polynomial n a ^^^ bitSteps polynomial n b := by
  induction n generalizing a b with
  | zero => rfl
  | succ n ih => rw [bitSteps,bitStepXor,ih,bitSteps,bitSteps]

theorem bitStepsShift (n r) (zeros : ∀ i, i < n → r.getLsbD i = false) : bitSteps polynomial n r = r >>> n := by
  induction n generalizing r with
  | zero => exact (BitVec.ushiftRight_zero r).symm
  | succ n ih =>
    have shifted : bitStep polynomial r = r >>> 1 := by
      unfold bitStep
      rw [zeros 0 (by omega)]
      exact BitVec.xor_zero
    have later : ∀ i, i < n → (r >>> 1).getLsbD i = false := by
      intro i low
      rw [BitVec.getLsbD_ushiftRight]
      exact zeros (1 + i) (by omega)
    rw [bitSteps,shifted,ih (r >>> 1) later,← BitVec.shiftRight_add,Nat.add_comm]

theorem lowByteShift (b : BitVec 8) : b.setWidth 32 >>> 8 = 0#32 := by
  apply BitVec.eq_of_getLsbD_eq
  intro i _
  rw [BitVec.getLsbD_ushiftRight,BitVec.getLsbD_setWidth,BitVec.getLsbD_of_ge b (8 + i) (by omega)]
  simp

theorem byteStepTable {table} (is : ∀ i, table i = bitSteps polynomial 8 (i.setWidth 32))
    (r b) : tableStep table r b = byteStep polynomial r b := by
  unfold tableStep byteStep
  generalize mixed : r ^^^ b.toBitVec.setWidth 32 = x
  have high : r >>> 8 = x >>> 8 := by
    rw [← mixed,BitVec.ushiftRight_xor_distrib,lowByteShift,BitVec.xor_zero]
  have parts : x = (x ^^^ (x.setWidth 8).setWidth 32) ^^^ (x.setWidth 8).setWidth 32 := by
    rw [BitVec.xor_assoc,BitVec.xor_self,BitVec.xor_zero]
  have zeros : ∀ i, i < 8 → (x ^^^ (x.setWidth 8).setWidth 32).getLsbD i = false := by
    intro i low
    rw [BitVec.getLsbD_xor,BitVec.getLsbD_setWidth,BitVec.getLsbD_setWidth]
    simp [low,Nat.lt_trans low (by decide : 8 < 32)]
  calc r >>> 8 ^^^ table (x.setWidth 8)
      = (x ^^^ (x.setWidth 8).setWidth 32) >>> 8 ^^^ bitSteps polynomial 8 ((x.setWidth 8).setWidth 32) := by
        rw [high,is,BitVec.ushiftRight_xor_distrib,lowByteShift,BitVec.xor_zero]
    _ = bitSteps polynomial 8 x := by
        rw [← bitStepsShift 8 _ zeros,← bitStepsXor,← parts]

theorem bitStepSerial (r x) : bitStep polynomial (r ^^^ x) = serialStep polynomial r (x.getLsbD 0) ^^^ x >>> 1 := by
  unfold bitStep serialStep
  rw [BitVec.getLsbD_xor,BitVec.ushiftRight_xor_distrib]
  ac_rfl

theorem bitStepsSerial (n r x) : bitSteps polynomial n (r ^^^ x) =
      ((range n).map x.getLsbD).foldl (serialStep polynomial) r ^^^ x >>> n := by
  induction n generalizing r x with
  | zero => exact congrArg (r ^^^ ·) (BitVec.ushiftRight_zero x).symm
  | succ n ih =>
    have later : (range n).map (x >>> 1).getLsbD = ((range n).map Nat.succ).map x.getLsbD := by
      rw [map_map]
      apply map_congr_left
      intro i _
      rw [BitVec.getLsbD_ushiftRight,Nat.add_comm]
      rfl
    rw [bitSteps,bitStepSerial,ih,later,← BitVec.shiftRight_add,Nat.add_comm 1 n,range_succ_eq_map]
    rfl

theorem byteStepSerial (r) (b : UInt8) : byteStep polynomial r b =
      ((range 8).map b.toBitVec.getLsbD).foldl (serialStep polynomial) r := by
  have bits : (range 8).map (b.toBitVec.setWidth 32).getLsbD = (range 8).map b.toBitVec.getLsbD := by
    apply map_congr_left
    intro i low
    rw [BitVec.getLsbD_setWidth]
    simp only [Nat.lt_trans (mem_range.mp low) (by decide : 8 < 32),decide_true,Bool.true_and]
  rw [byteStep,bitStepsSerial,bits,lowByteShift,BitVec.xor_zero]

theorem foldByteStep (r data) : data.foldl (byteStep polynomial) r = serial polynomial r data := by
  induction data generalizing r with
  | nil => rfl
  | cons b data ih =>
    have split : messageBits (b :: data) = (range 8).map b.toBitVec.getLsbD ++ messageBits data := rfl
    rw [foldl_cons,ih,byteStepSerial,serial,serial,split,foldl_append]

end RtmpDriver.Crc
