import RtmpDriver.StepMachine

/-! Crystal trimming on the MT76x2: FrequencyCalibration, StopFrequencyCalibration and the measurements taken from
beacons. The chip reports its offset in bbp_rxinfo[1] (RXWI_FRQ_OFFSET_FIELD0, HIF_RLT); a CHAR is a signed byte. -/
namespace RtmpDriver.FreqCal
open StepMachine

def invalidFrequencyOffset : Int8 := -128
def modeCck : UInt8 := 0

def keepMask : BitVec 32 := 0xffff80ff

structure FreqCalibrationCtrl where
  bEnableFrequencyCalibration : Bool
  bSkipFirstFrequencyCalibration : Bool
  bApproachFrequency : Bool
  adaptiveFreqOffset : Int8
  latestFreqOffsetOverBeacon : Int8
  beaconPhyMode : UInt8
  rfFreqOffset : UInt8
  xoCtrl5 : BitVec 32
  deriving DecidableEq, Repr

def stopFrequencyCalibration (s : FreqCalibrationCtrl) : FreqCalibrationCtrl :=
  if s.bEnableFrequencyCalibration then
    { s with adaptiveFreqOffset := ⟨s.rfFreqOffset &&& 0x7f⟩,
             latestFreqOffsetOverBeacon := invalidFrequencyOffset,
             bSkipFirstFrequencyCalibration := true }
  else s

def getFrequencyOffset (s : FreqCalibrationCtrl) (bbpRxinfo1 : UInt8) : Int8 :=
  if s.bEnableFrequencyCalibration then ⟨bbpRxinfo1⟩ else 0

def upBound (s : FreqCalibrationCtrl) : Int8 :=
  if s.bEnableFrequencyCalibration ∧ s.latestFreqOffsetOverBeacon ≠ invalidFrequencyOffset then
    if s.beaconPhyMode = modeCck then 4 else 32
  else 0

def lowBound (s : FreqCalibrationCtrl) : Int8 :=
  if s.bEnableFrequencyCalibration ∧ s.latestFreqOffsetOverBeacon ≠ invalidFrequencyOffset then
    if s.beaconPhyMode = modeCck then -4 else -32
  else 0

def adapted (latest offset : Int8) : Int8 :=
  if 0 < latest then if 0 < offset then offset - 1 else offset
  else if offset < 0x7f then offset + 1 else offset

def frequencyCalibration (s : FreqCalibrationCtrl) : FreqCalibrationCtrl :=
  if upBound s ≤ s.latestFreqOffsetOverBeacon ∨ s.latestFreqOffsetOverBeacon ≤ lowBound s then
    let value := s.xoCtrl5
    let offset : Int8 := ⟨⟨((value &&& ~~~keepMask) >>> 8).setWidth 8⟩⟩
    let offset := adapted s.latestFreqOffsetOverBeacon offset
    -- write_reg, left out when nothing changes
    { s with bApproachFrequency := true,
             adaptiveFreqOffset := offset,
             xoCtrl5 := (value &&& keepMask) ||| (offset.toBitVec.signExtend 32 <<< 8) }
  else { s with bApproachFrequency := false }

inductive Event where
  | frequencyCalibration
  | stopFrequencyCalibration
  | beacon (bbpRxinfo1 mode : UInt8)

def step (s : FreqCalibrationCtrl) : Event → FreqCalibrationCtrl
  | .frequencyCalibration => FreqCal.frequencyCalibration s
  | .stopFrequencyCalibration => FreqCal.stopFrequencyCalibration s
  | .beacon bbpRxinfo1 mode =>
    { s with latestFreqOffsetOverBeacon := getFrequencyOffset s bbpRxinfo1, beaconPhyMode := mode }

def trim (value : BitVec 32) : BitVec 7 := value.extractLsb' 8 7

def others (value : BitVec 32) : BitVec 32 := value &&& keepMask

def Measured (s : FreqCalibrationCtrl) : Prop :=
  s.bEnableFrequencyCalibration = true ∧ s.latestFreqOffsetOverBeacon ≠ invalidFrequencyOffset

def deadBand (s : FreqCalibrationCtrl) : Nat := if s.beaconPhyMode = modeCck then 4 else 32

def Off (s : FreqCalibrationCtrl) : Prop := deadBand s ≤ s.latestFreqOffsetOverBeacon.toInt.natAbs

def against (latest : Int8) (t : Nat) : Nat := if 0 < latest then t - 1 else min (t + 1) 0x7f

structure Reacts (s after : FreqCalibrationCtrl) : Prop where
  only : trim after.xoCtrl5 ≠ trim s.xoCtrl5 → Measured s ∧ Off s
  moves : Measured s → Off s →
    (trim after.xoCtrl5).toNat = against s.latestFreqOffsetOverBeacon (trim s.xoCtrl5).toNat
  others : others after.xoCtrl5 = others s.xoCtrl5

def TrimReacts (s : FreqCalibrationCtrl) : Event → Prop
  | .frequencyCalibration => Reacts s (FreqCal.frequencyCalibration s)
  | _ => True

def Steady (s : FreqCalibrationCtrl) : Event → Prop
  | .frequencyCalibration => Measured s ∨ trim s.xoCtrl5 = if 0 < s.latestFreqOffsetOverBeacon then 0 else 0x7f
  | _ => True

theorem maskBit : ∀ k < 32, keepMask.getLsbD k = !decide (8 ≤ k ∧ k < 15) := by decide

theorem trimRead (value) : ((value &&& ~~~keepMask) >>> 8).setWidth 8 = (trim value).setWidth 8 := by
  apply BitVec.eq_of_getLsbD_eq
  intro i less
  have bit := maskBit (8 + i) (by omega)
  simp only [trim,BitVec.getLsbD_setWidth,BitVec.getLsbD_ushiftRight,BitVec.getLsbD_and,BitVec.getLsbD_extractLsb',
    BitVec.getLsbD_not,bit]
  rcases Nat.lt_or_ge i 7 with inside | top
  · simp [inside,show 8 + i < 15 by omega,show 8 + i < 32 by omega]
  · simp [show ¬ 8 + i < 15 by omega,show ¬ i < 7 by omega]

theorem trimWritten (value) (offset : BitVec 8) :
    trim ((value &&& keepMask) ||| (offset.signExtend 32 <<< 8)) = offset.setWidth 7 := by
  apply BitVec.eq_of_getLsbD_eq
  intro i less
  have bit := maskBit (8 + i) (by omega)
  simp only [trim,BitVec.getLsbD_setWidth,BitVec.getLsbD_or,BitVec.getLsbD_and,BitVec.getLsbD_extractLsb',
    BitVec.getLsbD_shiftLeft,BitVec.getLsbD_signExtend,bit,Nat.add_sub_cancel_left]
  simp [less,show 8 + i < 15 by omega,show 8 + i < 32 by omega,show i < 32 by omega,show i < 8 by omega]

theorem othersWritten (value) {offset : BitVec 8} (positive : offset.msb = false) :
    others ((value &&& keepMask) ||| (offset.signExtend 32 <<< 8)) = others value := by
  apply BitVec.eq_of_getLsbD_eq
  intro i less
  have high : offset.getLsbD 7 = false := by rwa [BitVec.msb_eq_getLsbD_last] at positive
  simp only [others,BitVec.getLsbD_or,BitVec.getLsbD_and,BitVec.getLsbD_shiftLeft,BitVec.getLsbD_signExtend,positive,
    maskBit i less]
  by_cases inside : 8 ≤ i ∧ i < 15
  · simp [inside]
  rcases Nat.lt_or_ge i 8 with low | above
  · simp [low]
  rcases Nat.lt_or_ge i 16 with last | far
  · rw [show i - 8 = 7 by omega,high]
    simp
  · simp [show ¬ i - 8 < 8 by omega]

theorem adaptedTrim (latest) (t : BitVec 7) : (adapted latest ⟨⟨t.setWidth 8⟩⟩).toBitVec.msb = false ∧
      ((adapted latest ⟨⟨t.setWidth 8⟩⟩).toBitVec.setWidth 7).toNat = against latest t.toNat := by
  have down : ∀ t : BitVec 7, let offset : Int8 := ⟨⟨t.setWidth 8⟩⟩
      (if 0 < offset then offset - 1 else offset).toBitVec.msb = false ∧
      ((if 0 < offset then offset - 1 else offset).toBitVec.setWidth 7).toNat = t.toNat - 1 := by decide +kernel
  have up : ∀ t : BitVec 7, let offset : Int8 := ⟨⟨t.setWidth 8⟩⟩
      (if offset < 0x7f then offset + 1 else offset).toBitVec.msb = false ∧
      ((if offset < 0x7f then offset + 1 else offset).toBitVec.setWidth 7).toNat = min (t.toNat + 1) 0x7f := by
    decide +kernel
  unfold adapted against
  by_cases positive : 0 < latest
  · simp only [positive,if_true]
    exact down t
  · simp only [positive,if_false]
    exact up t

section Step
variable {s : FreqCalibrationCtrl}

theorem calibrated (approach : upBound s ≤ s.latestFreqOffsetOverBeacon ∨ s.latestFreqOffsetOverBeacon ≤ lowBound s) :
    (trim (frequencyCalibration s).xoCtrl5).toNat = against s.latestFreqOffsetOverBeacon (trim s.xoCtrl5).toNat ∧
      others (frequencyCalibration s).xoCtrl5 = others s.xoCtrl5 := by
  obtain ⟨positive,moved⟩ := adaptedTrim s.latestFreqOffsetOverBeacon (trim s.xoCtrl5)
  simp only [frequencyCalibration,approach,if_true,trimRead]
  exact ⟨by rw [trimWritten,moved],othersWritten _ positive⟩

theorem approachMeasured (measured : Measured s) :
    (upBound s ≤ s.latestFreqOffsetOverBeacon ∨ s.latestFreqOffsetOverBeacon ≤ lowBound s) ↔ Off s := by
  unfold Measured at measured
  unfold upBound lowBound Off deadBand
  rw [if_pos measured,if_pos measured,Int8.le_iff_toInt_le,Int8.le_iff_toInt_le]
  split
  · rw [show (4 : Int8).toInt = 4 from rfl,show (-4 : Int8).toInt = -4 from rfl]
    omega
  · rw [show (32 : Int8).toInt = 32 from rfl,show (-32 : Int8).toInt = -32 from rfl]
    omega

theorem approachUnmeasured (unmeasured : ¬ Measured s) :
    upBound s ≤ s.latestFreqOffsetOverBeacon ∨ s.latestFreqOffsetOverBeacon ≤ lowBound s := by
  unfold Measured at unmeasured
  unfold upBound lowBound
  rw [if_neg unmeasured,if_neg unmeasured,Int8.le_iff_toInt_le,Int8.le_iff_toInt_le]
  omega

theorem reactsMeasured (measured : Measured s) : Reacts s (frequencyCalibration s) := by
  have approach := approachMeasured measured
  by_cases off : Off s
  · obtain ⟨moved,same⟩ := calibrated (approach.mpr off)
    exact ⟨fun _ => ⟨measured,off⟩,fun _ _ => moved,same⟩
  · have still : (frequencyCalibration s).xoCtrl5 = s.xoCtrl5 := by
      simp only [frequencyCalibration,if_neg (mt approach.mp off)]
    exact ⟨fun moved => absurd (by rw [still]) moved,fun _ no => absurd no off,by rw [still]⟩

theorem againstStill (latest) (t : BitVec 7) :
    against latest t.toNat = t.toNat ↔ t = if 0 < latest then 0 else 0x7f := by
  have small := t.isLt
  unfold against
  split
  · rw [← BitVec.toNat_inj,show (0 : BitVec 7).toNat = 0 from rfl]
    omega
  · rw [← BitVec.toNat_inj,show (0x7f : BitVec 7).toNat = 127 from rfl]
    omega

theorem reactsIff : Reacts s (frequencyCalibration s) ↔ Steady s .frequencyCalibration := by
  by_cases measured : Measured s
  · exact iff_of_true (reactsMeasured measured) (.inl measured)
  · obtain ⟨moved,same⟩ := calibrated (approachUnmeasured measured)
    have still : trim (frequencyCalibration s).xoCtrl5 = trim s.xoCtrl5 ↔
        trim s.xoCtrl5 = if 0 < s.latestFreqOffsetOverBeacon then 0 else 0x7f := by
      rw [← againstStill,← moved,BitVec.toNat_inj]
    constructor
    · intro reacts
      exact .inr (still.mp (Decidable.byContradiction fun moves => measured (reacts.only moves).1))
    · rintro (yes | limit)
      · exact absurd yes measured
      · exact ⟨fun moves => absurd (still.mpr limit) moves,fun yes => absurd yes measured,same⟩

end Step

theorem trimReactsExactly (s : FreqCalibrationCtrl) (events : List Event) :
    Meets step TrimReacts s events ↔ Meets step Steady s events := by
  have same (s : FreqCalibrationCtrl) (e : Event) (_ : True) : TrimReacts s e ↔ Steady s e := by
    cases e with
    | frequencyCalibration => exact reactsIff
    | stopFrequencyCalibration => exact Iff.rfl
    | beacon bbpRxinfo1 mode => exact Iff.rfl
  exact meetsIffMeets same (fun _ _ _ _ => trivial) trivial

theorem trimDrifts :
    let s : FreqCalibrationCtrl := ⟨true,false,false,0,0,0,0,0x1400⟩
    let idle : List Event := .stopFrequencyCalibration :: List.replicate 3 .frequencyCalibration
    trim (run step s idle).xoCtrl5 = 0x17 ∧ ¬ Meets step TrimReacts s idle := by
  refine ⟨by decide,fun reacts => ?_⟩
  have first := reacts.2.1.only (by decide)
  exact first.1.2 (by decide)

end RtmpDriver.FreqCal
