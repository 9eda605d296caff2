import RtmpDriver.AccessLog

/-! WPA_ExtractSuiteFromRSNIE. The element is a memory from `rsnie` on and its length. Each field of the element is one
stage of the function; `len` and `offset` are INT, and the comparisons with a sizeof are comparisons of size_t. -/
namespace RtmpDriver.RsnSuites
open AccessLog

inductive WepStatus where
  | wepEnabled | wepDisabled | wepKeyAbsent | wepNotSupported | tkipEnable | encryption2KeyAbsent | aesEnable
  | encryption3KeyAbsent | tkipAesMix | encryption4KeyAbsent | groupWep40Enabled | groupWep104Enabled
  deriving DecidableEq, Repr

def WepStatus.rank : WepStatus → Nat
  | .wepEnabled => 0
  | .wepDisabled => 1
  | .wepKeyAbsent => 2
  | .wepNotSupported => 3
  | .tkipEnable => 4
  | .encryption2KeyAbsent => 5
  | .aesEnable => 6
  | .encryption3KeyAbsent => 7
  | .tkipAesMix => 8
  | .encryption4KeyAbsent => 9
  | .groupWep40Enabled => 10
  | .groupWep104Enabled => 11

inductive AuthMode where
  | openMode | shared | autoSwitch | wpa | wpaPsk | wpaNone | wpa2 | wpa2Psk | wpa1Wpa2 | wpa1PskWpa2Psk | max
  deriving DecidableEq, Repr

def AuthMode.belowWpa : AuthMode → Bool
  | .openMode | .shared | .autoSwitch => true
  | _ => false

def AuthMode.isWpa2 : AuthMode → Bool
  | .wpa2 | .wpa2Psk => true
  | _ => false

def ieWpa : UInt8 := 221
def ieRsn : UInt8 := 48
def lenOuiSuite : Nat := 4
def lenPmkid : Nat := 16

inductive SuiteType where
  | groupSuite | pairwiseSuite | akmSuite | rsnCapInfo | pmkidList | gMgmtSuite
  deriving DecidableEq, Repr

/- The packed structures RSNIE and RSNIE2, up to their first pairwise suite. -/
structure Layout where
  size : Nat
  mcast : Nat
  ucount : Nat
  ucast : Nat

def rsnie : Layout := ⟨16,6,10,12⟩
def rsnie2 : Layout := ⟨12,2,6,8⟩
def sizeofRsnieAuth : Nat := 6
def sizeofRsnCapabilities : Nat := 2
def sizeofRsniePmkid : Nat := 18

def le16At (m : Nat → UInt8) (p : Nat) : Nat := (m p).toNat + 256 * (m (p + 1)).toNat

def cInt (x : Int) : Int := (BitVec.ofInt 32 x).toInt

def belowSizeof (len : Int) (size : Nat) : Bool := (BitVec.ofInt 64 len).toNat < size

def listOffset (size unit count : Nat) : Int := cInt (size + unit * ((count : Int) - 1))

def Suites := Option (Nat × UInt8)
  deriving DecidableEq

/- Where DOT11W_PMF_SUPPORT is not defined (`pmf` false), the group management suite is not looked for. -/
def groupMgmtStage (pmf : Bool) (type : SuiteType) (pBuf : Nat) (len : Int) : Logged Span Suites :=
  if !pmf then pure none
  else if len < lenOuiSuite then pure none
  else if type = .gMgmtSuite then pure (some (pBuf,1))
  else pure none

def pmkidStage (pmf : Bool) (m : Nat → UInt8) (type : SuiteType) (pBuf : Nat) (len : Int) : Logged Span Suites :=
  if belowSizeof len 2 then pure none
  else do
    note ⟨pBuf,2⟩
    let pCount := le16At m pBuf
    if 0 < pCount then
      let offset := listOffset sizeofRsniePmkid lenPmkid pCount
      if len < offset then pure none
      else if type = .pmkidList then pure (some (pBuf + 2,UInt8.ofNat pCount))
      else groupMgmtStage pmf type (pBuf + offset.toNat) (len - offset)
    else if type = .pmkidList then pure none
    else groupMgmtStage pmf type (pBuf + 2) (len - 2)

def capabilityStage (pmf : Bool) (m : Nat → UInt8) (type : SuiteType) (pBuf : Nat) (len : Int) : Logged Span Suites :=
  if belowSizeof len sizeofRsnCapabilities then pure none
  else if type = .rsnCapInfo then pure (some (pBuf,1))
  else pmkidStage pmf m type (pBuf + sizeofRsnCapabilities) (len - sizeofRsnCapabilities)

def akmStage (pmf : Bool) (m : Nat → UInt8) (type : SuiteType) (pBuf : Nat) (len : Int) : Logged Span Suites :=
  if belowSizeof len sizeofRsnieAuth then pure none
  else do
    note ⟨pBuf,2⟩
    let aCnt := le16At m pBuf
    let offset := listOffset sizeofRsnieAuth lenOuiSuite aCnt
    if len < offset then pure none
    else if type = .akmSuite then pure (some (pBuf + 2,UInt8.ofNat aCnt))
    else do
      note ⟨0,1⟩
      -- for WPA1, the remaining shall be ignored
      if m 0 = ieWpa then pure none
      else capabilityStage pmf m type (pBuf + offset.toNat) (len - offset)

def cipherStage (pmf : Bool) (layout : Layout) (m : Nat → UInt8) (type : SuiteType) (pBuf : Nat) (len : Int) :
    Logged Span Suites :=
  if belowSizeof len layout.size then pure none
  else do
    note ⟨pBuf + layout.ucount,2⟩
    let uCnt := le16At m (pBuf + layout.ucount)
    let offset := listOffset layout.size lenOuiSuite uCnt
    if len < offset then pure none
    else if type = .groupSuite then pure (some (pBuf + layout.mcast,1))
    else if type = .pairwiseSuite then pure (some (pBuf + layout.ucast,UInt8.ofNat uCnt))
    else akmStage pmf m type (pBuf + offset.toNat) (len - offset)

def wpaExtractSuiteFromRsnie (pmf : Bool) (m : Nat → UInt8) (rsnieLen : BitVec 32) (type : SuiteType) :
    Logged Span Suites :=
  let len := (rsnieLen - 2).toInt
  if len ≤ 0 then pure none
  else do
    note ⟨1,1⟩
    if ((m 1).toNat : Int) ≠ len then pure none
    else do
      note ⟨0,1⟩
      if m 0 = ieWpa then cipherStage pmf rsnie m type 2 len
      else if m 0 = ieRsn then cipherStage pmf rsnie2 m type 2 len
      else pure none

def SuiteType.itemSize : SuiteType → Nat
  | .groupSuite | .pairwiseSuite | .akmSuite | .gMgmtSuite => lenOuiSuite
  | .rsnCapInfo => sizeofRsnCapabilities
  | .pmkidList => lenPmkid

structure Bounded (total : Nat) (type : SuiteType) (t : Logged Span Suites) : Prop where
  reads : All (Span.Within 0 total) t
  region : ∀ p count, t.value = some (p,count) → p + type.itemSize * count.toNat ≤ total

section Stages
variable {pmf : Bool} {m : Nat → UInt8} {type : SuiteType} {pBuf total : Nat} {len : Int}

theorem cIntSmall {x} (low : -2147483648 ≤ x) (high : x < 2147483648) : cInt x = x := by
  unfold cInt
  rw [BitVec.toInt_ofInt]
  exact Int.bmod_eq_of_le (by omega) (by omega)

theorem le16Lt (m p) : le16At m p < 65536 := by
  have low := (m p).toNat_lt
  have high := (m (p + 1)).toNat_lt
  unfold le16At
  omega

theorem listOffsetIs (size unit) {count} (small : size ≤ 18 ∧ unit ≤ 16) (word : count < 65536) :
    listOffset size unit count + unit = size + (unit * count : Nat) := by
  have most : unit * count ≤ 16 * 65535 := Nat.mul_le_mul small.2 (by omega)
  have product : (unit : Int) * ((count : Int) - 1) = (unit * count : Nat) - unit := by
    rw [Int.mul_sub,Int.mul_one,Int.natCast_mul]
  unfold listOffset
  rw [product]
  generalize unit * count = total at most ⊢
  rw [cIntSmall (by omega) (by omega)]
  omega

theorem belowSizeofIs {size} (positive : 0 ≤ len) (small : len ≤ 255) :
    belowSizeof len size = true ↔ len < size := by
  unfold belowSizeof
  rw [decide_eq_true_iff,BitVec.toNat_ofInt]
  omega

theorem boundedNone : Bounded total type (pure none) := ⟨allPure none,by rintro p count ⟨⟩⟩

theorem boundedSome {p count} (inside : p + type.itemSize * count.toNat ≤ total) :
    Bounded total type (pure (some (p,count))) := by
  refine ⟨allPure _,?_⟩
  rintro p' count' ⟨⟩
  exact inside

theorem boundedNote {span t} (inside : span.Within 0 total)
    (rest : Bounded total type t) : Bounded total type (note span >>= fun _ => t) :=
  ⟨allBind.mpr ⟨allNote.mpr inside,rest.reads⟩,rest.region⟩

theorem narrowed (unit count) : unit * (UInt8.ofNat count).toNat ≤ unit * count := by
  rw [UInt8.toNat_ofNat']
  exact Nat.mul_le_mul_left unit (Nat.mod_le count 256)

theorem groupMgmtBounded (whole : (pBuf : Int) + len = total) :
    Bounded total type (groupMgmtStage pmf type pBuf len) := by
  unfold groupMgmtStage
  split
  · exact boundedNone
  split
  · exact boundedNone
  next long =>
    split
    next mgmt =>
      subst mgmt
      refine boundedSome ?_
      show pBuf + 4 * 1 ≤ total
      have four : lenOuiSuite = 4 := rfl
      omega
    next => exact boundedNone

theorem pmkidBounded (whole : (pBuf : Int) + len = total) (positive : 0 ≤ len) (small : len ≤ 255) :
    Bounded total type (pmkidStage pmf m type pBuf len) := by
  unfold pmkidStage
  split
  · exact boundedNone
  next long =>
    rw [belowSizeofIs positive small] at long
    refine boundedNote ⟨Nat.zero_le _,by show pBuf + 2 ≤ total; omega⟩ ?_
    simp only
    split
    · have offset : _ + (16 : Int) = 18 + (16 * le16At m pBuf : Nat) :=
        listOffsetIs sizeofRsniePmkid lenPmkid (by decide) (le16Lt m pBuf)
      split
      · exact boundedNone
      next enough =>
        split
        next list =>
          subst list
          refine boundedSome ?_
          have less := narrowed 16 (le16At m pBuf)
          show pBuf + 2 + 16 * _ ≤ total
          omega
        next => exact groupMgmtBounded (by omega)
    · split
      · exact boundedNone
      · exact groupMgmtBounded (by omega)

theorem capabilityBounded (whole : (pBuf : Int) + len = total) (positive : 0 ≤ len) (small : len ≤ 255) :
    Bounded total type (capabilityStage pmf m type pBuf len) := by
  unfold capabilityStage
  have two : sizeofRsnCapabilities = 2 := rfl
  split
  · exact boundedNone
  next long =>
    rw [belowSizeofIs positive small] at long
    split
    next capability =>
      subst capability
      refine boundedSome ?_
      show pBuf + 2 * 1 ≤ total
      omega
    next => exact pmkidBounded (by omega) (by omega) (by omega)

theorem akmBounded (whole : (pBuf : Int) + len = total) (positive : 0 ≤ len) (small : len ≤ 255)
    (header : 2 ≤ pBuf) : Bounded total type (akmStage pmf m type pBuf len) := by
  unfold akmStage
  have six : sizeofRsnieAuth = 6 := rfl
  split
  · exact boundedNone
  next long =>
    rw [belowSizeofIs positive small] at long
    refine boundedNote ⟨Nat.zero_le _,by show pBuf + 2 ≤ total; omega⟩ ?_
    simp only
    have offset : _ + (4 : Int) = 6 + (4 * le16At m pBuf : Nat) :=
      listOffsetIs sizeofRsnieAuth lenOuiSuite (by decide) (le16Lt m pBuf)
    split
    · exact boundedNone
    next enough =>
      split
      next akm =>
        subst akm
        refine boundedSome ?_
        have less := narrowed 4 (le16At m pBuf)
        show pBuf + 2 + 4 * _ ≤ total
        omega
      next =>
        refine boundedNote ⟨Nat.zero_le _,by show 0 + 1 ≤ total; omega⟩ ?_
        split
        · exact boundedNone
        · exact capabilityBounded (by omega) (by omega) (by omega)

theorem cipherBounded (layout) (known : layout = rsnie ∨ layout = rsnie2)
    (whole : (pBuf : Int) + len = total) (positive : 0 ≤ len) (small : len ≤ 255) (header : 2 ≤ pBuf) :
    Bounded total type (cipherStage pmf layout m type pBuf len) := by
  have fields : layout.ucount + 2 = layout.ucast ∧ layout.ucast + 4 = layout.size ∧
      layout.mcast + 4 ≤ layout.size ∧ 4 ≤ layout.size ∧ layout.size ≤ 18 := by
    rcases known with rfl | rfl <;> decide
  have four : lenOuiSuite = 4 := rfl
  unfold cipherStage
  split
  · exact boundedNone
  next long =>
    rw [belowSizeofIs positive small] at long
    refine boundedNote ⟨Nat.zero_le _,by show pBuf + layout.ucount + 2 ≤ total; omega⟩ ?_
    simp only
    have offset : _ + (4 : Int) = layout.size + (4 * le16At m (pBuf + layout.ucount) : Nat) :=
      listOffsetIs layout.size lenOuiSuite (by omega) (le16Lt m (pBuf + layout.ucount))
    split
    · exact boundedNone
    next enough =>
      split
      next group =>
        subst group
        refine boundedSome ?_
        show pBuf + layout.mcast + 4 * 1 ≤ total
        omega
      next =>
        split
        next pairwise =>
          subst pairwise
          refine boundedSome ?_
          have less := narrowed 4 (le16At m (pBuf + layout.ucount))
          show pBuf + layout.ucast + 4 * _ ≤ total
          omega
        next => exact akmBounded (by omega) (by omega) (by omega) (by omega)

end Stages

theorem extractBounded (pmf : Bool) (m : Nat → UInt8) (rsnieLen : BitVec 32) (type : SuiteType) :
    (∀ r ∈ (wpaExtractSuiteFromRsnie pmf m rsnieLen type).log, r.start + r.size ≤ rsnieLen.toNat) ∧
      ∀ p count, (wpaExtractSuiteFromRsnie pmf m rsnieLen type).value = some (p,count) →
        p + type.itemSize * count.toNat ≤ rsnieLen.toNat := by
  have bounded : Bounded rsnieLen.toNat type (wpaExtractSuiteFromRsnie pmf m rsnieLen type) := by
    unfold wpaExtractSuiteFromRsnie
    simp only
    split
    · exact boundedNone
    next positive =>
      have whole : (2 : Int) + (rsnieLen - 2).toInt = rsnieLen.toNat := by
        have value : (rsnieLen - 2).toNat = (4294967296 - 2 + rsnieLen.toNat) % 4294967296 :=
          BitVec.toNat_sub rsnieLen 2
        have signed := BitVec.toInt_eq_toNat_cond (rsnieLen - 2)
        have most := rsnieLen.isLt
        split at signed <;> omega
      refine boundedNote ⟨Nat.zero_le _,by show 1 + 1 ≤ rsnieLen.toNat; omega⟩ ?_
      split
      · exact boundedNone
      next same =>
        have small := (m 1).toNat_lt
        refine boundedNote ⟨Nat.zero_le _,by show 0 + 1 ≤ rsnieLen.toNat; omega⟩ ?_
        split
        · exact cipherBounded rsnie (.inl rfl) whole (by omega) (by omega) (Nat.le_refl 2)
        split
        · exact cipherBounded rsnie2 (.inr rfl) whole (by omega) (by omega) (Nat.le_refl 2)
        · exact boundedNone
  exact ⟨fun r mem => (bounded.reads r mem).2,bounded.region⟩

end RtmpDriver.RsnSuites
