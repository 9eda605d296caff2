import RtmpDriver.AccessLog
import RtmpDriver.Michael
import RtmpDriver.TkipMix
import RtmpDriver.Wep

/-! RTMPSoftDecryptWEP and RTMPSoftDecryptTKIP with what they touch. -/
namespace RtmpDriver.SoftDecrypt
open EapolFrame ByteMemory AccessLog KeyWrap Wep Michael TkipMix List

def lenTkipIvHdr : Nat := 8
def lenTkipMic : Nat := 8

def Safe (count headerSize : Nat) : Event → Prop
  | .data s => s.Within 0 count
  | .header s => s.Within 0 headerSize
  | .length whole part => part ≤ whole

inductive NdisStatus where
  | success
  | failure
  | micError
  deriving DecidableEq

structure CipherKey where
  keyLen : Nat
  key : Bytes
  rxMic : Bytes

structure Addresses where
  da : Bytes
  ta : Bytes
  sa : Bytes

def headerField (h : Nat → UInt8) (offset : Nat) : Logged Event Bytes := do
  note (.header ⟨offset,macAddrLen⟩)
  pure (load h offset macAddrLen)

def assignAddresses (h : Nat → UInt8) : Logged Event Addresses := do
  note (.header ⟨0,2⟩)
  let fromDs := (h 1 &&& 0x2) >>> 1
  let toDs := h 1 &&& 0x1
  if toDs = 0 ∧ fromDs = 1 then do
    let da ← headerField h 4
    let ta ← headerField h 10
    let sa ← headerField h 16
    pure ⟨da,ta,sa⟩
  else if toDs = 0 ∧ fromDs = 0 then do
    let da ← headerField h 4
    let ta ← headerField h 10
    let sa ← headerField h 10
    pure ⟨da,ta,sa⟩
  else if toDs = 1 ∧ fromDs = 0 then do
    let sa ← headerField h 10
    let ta ← headerField h 10
    let da ← headerField h 16
    pure ⟨da,ta,sa⟩
  else do
    let ta ← headerField h 10
    let da ← headerField h 16
    let sa ← headerField h 24
    pure ⟨da,ta,sa⟩

section Tkip
variable {w : Nat}

def checkMic (tx : TkipKeyInfo w) (addresses : Addresses) (userPriority : UInt8) (key : CipherKey) (m : Nat → UInt8)
    (dataByteCnt plaintextLen : Nat) : Logged Event (Outcome NdisStatus × TkipKeyInfo w) := do
  let plaintextLen ← minus 32 plaintextLen lenTkipMic
  note (.data ⟨plaintextLen,lenTkipMic⟩)
  let trailMic := load m plaintextLen lenTkipMic
  let tx := rtmpInitMicEngine tx addresses.da addresses.sa userPriority key.rxMic
  note (.data ⟨0,plaintextLen⟩)
  let tx := rtmpTkipAppend tx (load m 0 plaintextLen)
  let tx := (rtmpTkipGetMic tx).getD tx
  if tx.mic = trailMic then pure (⟨.success,m,plaintextLen % 2 ^ 16⟩,tx)
  else pure (⟨.micError,m,dataByteCnt⟩,tx)

def openTkip (tx : TkipKeyInfo w) (addresses : Addresses) (userPriority : UInt8) (key : CipherKey) (rc4Key : Bytes)
    (m : Nat → UInt8) (dataByteCnt ciphertextLen : Nat) : Logged Event (Outcome NdisStatus × TkipKeyInfo w) := do
  let opened ← openData 32 lenTkipIvHdr (arc4Init rc4Key) m 0 ciphertextLen
  if opened.matched then checkMic tx addresses userPriority key opened.memory dataByteCnt opened.plaintextLen
  else pure (⟨.failure,opened.memory,dataByteCnt⟩,tx)

-- pnl is made of two UCHARs; pnh is read as an unsigned long and cut to 32 bits by cpu2le32.
def pnLow (w : Nat) (m : Nat → UInt8) : BitVec w := charShifted w (m 0) 8 ||| charShifted w (m 2) 0
def pnHigh (w : Nat) (m : Nat → UInt8) : BitVec w := (wordAt m 4).setWidth w

def rtmpSoftDecryptTkip (tx : TkipKeyInfo w) (h : Nat → UInt8) (userPriority : UInt8) (key : CipherKey)
    (m : Nat → UInt8) (dataByteCnt : Nat) : Logged Event (Outcome NdisStatus × TkipKeyInfo w) :=
  if key.keyLen = 0 then pure (⟨.failure,m,dataByteCnt⟩,tx)
  else do
    let addresses ← assignAddresses h
    note (.data ⟨0,1⟩)
    note (.data ⟨2,1⟩)
    note (.data ⟨4,w / 8⟩)
    let rc4Key := (rtmpTkipMixKey key.key addresses.ta (pnLow w m) (pnHigh w m)).1
    let ciphertextLen ← minus 32 dataByteCnt lenTkipIvHdr
    if dataByteCnt ≤ lenTkipIvHdr then pure (⟨.failure,m,dataByteCnt⟩,tx)
    else openTkip tx addresses userPriority key rc4Key m dataByteCnt ciphertextLen

end Tkip

section Rules
variable {count headerSize bits whole part ivHdr : Nat} {m : Nat → UInt8}

@[simp] theorem safeData {s} : Safe count headerSize (.data s) ↔ s.Within 0 count := Iff.rfl
@[simp] theorem safeHeader {s} : Safe count headerSize (.header s) ↔ s.Within 0 headerSize := Iff.rfl
@[simp] theorem safeLength : Safe count headerSize (.length whole part) ↔ part ≤ whole := Iff.rfl

theorem allMinus : All (Safe count headerSize) (minus bits whole part) ↔ part ≤ whole := by
  simp only [minus,allBind,allNote,safeLength,allPure,and_true]

theorem allOpen {ctx} (inside : ivHdr ≤ count) (fits : count < 2 ^ bits) :
    All (Safe count headerSize) (openData bits ivHdr ctx m 0 (count - ivHdr)) ↔ lenIcv ≤ count - ivHdr := by
  simp only [openData,allBind,allNote,safeData,allMinus,allPure,Span.Within,and_true]
  constructor
  · intro all
    exact all.2.2.1
  · intro enough
    rw [minusValue (by omega) enough]
    omega

theorem openValue {ctx len} (fits : len < 2 ^ bits) (enough : lenIcv ≤ len) :
    (openData bits ivHdr ctx m 0 len).value.plaintextLen = len - lenIcv ∧
      ((openData bits ivHdr ctx m 0 len).value.matched = true ↔
        ∃ payload, arc4Text ctx (load m ivHdr len) = payload ++ wordBytes (crc32 payload)) := by
  have length := minusValue fits enough
  have size : (arc4Text ctx (load m ivHdr len)).length = len - lenIcv + 4 := by
    rw [arc4Length,loadLength]
    exact (Nat.sub_add_cancel enough).symm
  refine ⟨length,?_⟩
  have matched := icvHolds (m := m) (p := 0) size
  rw [← arc4ComputeAtIs (Nat.zero_le ivHdr)] at matched
  rw [← matched,openIs]
  simp only [length,decide_eq_true_eq,Nat.zero_add]

end Rules

section Wep
variable {mem : WepMemory} {key : Bytes} {m : Nat → UInt8} {count : Nat}

structure WepSafe (mem : WepMemory) (key : Bytes) (m : Nat → UInt8) (count : Nat) : Prop where
  inside : All (Safe count 0) (rtmpSoftDecryptWep mem key m 0 count)
  refused : count < lenWepIvHdr + lenIcv →
    (rtmpSoftDecryptWep mem key m 0 count).value.status = false ∧
      (rtmpSoftDecryptWep mem key m 0 count).value.dataByteCnt = count

theorem seedSafe (long : lenWepTsc ≤ count) : All (Safe count 0) (readSeed mem key m 0) := by
  unfold readSeed
  split
  next =>
    simp only [allBind,allNote,safeData,allPure,Span.Within,and_true]
    omega
  next => exact allPure _

theorem wepInside (taken : ¬ (mem.context = false ∨ key.length = 0)) (small : count < 2 ^ 16) :
    All (Safe count 0) (rtmpSoftDecryptWep mem key m 0 count) ↔ count = 4 ∨ 8 ≤ count := by
  have header : lenWepIvHdr = 4 := rfl
  have icv : lenIcv = 4 := rfl
  obtain ⟨ready,filled⟩ := not_or.mp taken
  rw [rtmpSoftDecryptWep,if_neg ready,if_neg filled]
  simp only [allBind,allMinus,allIte,allPure,imp_true_iff,true_and,and_true]
  constructor
  · rintro ⟨_,long,rest⟩
    by_cases short : count ≤ lenWepIvHdr
    · omega
    · have opened := rest short
      rw [minusValue small long,allOpen long small] at opened
      omega
  · intro enough
    have long : lenWepIvHdr ≤ count := by omega
    have tsc : lenWepTsc ≤ count := Nat.le_trans (by decide) long
    refine ⟨seedSafe tsc,long,fun more => ?_⟩
    rw [minusValue small long,allOpen long small]
    omega

theorem wepSafeIff (small : count < 2 ^ 16) :
    WepSafe mem key m count ↔ (mem.context = false ∨ key.length = 0) ∨ count = 4 ∨ 8 ≤ count := by
  by_cases early : mem.context = false ∨ key.length = 0
  · have call : rtmpSoftDecryptWep mem key m 0 count = pure ⟨false,m,count⟩ := wepEarly early
    refine iff_of_true ⟨?_,?_⟩ (.inl early)
    · rw [call]
      exact allPure _
    · rw [call]
      exact fun _ => ⟨rfl,rfl⟩
  constructor
  · intro safe
    exact .inr ((wepInside early small).mp safe.inside)
  · intro condition
    have enough := condition.resolve_left early
    refine ⟨(wepInside early small).mpr enough,fun short => ?_⟩
    have header : lenWepIvHdr = 4 := rfl
    have icv : lenIcv = 4 := rfl
    rw [wepShort early (by omega)]
    exact ⟨rfl,rfl⟩

end Wep

section Header
variable {h m : Nat → UInt8} {w count : Nat}

def headerSize (h : Nat → UInt8) : Nat := if h 1 &&& 0x3 = 0x3 then 30 else 24

theorem bothBits (b : UInt8) : ¬ (b &&& 0x1 = 0 ∧ (b &&& 0x2) >>> 1 = 1) → ¬ (b &&& 0x1 = 0 ∧ (b &&& 0x2) >>> 1 = 0) →
    ¬ (b &&& 0x1 = 1 ∧ (b &&& 0x2) >>> 1 = 0) → b &&& 0x3 = 0x3 := by
  obtain ⟨b⟩ := b
  revert b
  decide +kernel

theorem allField {offset} :
    All (Safe count (headerSize h)) (headerField h offset) ↔ offset + macAddrLen ≤ headerSize h := by
  simp only [headerField,allBind,allNote,safeHeader,allPure,Span.Within,and_true,Nat.zero_le,true_and]

theorem addressesSafe : All (Safe count (headerSize h)) (assignAddresses h) := by
  have least : 24 ≤ headerSize h := by
    unfold headerSize
    split <;> decide
  have size : macAddrLen = 6 := rfl
  unfold assignAddresses
  simp only [allBind,allNote,safeHeader,Span.Within,allIte,allField,allPure,and_true]
  refine ⟨by omega,fun _ => by omega,fun first => ⟨fun _ => by omega,fun second => ⟨fun _ => by omega,fun third => ?_⟩⟩⟩
  have four : headerSize h = 30 := if_pos (bothBits (h 1) first second third)
  omega

theorem transmitterIs : (assignAddresses h).value.ta = load h 10 macAddrLen := by
  simp only [assignAddresses,bindValue]
  split
  next => rfl
  next =>
    split
    next => rfl
    next => split <;> rfl

def tscOf (m : Nat → UInt8) : BitVec 48 := wordAt m 4 ++ mk16 (m 0) (m 2)

theorem pnLowIs (wide : 32 ≤ w) : (pnLow w m).setWidth 16 = (tscOf m).extractLsb' 0 16 := by
  rw [tscOf,BitVec.extractLsb'_append_eq_right,← BitVec.setWidth_setWidth_of_le (pnLow w m) (show 16 ≤ 32 by decide),
    pnLow,BitVec.setWidth_or,charLow wide,charLow wide]
  apply BitVec.eq_of_getLsbD_eq
  intro i inside
  rw [mk16,BitVec.getLsbD_append]
  rcases Nat.lt_or_ge i 8 with low | high
  · simp [inside,low]
  · have none : (m 2).toBitVec.getLsbD i = false := BitVec.getLsbD_of_ge _ _ high
    simp [inside,Nat.not_lt.mpr high,none]

theorem pnHighIs (wide : 32 ≤ w) : (pnHigh w m).setWidth 32 = (tscOf m).extractLsb' 16 32 := by
  rw [tscOf,BitVec.extractLsb'_append_eq_left,pnHigh,BitVec.setWidth_setWidth_of_le _ wide,BitVec.setWidth_eq]

end Header

section Frame
variable {w count : Nat} {tx : TkipKeyInfo w} {h m : Nat → UInt8} {userPriority : UInt8} {key : CipherKey}

structure TkipSafe (tx : TkipKeyInfo w) (h : Nat → UInt8) (userPriority : UInt8) (key : CipherKey) (m : Nat → UInt8)
    (count : Nat) : Prop where
  inside : All (Safe count (headerSize h)) (rtmpSoftDecryptTkip tx h userPriority key m count)
  refused : count < lenTkipIvHdr + lenIcv + lenTkipMic →
    (rtmpSoftDecryptTkip tx h userPriority key m count).value.1.status = .failure ∧
      (rtmpSoftDecryptTkip tx h userPriority key m count).value.1.dataByteCnt = count

def IcvUnder (rc4Key : Bytes) (m : Nat → UInt8) (count : Nat) : Prop :=
  ∃ payload, arc4Text (arc4Init rc4Key) (load m lenTkipIvHdr (count - lenTkipIvHdr)) =
    payload ++ wordBytes (crc32 payload)

def TkipIcvMatches (h : Nat → UInt8) (key : Bytes) (m : Nat → UInt8) (count : Nat) : Prop :=
  IcvUnder (wepSeed key (load h 10 macAddrLen) (tscOf m)) m count

theorem allCheckMic {a len} (fits : len < 2 ^ 32) (room : len ≤ count) :
    All (Safe count (headerSize h)) (checkMic tx a userPriority key m count len) ↔ lenTkipMic ≤ len := by
  simp only [checkMic,allBind,allNote,safeData,allMinus,allIte,allPure,Span.Within,imp_true_iff,and_true]
  constructor
  · intro all
    exact all.1
  · intro enough
    rw [minusValue fits enough]
    omega

theorem tkipEarly (empty : key.keyLen = 0) :
    rtmpSoftDecryptTkip tx h userPriority key m count = pure (⟨.failure,m,count⟩,tx) := if_pos empty

theorem allOpenTkip {a rc4Key} (small : count < 2 ^ 16) (long : lenTkipIvHdr ≤ count) :
    All (Safe count (headerSize h)) (openTkip tx a userPriority key rc4Key m count (count - lenTkipIvHdr)) ↔
      (12 ≤ count ∧ ¬ IcvUnder rc4Key m count) ∨ 20 ≤ count := by
  have header : lenTkipIvHdr = 8 := rfl
  have icv : lenIcv = 4 := rfl
  have mic : lenTkipMic = 8 := rfl
  have fits : count - lenTkipIvHdr < 2 ^ 32 := by omega
  simp only [openTkip,allBind,allIte,allPure,imp_true_iff,and_true]
  rw [allOpen long (by omega)]
  by_cases enough : lenIcv ≤ count - lenTkipIvHdr
  · obtain ⟨length,matched⟩ := openValue fits enough
    rw [length,matched,allCheckMic (by omega) (by omega)]
    constructor
    · rintro ⟨_,checked⟩
      by_cases same : IcvUnder rc4Key m count
      · have := checked same
        omega
      · exact .inl ⟨by omega,same⟩
    · rintro (⟨_,other⟩ | full)
      · exact ⟨enough,fun same => absurd same other⟩
      · exact ⟨enough,fun _ => by omega⟩
  · constructor
    · exact fun all => absurd all.1 enough
    · rintro (⟨some,_⟩ | full)
      · omega
      · omega

theorem openTkipRefused {a rc4Key} (small : count < 2 ^ 16) (enough : 12 ≤ count)
    (other : ¬ IcvUnder rc4Key m count) :
    ∃ m', (openTkip tx a userPriority key rc4Key m count (count - lenTkipIvHdr)).value = (⟨.failure,m',count⟩,tx) := by
  have fits : count - lenTkipIvHdr < 2 ^ 32 := by omega
  have room : lenIcv ≤ count - lenTkipIvHdr := Nat.le_sub_of_add_le enough
  have matched : ¬ (openData 32 lenTkipIvHdr (arc4Init rc4Key) m 0 (count - lenTkipIvHdr)).value.matched = true := by
    rwa [(openValue fits room).2]
  exact ⟨_,bindElse matched⟩

theorem rc4KeyIs (wide : 32 ≤ w) (key) :
    (rtmpTkipMixKey key (assignAddresses h).value.ta (pnLow w m) (pnHigh w m)).1 =
      wepSeed key (load h 10 macAddrLen) (tscOf m) := by
  rw [mixKeyIs wide key _ (pnLowIs wide) (pnHighIs wide),transmitterIs]

theorem tkipInside (width : w = 32 ∨ w = 64) (filled : ¬ key.keyLen = 0) (small : count < 2 ^ 16) :
    All (Safe count (headerSize h)) (rtmpSoftDecryptTkip tx h userPriority key m count) ↔
      (count = 8 ∧ w = 32) ∨ (12 ≤ count ∧ ¬ TkipIcvMatches h key.key m count) ∨ 20 ≤ count := by
  have header : lenTkipIvHdr = 8 := rfl
  have wide : 32 ≤ w := by omega
  have fits : count < 2 ^ 32 := by omega
  rw [rtmpSoftDecryptTkip,if_neg filled]
  simp only [allBind,allNote,safeData,allMinus,allIte,allPure,Span.Within,imp_true_iff,true_and,
    addressesSafe,rc4KeyIs wide]
  constructor
  · rintro ⟨_,_,word,long,rest⟩
    by_cases short : count ≤ lenTkipIvHdr
    · omega
    have opened := rest short
    rw [minusValue fits long,allOpenTkip small long] at opened
    exact .inr opened
  · intro enough
    have long : lenTkipIvHdr ≤ count := by omega
    refine ⟨by omega,by omega,by omega,long,fun more => ?_⟩
    rw [minusValue fits long,allOpenTkip small long]
    exact enough.resolve_left (by omega)

theorem tkipRefused (wide : 32 ≤ w) (filled : ¬ key.keyLen = 0) (small : count < 2 ^ 16) (long : lenTkipIvHdr ≤ count)
    (short : count = 8 ∨ 12 ≤ count ∧ ¬ TkipIcvMatches h key.key m count) :
    ∃ m', (rtmpSoftDecryptTkip tx h userPriority key m count).value = (⟨.failure,m',count⟩,tx) := by
  have fits : count < 2 ^ 32 := by omega
  rw [rtmpSoftDecryptTkip,if_neg filled,bindValue,bindValue,bindValue,bindValue,bindValue]
  by_cases guarded : count ≤ lenTkipIvHdr
  · rw [if_pos guarded]
    exact ⟨m,rfl⟩
  · obtain ⟨enough,other⟩ := short.resolve_left (fun eight => guarded (Nat.le_of_eq eight))
    rw [if_neg guarded,minusValue fits long,rc4KeyIs wide]
    exact openTkipRefused small enough other

theorem tkipSafeIff (width : w = 32 ∨ w = 64) (small : count < 2 ^ 16) :
    TkipSafe tx h userPriority key m count ↔ key.keyLen = 0 ∨ (count = 8 ∧ w = 32) ∨
      (12 ≤ count ∧ ¬ TkipIcvMatches h key.key m count) ∨ 20 ≤ count := by
  by_cases empty : key.keyLen = 0
  · have call : rtmpSoftDecryptTkip tx h userPriority key m count = pure (⟨.failure,m,count⟩,tx) := tkipEarly empty
    refine iff_of_true ⟨?_,?_⟩ (.inl empty)
    · rw [call]
      exact allPure _
    · rw [call]
      exact fun _ => ⟨rfl,rfl⟩
  constructor
  · intro safe
    exact .inr ((tkipInside width empty small).mp safe.inside)
  · intro condition
    have enough := condition.resolve_left empty
    refine ⟨(tkipInside width empty small).mpr enough,fun short => ?_⟩
    have wide : 32 ≤ w := by omega
    have long : lenTkipIvHdr ≤ count := by
      unfold lenTkipIvHdr
      omega
    have refused : count = 8 ∨ 12 ≤ count ∧ ¬ TkipIcvMatches h key.key m count := by
      rcases enough with ⟨eight,_⟩ | other | full
      · exact .inl eight
      · exact .inr other
      · exact absurd full (Nat.not_le.mpr short)
    obtain ⟨m',value⟩ := tkipRefused wide empty small long refused
    rw [value]
    exact ⟨rfl,rfl⟩

end Frame

theorem softDecryptSafe (mem : WepMemory) (wepKey : Bytes) (w : Nat) (width : w = 32 ∨ w = 64) (tx : TkipKeyInfo w)
    (h : Nat → UInt8) (userPriority : UInt8) (key : CipherKey) (m : Nat → UInt8) (count : Nat)
    (small : count < 2 ^ 16) :
    (WepSafe mem wepKey m count ↔ (mem.context = false ∨ wepKey.length = 0) ∨ count = 4 ∨ 8 ≤ count) ∧
      (TkipSafe tx h userPriority key m count ↔ key.keyLen = 0 ∨ (count = 8 ∧ w = 32) ∨
        (12 ≤ count ∧ ¬ TkipIcvMatches h key.key m count) ∨ 20 ≤ count) :=
  ⟨wepSafeIff small,tkipSafeIff width small⟩

theorem softDecryptSafeEmpty :
    WepSafe sampleMemory [1,2,3,4,5] (fun _ => 0) 20 ∧
      TkipSafe (⟨0,0,0,0,0,0,[]⟩ : TkipKeyInfo 64) (fun _ => 0) 0 ⟨16,replicate 16 0,replicate 8 0⟩
        (fun _ => 0) 20 := by
  obtain ⟨wep,tkip⟩ := softDecryptSafe sampleMemory [1,2,3,4,5] 64 (.inr rfl) ⟨0,0,0,0,0,0,[]⟩ (fun _ => 0) 0
    ⟨16,replicate 16 0,replicate 8 0⟩ (fun _ => 0) 20 (by decide)
  exact ⟨wep.mpr (.inr (.inr (by decide))),tkip.mpr (.inr (.inr (.inr (Nat.le_refl 20))))⟩

theorem softDecryptStray :
    ¬ WepSafe sampleMemory [1,2,3,4,5] (fun _ => 0) 5 ∧
      ¬ TkipSafe (⟨0,0,0,0,0,0,[]⟩ : TkipKeyInfo 64) (fun _ => 0) 0 ⟨16,replicate 16 0,replicate 8 0⟩
        (fun _ => 0) 9 := by
  constructor
  · intro safe
    rcases (wepSafeIff (by decide)).mp safe with (absent | empty) | four | eight
    · exact absurd absent (by decide)
    · exact absurd empty (by decide)
    · exact absurd four (by decide)
    · exact absurd eight (by decide)
  · intro safe
    rcases (tkipSafeIff (.inr rfl) (by decide)).mp safe with empty | ⟨eight,_⟩ | ⟨twelve,_⟩ | twenty
    · exact absurd empty (by decide)
    · exact absurd eight (by decide)
    · exact absurd twelve (by decide)
    · exact absurd twenty (by decide)

end RtmpDriver.SoftDecrypt
