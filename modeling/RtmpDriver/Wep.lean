import RtmpDriver.AccessLog
import RtmpDriver.Crc
import RtmpDriver.KeyWrap
import RtmpDriver.StreamMove

/-! The WEP functions of `cmm_wep.c`. On decryption ARC4_Compute writes the plain text four bytes before the cipher
text it reads, onto the IV header. The log of a decryption holds the parts of the received data and of the header that
are read or written, and the two sides of every subtraction that yields a length. -/
namespace RtmpDriver.Wep
open EapolFrame KeyWrap ByteMemory StreamMove AccessLog List

def lenWepIvHdr : Nat := 4
def lenWepTsc : Nat := 3
def lenIcv : Nat := 4
def pppinitfcs32 : BitVec 32 := 0xffffffff

def fcstab32 : List (BitVec 32) := [
  0x00000000,0x77073096,0xee0e612c,0x990951ba,0x076dc419,0x706af48f,0xe963a535,0x9e6495a3,
  0x0edb8832,0x79dcb8a4,0xe0d5e91e,0x97d2d988,0x09b64c2b,0x7eb17cbd,0xe7b82d07,0x90bf1d91,
  0x1db71064,0x6ab020f2,0xf3b97148,0x84be41de,0x1adad47d,0x6ddde4eb,0xf4d4b551,0x83d385c7,
  0x136c9856,0x646ba8c0,0xfd62f97a,0x8a65c9ec,0x14015c4f,0x63066cd9,0xfa0f3d63,0x8d080df5,
  0x3b6e20c8,0x4c69105e,0xd56041e4,0xa2677172,0x3c03e4d1,0x4b04d447,0xd20d85fd,0xa50ab56b,
  0x35b5a8fa,0x42b2986c,0xdbbbc9d6,0xacbcf940,0x32d86ce3,0x45df5c75,0xdcd60dcf,0xabd13d59,
  0x26d930ac,0x51de003a,0xc8d75180,0xbfd06116,0x21b4f4b5,0x56b3c423,0xcfba9599,0xb8bda50f,
  0x2802b89e,0x5f058808,0xc60cd9b2,0xb10be924,0x2f6f7c87,0x58684c11,0xc1611dab,0xb6662d3d,
  0x76dc4190,0x01db7106,0x98d220bc,0xefd5102a,0x71b18589,0x06b6b51f,0x9fbfe4a5,0xe8b8d433,
  0x7807c9a2,0x0f00f934,0x9609a88e,0xe10e9818,0x7f6a0dbb,0x086d3d2d,0x91646c97,0xe6635c01,
  0x6b6b51f4,0x1c6c6162,0x856530d8,0xf262004e,0x6c0695ed,0x1b01a57b,0x8208f4c1,0xf50fc457,
  0x65b0d9c6,0x12b7e950,0x8bbeb8ea,0xfcb9887c,0x62dd1ddf,0x15da2d49,0x8cd37cf3,0xfbd44c65,
  0x4db26158,0x3ab551ce,0xa3bc0074,0xd4bb30e2,0x4adfa541,0x3dd895d7,0xa4d1c46d,0xd3d6f4fb,
  0x4369e96a,0x346ed9fc,0xad678846,0xda60b8d0,0x44042d73,0x33031de5,0xaa0a4c5f,0xdd0d7cc9,
  0x5005713c,0x270241aa,0xbe0b1010,0xc90c2086,0x5768b525,0x206f85b3,0xb966d409,0xce61e49f,
  0x5edef90e,0x29d9c998,0xb0d09822,0xc7d7a8b4,0x59b33d17,0x2eb40d81,0xb7bd5c3b,0xc0ba6cad,
  0xedb88320,0x9abfb3b6,0x03b6e20c,0x74b1d29a,0xead54739,0x9dd277af,0x04db2615,0x73dc1683,
  0xe3630b12,0x94643b84,0x0d6d6a3e,0x7a6a5aa8,0xe40ecf0b,0x9309ff9d,0x0a00ae27,0x7d079eb1,
  0xf00f9344,0x8708a3d2,0x1e01f268,0x6906c2fe,0xf762575d,0x806567cb,0x196c3671,0x6e6b06e7,
  0xfed41b76,0x89d32be0,0x10da7a5a,0x67dd4acc,0xf9b9df6f,0x8ebeeff9,0x17b7be43,0x60b08ed5,
  0xd6d6a3e8,0xa1d1937e,0x38d8c2c4,0x4fdff252,0xd1bb67f1,0xa6bc5767,0x3fb506dd,0x48b2364b,
  0xd80d2bda,0xaf0a1b4c,0x36034af6,0x41047a60,0xdf60efc3,0xa867df55,0x316e8eef,0x4669be79,
  0xcb61b38c,0xbc66831a,0x256fd2a0,0x5268e236,0xcc0c7795,0xbb0b4703,0x220216b9,0x5505262f,
  0xc5ba3bbe,0xb2bd0b28,0x2bb45a92,0x5cb36a04,0xc2d7ffa7,0xb5d0cf31,0x2cd99e8b,0x5bdeae1d,
  0x9b64c2b0,0xec63f226,0x756aa39c,0x026d930a,0x9c0906a9,0xeb0e363f,0x72076785,0x05005713,
  0x95bf4a82,0xe2b87a14,0x7bb12bae,0x0cb61b38,0x92d28e9b,0xe5d5be0d,0x7cdcefb7,0x0bdbdf21,
  0x86d3d2d4,0xf1d4e242,0x68ddb3f8,0x1fda836e,0x81be16cd,0xf6b9265b,0x6fb077e1,0x18b74777,
  0x88085ae6,0xff0f6a70,0x66063bca,0x11010b5c,0x8f659eff,0xf862ae69,0x616bffd3,0x166ccf45,
  0xa00ae278,0xd70dd2ee,0x4e048354,0x3903b3c2,0xa7672661,0xd06016f7,0x4969474d,0x3e6e77db,
  0xaed16a4a,0xd9d65adc,0x40df0b66,0x37d83bf0,0xa9bcae53,0xdebb9ec5,0x47b2cf7f,0x30b5ffe9,
  0xbdbdf21c,0xcabac28a,0x53b39330,0x24b4a3a6,0xbad03605,0xcdd70693,0x54de5729,0x23d967bf,
  0xb3667a2e,0xc4614ab8,0x5d681b02,0x2a6f2b94,0xb40bbe37,0xc30c8ea1,0x5a05df1b,0x2d02ef8d]

def fcsTable (i : BitVec 8) : BitVec 32 := fcstab32.getD i.toNat 0

def rtmpCalcFcs32 (fcs : BitVec 32) (data : Bytes) : BitVec 32 := data.foldl (Crc.tableStep fcsTable) fcs

def wordBytes (w : BitVec 32) : Bytes :=
  [UInt8.ofNat (w.toNat % 256),UInt8.ofNat (w.toNat / 256 % 256),UInt8.ofNat (w.toNat / 65536 % 256),
    UInt8.ofNat (w.toNat / 16777216)]

def wordAt (m : Nat → UInt8) (p : Nat) : BitVec 32 :=
  BitVec.ofNat 32 ((m p).toNat + 256 * (m (p + 1)).toNat + 65536 * (m (p + 2)).toNat + 16777216 * (m (p + 3)).toNat)

def arc4Step (c : Arc4) (b : UInt8) : Arc4 × UInt8 := (arc4Next c,b ^^^ arc4Byte (arc4Next c))

/- ARC4_Compute from one place of a memory to another. -/
def arc4ComputeAt (c : Arc4) (input size output : Nat) (m : Nat → UInt8) : Nat → UInt8 :=
  move arc4Step c input output size m

structure WepMemory where
  context : Bool
  seed : Bool
  stale : Arc4

def WepMemory.Ready (mem : WepMemory) : Prop := mem.context = true ∧ mem.seed = true

def wepStream (iv key : Bytes) : Arc4 := arc4Init (iv.take lenWepTsc ++ key)

def rtmpInitWepEngine (mem : WepMemory) (iv key : Bytes) : Arc4 := if mem.seed then wepStream iv key else mem.stale

def rtmpConstructWepIvHdr (keyIdx : Nat) (pn : Bytes) : Bytes :=
  pn.take lenWepTsc ++ [UInt8.ofNat (keyIdx * 64)]

def icvOf (data : Bytes) : BitVec 32 := rtmpCalcFcs32 pppinitfcs32 data ^^^ 0xffffffff

def rtmpSoftEncryptWep (mem : WepMemory) (ivHdr key : Bytes) (m : Nat → UInt8) (data dataByteCnt : Nat) :
    Option (Nat → UInt8) :=
  if mem.context = false then none
  else if key.length = 0 then none
  else
    let m := store m (data + dataByteCnt) (wordBytes (icvOf (load m data dataByteCnt)))
    some (arc4ComputeAt (rtmpInitWepEngine mem ivHdr key) data (dataByteCnt + lenIcv) data m)

inductive Event where
  | data (s : Span)
  | header (s : Span)
  | length (whole part : Nat)

structure Outcome (Status : Type) where
  status : Status
  memory : Nat → UInt8
  dataByteCnt : Nat

def minus (bits whole part : Nat) : Logged Event Nat := do
  note (.length whole part)
  pure ((whole + 2 ^ bits - part) % 2 ^ bits)

structure Opened where
  memory : Nat → UInt8
  plaintextLen : Nat
  matched : Bool

def openData (bits ivHdr : Nat) (ctx : Arc4) (m : Nat → UInt8) (data ciphertextLen : Nat) : Logged Event Opened := do
  note (.data ⟨ivHdr,ciphertextLen⟩)
  note (.data ⟨0,ciphertextLen⟩)
  let m := arc4ComputeAt ctx (data + ivHdr) ciphertextLen data m
  let plaintextLen ← minus bits ciphertextLen lenIcv
  note (.data ⟨plaintextLen,lenIcv⟩)
  note (.data ⟨0,plaintextLen⟩)
  pure ⟨m,plaintextLen,icvOf (load m data plaintextLen) = wordAt m (data + plaintextLen)⟩

def readSeed (mem : WepMemory) (key : Bytes) (m : Nat → UInt8) (data : Nat) : Logged Event Arc4 := do
  if mem.seed then note (.data ⟨0,lenWepTsc⟩)
  pure (rtmpInitWepEngine mem (load m data lenWepTsc) key)

def rtmpSoftDecryptWep (mem : WepMemory) (key : Bytes) (m : Nat → UInt8) (data dataByteCnt : Nat) :
    Logged Event (Outcome Bool) :=
  if mem.context = false then pure ⟨false,m,dataByteCnt⟩
  else if key.length = 0 then pure ⟨false,m,dataByteCnt⟩
  else do
    let ctx ← readSeed mem key m data
    let ciphertextLen ← minus 16 dataByteCnt lenWepIvHdr
    if dataByteCnt ≤ lenWepIvHdr then pure ⟨false,m,dataByteCnt⟩
    else do
      let opened ← openData 16 lenWepIvHdr ctx m data ciphertextLen
      if opened.matched then pure ⟨true,opened.memory,opened.plaintextLen⟩
      else pure ⟨false,opened.memory,dataByteCnt⟩

def plaintextLen (dataByteCnt : Nat) : Nat := (dataByteCnt - lenWepIvHdr + 65536 - lenIcv) % 65536

def decrypted (key : Bytes) (m : Nat → UInt8) (data dataByteCnt : Nat) : Nat → UInt8 :=
  arc4ComputeAt (wepStream (load m data lenWepTsc) key) (data + lenWepIvHdr) (dataByteCnt - lenWepIvHdr) data m

def crc32 : Bytes → BitVec 32 := Crc.code 0xedb88320

def IcvMatches (key : Bytes) (m : Nat → UInt8) (data dataByteCnt : Nat) : Prop :=
  ∃ payload, arc4Text (wepStream (load m data lenWepTsc) key)
    (load m (data + lenWepIvHdr) (dataByteCnt - lenWepIvHdr)) = payload ++ wordBytes (crc32 payload)

variable {mem : WepMemory} {key payload pn : Bytes} {m m' : Nat → UInt8} {data count p : Nat} {w : BitVec 32}

theorem fcsTableIs (i) : fcsTable i = Crc.bitSteps 0xedb88320 8 (i.setWidth 32) := by
  have table : fcstab32 = (range 256).map fun n => Crc.bitSteps 0xedb88320 8 (BitVec.ofNat 32 n) := by
    decide +kernel
  have inside : i.toNat < 256 := i.isLt
  have wide : BitVec.ofNat 32 i.toNat = i.setWidth 32 := BitVec.ofNat_toNat 32 i
  rw [fcsTable,table]
  simp [getD_eq_getElem?_getD,inside,wide]

theorem fcsStepIs : Crc.tableStep fcsTable = Crc.byteStep 0xedb88320 := by
  funext r b
  exact Crc.byteStepTable fcsTableIs r b

theorem fcsIsSerial (fcs : BitVec 32) (data : Bytes) :
    rtmpCalcFcs32 fcs data = Crc.serial 0xedb88320 fcs data ∧
      ∀ more, rtmpCalcFcs32 fcs (data ++ more) = rtmpCalcFcs32 (rtmpCalcFcs32 fcs data) more := by
  constructor
  · rw [rtmpCalcFcs32,fcsStepIs]
    exact Crc.foldByteStep fcs data
  · intro more
    exact foldl_append

example : Crc.serial 0xedb88320 pppinitfcs32 [49,50,51,52,53,54,55,56,57] = ~~~0xcbf43926#32 := by decide +kernel

theorem icvOfIs (data) : icvOf data = crc32 data := by
  unfold icvOf rtmpCalcFcs32
  rw [fcsStepIs]
  rfl

@[simp] theorem wordBytesLength : (wordBytes w).length = 4 := rfl

theorem wordBytesAt : wordBytes (wordAt m p) = load m p 4 := by
  have b₀ := (m p).toNat_lt
  have b₁ := (m (p + 1)).toNat_lt
  have b₂ := (m (p + 2)).toNat_lt
  have b₃ := (m (p + 3)).toNat_lt
  have value : (wordAt m p).toNat = (m p).toNat + 256 * (m (p + 1)).toNat + 65536 * (m (p + 2)).toNat +
      16777216 * (m (p + 3)).toNat := by
    rw [wordAt,BitVec.toNat_ofNat]
    exact Nat.mod_eq_of_lt (by omega)
  have byte : ∀ (n : Nat) (b : UInt8), n = b.toNat → UInt8.ofNat n = b := by
    intro n b same
    rw [same,UInt8.ofNat_toNat]
  show [_,_,_,_] = [m p,m (p + 1),m (p + 2),m (p + 3)]
  rw [byte _ (m p) (by omega),byte _ (m (p + 1)) (by omega),byte _ (m (p + 2)) (by omega),
    byte _ (m (p + 3)) (by omega)]

theorem wordBytesInj {w'} (same : wordBytes w = wordBytes w') : w = w' := by
  have bytes : ∀ a b : Nat, UInt8.ofNat a = UInt8.ofNat b → a % 256 = b % 256 := by
    intro a b same
    simpa using congrArg UInt8.toNat same
  unfold wordBytes at same
  simp only [List.cons.injEq,and_true] at same
  obtain ⟨s₀,s₁,s₂,s₃⟩ := same
  have e₀ := bytes _ _ s₀
  have e₁ := bytes _ _ s₁
  have e₂ := bytes _ _ s₂
  have e₃ := bytes _ _ s₃
  have low := w.isLt
  have low' := w'.isLt
  apply BitVec.eq_of_toNat_eq
  omega

theorem wordAtHeld (holds : Holds m p (wordBytes w)) : wordAt m p = w :=
  wordBytesInj (wordBytesAt.trans holds)

theorem transduceArc4 (c data) : transduce arc4Step c data = arc4Text c data := by
  induction data generalizing c with
  | nil => rfl
  | cons b rest ih => rw [transduce,arc4Cons,← ih]; rfl

theorem arc4ComputeAtIs {c src size dst} (behind : dst ≤ src) :
    arc4ComputeAt c src size dst m = store m dst (arc4Text c (load m src size)) := by
  rw [arc4ComputeAt,moveIs (.inl behind),transduceArc4]

theorem engineIs (ready : mem.Ready) (iv key) : rtmpInitWepEngine mem iv key = wepStream iv key := if_pos ready.2

theorem encryptIs (ready : mem.Ready) (some' : key.length ≠ 0) (holds : Holds m data payload) (iv) :
    ∃ m', rtmpSoftEncryptWep mem iv key m data payload.length = some m' ∧
      Holds m' data (arc4Text (wepStream iv key) (payload ++ wordBytes (crc32 payload))) := by
  refine ⟨_,(if_neg (by simp [ready.1])).trans (if_neg some'),?_⟩
  rw [engineIs ready]
  have loaded : load m data payload.length = payload := holds
  have whole := holds.extend (c := wordBytes (crc32 payload))
  rw [loaded,icvOfIs,arc4ComputeAtIs (Nat.le_refl _)]
  have size : payload.length + lenIcv = (payload ++ wordBytes (crc32 payload)).length := by simp [lenIcv]
  rw [size,whole]
  exact holdsStore

theorem decryptedIs : decrypted key m data count =
    store m data (arc4Text (wepStream (load m data lenWepTsc) key)
      (load m (data + lenWepIvHdr) (count - lenWepIvHdr))) :=
  arc4ComputeAtIs (Nat.le_add_right _ _)

section Decrypt
variable {bits whole part ivHdr : Nat}

theorem minusIs : (minus bits whole part).value = (whole + 2 ^ bits - part) % 2 ^ bits := rfl

theorem minusValue (fits : whole < 2 ^ bits) (enough : part ≤ whole) :
    (minus bits whole part).value = whole - part := by
  rw [minusIs,Nat.sub_add_comm enough,Nat.add_mod_right,Nat.mod_eq_of_lt (by omega)]

theorem openIs {ctx len} : (openData bits ivHdr ctx m data len).value =
    let m' := arc4ComputeAt ctx (data + ivHdr) len data m
    let plaintextLen := (minus bits len lenIcv).value
    ⟨m',plaintextLen,icvOf (load m' data plaintextLen) = wordAt m' (data + plaintextLen)⟩ := rfl

theorem wepEarly (refused : mem.context = false ∨ key.length = 0) :
    rtmpSoftDecryptWep mem key m data count = pure ⟨false,m,count⟩ := by
  rcases refused with absent | empty
  · rw [rtmpSoftDecryptWep,if_pos absent]
  · rw [rtmpSoftDecryptWep,if_pos empty,ite_self]

theorem wepShort (taken : ¬ (mem.context = false ∨ key.length = 0)) (short : count ≤ lenWepIvHdr) :
    (rtmpSoftDecryptWep mem key m data count).value = ⟨false,m,count⟩ := by
  obtain ⟨ready,filled⟩ := not_or.mp taken
  rw [rtmpSoftDecryptWep,if_neg ready,if_neg filled,bindValue,bindValue,if_pos short,pureValue]

theorem wepOpened (ready : mem.Ready) (filled : key.length ≠ 0) (long : lenWepIvHdr < count) (small : count < 65536) :
    (rtmpSoftDecryptWep mem key m data count).value =
      if icvOf (load (decrypted key m data count) data (plaintextLen count)) =
          wordAt (decrypted key m data count) (data + plaintextLen count) then
        ⟨true,decrypted key m data count,plaintextLen count⟩
      else ⟨false,decrypted key m data count,count⟩ := by
  have context : ¬ mem.context = false := by simp [ready.1]
  have wrapped : (minus 16 (count - lenWepIvHdr) lenIcv).value = plaintextLen count := by
    simp only [minusIs,plaintextLen,Nat.reducePow]
  have engine : (readSeed mem key m data).value = wepStream (load m data lenWepTsc) key := by
    unfold readSeed
    split <;> exact engineIs ready _ _
  rw [rtmpSoftDecryptWep,if_neg context,if_neg filled,bindValue,bindValue,if_neg (Nat.not_le.mpr long),bindValue,
    minusValue small (Nat.le_of_lt long),engine,openIs,wrapped]
  simp only [decide_eq_true_eq]
  split
  next same => exact (if_pos same).symm
  next other => exact (if_neg other).symm

theorem decryptSome {len} (ready : mem.Ready) (small : count < 65536) :
    (rtmpSoftDecryptWep mem key m data count).value = ⟨true,m',len⟩ ↔
      key.length ≠ 0 ∧ lenWepIvHdr < count ∧ m' = decrypted key m data count ∧ len = plaintextLen count ∧
        Holds m' (data + len) (wordBytes (crc32 (load m' data len))) := by
  have context : ¬ mem.context = false := by simp [ready.1]
  by_cases empty : key.length = 0
  · rw [wepEarly (.inr empty)]
    simp [empty]
  by_cases short : count ≤ lenWepIvHdr
  · rw [wepShort (not_or.mpr ⟨context,empty⟩) short]
    simp [Nat.not_lt.mpr short]
  have long : lenWepIvHdr < count := Nat.not_le.mp short
  rw [wepOpened ready empty long small,← icvOfIs]
  constructor
  · intro ok
    split at ok
    next same =>
      cases ok
      refine ⟨empty,long,rfl,rfl,?_⟩
      rw [same]
      exact wordBytesAt.symm
    next => cases ok
  · rintro ⟨_,_,memory,length,holds⟩
    have same := wordAtHeld holds
    rw [← memory,← length]
    exact if_pos same.symm

end Decrypt

theorem icvHolds {plain len} (size : plain.length = len + 4) :
    icvOf (load (store m p plain) p len) = wordAt (store m p plain) (p + len) ↔
      ∃ payload, plain = payload ++ wordBytes (crc32 payload) := by
  have whole : load (store m p plain) p plain.length = plain := holdsStore
  rw [size,loadAppend] at whole
  rw [icvOfIs]
  constructor
  · intro same
    refine ⟨load (store m p plain) p len,?_⟩
    rw [same,wordBytesAt]
    exact whole.symm
  · rintro ⟨payload,rfl⟩
    have length : payload.length = len := by
      rw [length_append,wordBytesLength] at size
      omega
    obtain ⟨text,trail⟩ := append_inj whole (by rw [loadLength,length])
    rw [text]
    exact (wordAtHeld trail).symm

theorem decryptWhole (ready : mem.Ready) (filled : key.length ≠ 0) (iv) (ivSize : iv.length = lenWepIvHdr)
    (holds : Holds m data (iv ++ arc4Text (wepStream iv key) (payload ++ wordBytes (crc32 payload))))
    (short : payload.length + 8 < 65536) :
    ∃ m', (rtmpSoftDecryptWep mem key m data (payload.length + 8)).value = ⟨true,m',payload.length⟩ ∧
      Holds m' data payload := by
  obtain ⟨header,cipher⟩ := holdsAppend.mp holds
  rw [ivSize] at cipher
  have seed : wepStream (load m data lenWepTsc) key = wepStream iv key := by
    unfold wepStream
    rw [header.take (by rw [ivSize]; decide),take_take]
    rfl
  have size : payload.length + 8 - lenWepIvHdr =
      (arc4Text (wepStream iv key) (payload ++ wordBytes (crc32 payload))).length := by
    simp only [arc4Length,length_append,wordBytesLength,lenWepIvHdr]
    omega
  have plain : decrypted key m data (payload.length + 8) = store m data (payload ++ wordBytes (crc32 payload)) := by
    rw [decryptedIs,seed,size,cipher,arc4Twice]
  have after := holdsStore (m := m) (p := data) (b := payload ++ wordBytes (crc32 payload))
  obtain ⟨text,trail⟩ := holdsAppend.mp after
  have text' : load (store m data (payload ++ wordBytes (crc32 payload))) data payload.length = payload := text
  have length : payload.length = plaintextLen (payload.length + 8) := by
    unfold plaintextLen lenWepIvHdr lenIcv
    omega
  refine ⟨_,(decryptSome ready short).mpr ⟨filled,?_,plain.symm,length,?_⟩,text⟩
  · unfold lenWepIvHdr
    omega
  · rwa [text']

theorem longEnoughMatches (ready : mem.Ready) (long : 8 ≤ count) (small : count < 65536) {len}
    (ok : (rtmpSoftDecryptWep mem key m data count).value = ⟨true,m',len⟩) : IcvMatches key m data count := by
  obtain ⟨_,_,memory,length,trail⟩ := (decryptSome ready small).mp ok
  have exact' : count - lenWepIvHdr = len + 4 := by
    unfold plaintextLen lenWepIvHdr lenIcv at *
    omega
  rw [decryptedIs] at memory
  rw [memory] at trail
  refine (icvHolds ?_).mp ((icvOfIs _).trans (wordAtHeld trail).symm)
  rw [arc4Length,loadLength,exact']

def strayFrame (key : Bytes) (count : Nat) : Nat → UInt8 :=
  store (fun _ => 0) (plaintextLen count)
    (wordBytes (crc32 (load (decrypted key (fun _ => 0) 0 count) 0 (plaintextLen count))))

theorem strayTaken (ready : mem.Ready) (key) (filled : key.length ≠ 0) (count) (long : 4 < count) (short : count < 8) :
    ∃ m', (rtmpSoftDecryptWep mem key (strayFrame key count) 0 count).value = ⟨true,m',plaintextLen count⟩ := by
  have wrapped : plaintextLen count = count + 65528 := by
    unfold plaintextLen lenWepIvHdr lenIcv
    omega
  have commutes : decrypted key (strayFrame key count) 0 count =
      store (decrypted key (fun _ => 0) 0 count) (plaintextLen count)
        (wordBytes (crc32 (load (decrypted key (fun _ => 0) 0 count) 0 (plaintextLen count)))) := by
    rw [decryptedIs,strayFrame,loadApart (.inr ?_),loadApart (.inr ?_),decryptedIs,storeComm (.inr ?_)]
    · rw [arc4Length,loadLength]
      unfold lenWepIvHdr
      omega
    · unfold lenWepIvHdr
      omega
    · unfold lenWepTsc
      omega
  refine ⟨_,(decryptSome ready (by omega)).mpr ⟨filled,long,rfl,rfl,?_⟩⟩
  rw [commutes,loadApart (.inr (by omega)),Nat.zero_add]
  exact holdsStore

theorem strayUnmatched (long : 4 < count) (short : count < 8) : ¬IcvMatches key m data count := by
  rintro ⟨payload,same⟩
  have size := congrArg List.length same
  rw [arc4Length,loadLength,length_append,wordBytesLength] at size
  unfold lenWepIvHdr at size
  omega

def RoundTrip (key : Bytes) (count : Nat) : Prop :=
  ∀ (send receive : WepMemory), send.Ready → receive.Ready →
    ∀ (keyIdx : UInt8) (pn payload : Bytes) (m : Nat → UInt8) (data : Nat), pn.length = lenWepTsc →
    1 ≤ payload.length → payload.length + 8 = count → Holds m data payload →
    ∃ m', rtmpSoftEncryptWep send (rtmpConstructWepIvHdr keyIdx.toNat pn) key m data payload.length = some m' ∧
      ∀ (frame : Nat → UInt8) (start : Nat),
        Holds frame start (rtmpConstructWepIvHdr keyIdx.toNat pn ++ load m' data (payload.length + lenIcv)) →
        ∃ after, (rtmpSoftDecryptWep receive key frame start count).value = ⟨true,after,payload.length⟩ ∧
          Holds after start payload

def TrueOnlyMatching (key : Bytes) (count : Nat) : Prop :=
  ∀ (mem : WepMemory), mem.Ready → ∀ m data m' len,
    (rtmpSoftDecryptWep mem key m data count).value = ⟨true,m',len⟩ → IcvMatches key m data count

theorem roundTrips (filled : key.length ≠ 0) (small : count < 65536) : RoundTrip key count := by
  intro send receive sends receives keyIdx pn payload m data ivSize _ size holds
  subst size
  obtain ⟨m',ok,cipher⟩ := encryptIs sends filled holds (rtmpConstructWepIvHdr keyIdx.toNat pn)
  refine ⟨m',ok,fun frame start received => ?_⟩
  have loaded : load m' data (payload.length + lenIcv) = arc4Text
      (wepStream (rtmpConstructWepIvHdr keyIdx.toNat pn) key) (payload ++ wordBytes (crc32 payload)) := by
    rw [Holds,arc4Length,length_append,wordBytesLength] at cipher
    exact cipher
  rw [loaded] at received
  have header : (rtmpConstructWepIvHdr keyIdx.toNat pn).length = lenWepIvHdr := by
    simp [rtmpConstructWepIvHdr,ivSize,lenWepTsc,lenWepIvHdr]
  exact decryptWhole receives filled _ header received small

def sampleMemory : WepMemory := ⟨true,true,arc4Init [0]⟩

theorem sampleReady : sampleMemory.Ready := ⟨rfl,rfl⟩

theorem wepRoundTripIcv (key : Bytes) (length : key.length = 5 ∨ key.length = 13) (count : Nat)
    (small : count < 65536) :
    RoundTrip key count ∧ TrueOnlyMatching key count ↔ count ≤ lenWepIvHdr ∨ lenWepIvHdr + lenIcv ≤ count := by
  have filled : key.length ≠ 0 := by omega
  constructor
  · rintro ⟨_,matching⟩
    refine Decidable.byContradiction fun between => ?_
    unfold lenWepIvHdr lenIcv at between
    have long : 4 < count := by omega
    have short : count < 8 := by omega
    obtain ⟨m',ok⟩ := strayTaken sampleReady key filled count long short
    exact strayUnmatched long short (matching _ sampleReady _ _ _ _ ok)
  · intro outside
    refine ⟨roundTrips filled small,fun mem ready m data m' len ok => ?_⟩
    rcases outside with empty | long
    · obtain ⟨_,long,_⟩ := (decryptSome ready small).mp ok
      exact absurd long (Nat.not_lt.mpr empty)
    · exact longEnoughMatches ready long small ok

theorem wepRoundTripIcvNine : RoundTrip [1,2,3,4,5] 9 ∧ TrueOnlyMatching [1,2,3,4,5] 9 :=
  (wepRoundTripIcv [1,2,3,4,5] (.inl rfl) 9 (by decide)).mpr (.inr (by decide))

theorem strayIcvAccepted :
    ∃ m', (rtmpSoftDecryptWep sampleMemory [1,2,3,4,5] (strayFrame [1,2,3,4,5] 5) 0 5).value = ⟨true,m',65533⟩ ∧
    ¬IcvMatches [1,2,3,4,5] (strayFrame [1,2,3,4,5] 5) 0 5 := by
  obtain ⟨m',ok⟩ := strayTaken sampleReady [1,2,3,4,5] (by simp) 5 (by decide) (by decide)
  exact ⟨m',ok,strayUnmatched (by decide) (by decide)⟩

end RtmpDriver.Wep
