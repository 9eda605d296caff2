import Mathlib.Data.List.GetD
import RtmpDriver.Ccmp

/-! AES_CCM_Encrypt against CCM of RFC 3610. The driver counts in the last byte of the counter block only, and leaves
out the marker in front of the length of a long AAD. -/
namespace RtmpDriver.CcmRfc
open EapolFrame ByteMemory CounterMode BigEndian Ccmp List
open Aes hiding aesBlockSizes

def lengthSize (nonce : Bytes) : Nat := 15 - nonce.length

def counterOf (nonce : Bytes) (i : Nat) : Bytes :=
  UInt8.ofNat (lengthSize nonce - 1) :: nonce ++ encode (lengthSize nonce) i

def headBlock (nonce aad : Bytes) (macLength payloadLength : Nat) : Bytes :=
  UInt8.ofNat ((if 0 < aad.length then 64 else 0) + 8 * ((macLength - 2) / 2) + (lengthSize nonce - 1)) ::
    nonce ++ encode (lengthSize nonce) payloadLength

def aadField (aad : Bytes) : Bytes :=
  if aad.length = 0 then []
  else if aad.length < 0xff00 then encode 2 aad.length ++ aad
  else if aad.length < 2 ^ 32 then [0xff,0xfe] ++ encode 4 aad.length ++ aad
  else [0xff,0xff] ++ encode 8 aad.length ++ aad

def blocks : Nat → Bytes → List Bytes
  | 0,_ => []
  | fuel + 1,data =>
    if data = [] then [] else zeroFilled (data.take aesBlockSizes) :: blocks fuel (data.drop aesBlockSizes)

def blocksOf (data : Bytes) : List Bytes := blocks data.length data

def cbcMac (key mac : Bytes) (blocks : List Bytes) : Bytes :=
  blocks.foldl (fun mac block => rtAesEncrypt key (xorBytes block mac)) mac

def rfcMac (payload key nonce aad : Bytes) (macLength : Nat) : Bytes :=
  cbcMac key (rtAesEncrypt key (headBlock nonce aad macLength payload.length))
    (blocksOf (aadField aad) ++ blocksOf payload)

def blockCount (length : Nat) : Nat := (length + 15) / 16

def rfcText (payload key nonce : Bytes) : Bytes :=
  xorBytes payload
    ((range (blockCount payload.length)).flatMap fun i => rtAesEncrypt key (counterOf nonce (i + 1)))

def rfcSealed (payload key nonce aad : Bytes) (macLength : Nat) : Bytes :=
  rfcText payload key nonce ++
    xorBytes ((rfcMac payload key nonce aad macLength).take macLength) (rtAesEncrypt key (counterOf nonce 0))

def blockMac (payload key nonce aad : Bytes) (macLength : Nat) : Bytes :=
  macLoop key payload.length [] payload (macLoop key aad.length (aadFront aad.length) aad
    (rtAesEncrypt key (firstBlock nonce aad macLength payload.length)))

def usedCounters (key nonce : Bytes) (plainLength : Nat) : List Bytes :=
  counterBlock nonce :: (counterMode key).counters plainLength (counterBlock nonce) plainLength

section Counters
variable {key nonce : Bytes} {i n left fuel : Nat}

def counterAfter (nonce : Bytes) (i : Nat) : Bytes := (counterBlock nonce).set 15 (UInt8.ofNat i)

theorem counterBlockIs (short : nonce.length ≤ 13) : counterBlock nonce =
    UInt8.ofNat (lengthSize nonce - 1) :: nonce ++ replicate (lengthSize nonce) 0 := by
  have room : aesBlockSizes - (nonce.length + 1) = lengthSize nonce := by
    unfold aesBlockSizes lengthSize
    omega
  simp only [counterBlock,zeroFilled,length_cons,room]
  rfl

theorem lastZero (short : nonce.length ≤ 13) :
    replicate (lengthSize nonce) (0 : UInt8) = replicate (lengthSize nonce - 1) 0 ++ [0] := by
  rw [← replicate_succ']
  congr 1
  unfold lengthSize
  omega

theorem counterAfterIs (short : nonce.length ≤ 13) : counterAfter nonce i =
    UInt8.ofNat (lengthSize nonce - 1) :: nonce ++ (replicate (lengthSize nonce - 1) 0 ++ [UInt8.ofNat i]) := by
  have place : (UInt8.ofNat (lengthSize nonce - 1) :: nonce ++ replicate (lengthSize nonce - 1) 0).length = 15 := by
    simp only [length_append,length_cons,length_replicate,lengthSize]
    omega
  rw [counterAfter,counterBlockIs short,lastZero short,← append_assoc,set_append_right _ _ place.le,place,
    ← append_assoc]
  rfl

theorem counterAfterRfc (short : nonce.length ≤ 13) (small : i < 256) : counterAfter nonce i = counterOf nonce i := by
  have size : lengthSize nonce = lengthSize nonce - 1 + 1 := by
    unfold lengthSize
    omega
  rw [counterAfterIs short,counterOf,size,encodeByte small]
  rfl

theorem nextCounter (i) : (counterMode key).next (counterAfter nonce i) = counterAfter nonce (i + 1) := by
  simp only [counterMode,counterAfter]
  apply ext_getElem?
  intro k
  rw [getElem?_modify,getElem?_set,getElem?_set,UInt8.ofNat_add]
  split
  · split <;> rfl
  · exact id_map _

theorem firstCounter (short : nonce.length ≤ 13) : counterBlock nonce = counterAfter nonce 0 := by
  rw [counterAfterIs short,counterBlockIs short,lastZero short]
  rfl

theorem countersFrom (enough : left ≤ fuel) : (counterMode key).counters fuel (counterAfter nonce i) left =
      (range' (i + 1) (blockCount left)).map (counterAfter nonce) := by
  induction fuel generalizing i left with
  | zero =>
    rw [Nat.le_zero.mp enough]
    rfl
  | succ fuel ih =>
    rw [Mode.counters]
    split
    next none =>
      rw [none]
      rfl
    next more =>
      have size : (counterMode key).size = 16 := rfl
      have count : blockCount left = blockCount (left - min left 16) + 1 := by
        unfold blockCount
        omega
      rw [nextCounter,size,ih (by omega),count,range'_succ,map_cons]

theorem usedCountersAre (short : nonce.length ≤ 13) (n) :
    usedCounters key nonce n = (range (blockCount n + 1)).map (counterAfter nonce) := by
  rw [usedCounters,firstCounter short,countersFrom (Nat.le_refl n),range_eq_range',range'_succ,map_cons]

theorem usedCountersRfc (key) (short : nonce.length ≤ 13) (few : blockCount n ≤ 255) :
    usedCounters key nonce n = (range (blockCount n + 1)).map (counterOf nonce) := by
  rw [usedCountersAre short]
  refine map_congr_left fun i mem => counterAfterRfc short ?_
  have := mem_range.mp mem
  omega

theorem countersDistinct (few : n ≤ 256) (short : nonce.length ≤ 13) :
    ((range n).map (counterOf nonce)).Nodup := by
  refine List.Nodup.map_on ?_ nodup_range
  intro i left j right same
  have least : 256 ^ 1 ≤ 256 ^ lengthSize nonce := Nat.pow_le_pow_right (by decide) (by unfold lengthSize; omega)
  have bound := mem_range.mp left
  have bound' := mem_range.mp right
  exact encodeInjective (by omega) (by omega) (append_cancel_left same)

theorem counterReused (short : nonce.length ≤ 13) (many : 255 < blockCount n) : ¬ (usedCounters key nonce n).Nodup := by
  rw [usedCountersAre short]
  intro distinct
  have same : counterAfter nonce 0 = counterAfter nonce 256 := rfl
  have places := inj_on_of_nodup_map distinct (mem_range.mpr (by omega)) (mem_range.mpr (by omega)) same
  contradiction

end Counters

section Blocks
variable {key mac front data : Bytes} {fuel : Nat}

theorem macLoopBlocks : macLoop key fuel [] data mac = cbcMac key mac (blocks fuel data) := by
  induction fuel generalizing data mac with
  | zero => rfl
  | succ fuel ih =>
    rw [macLoop,blocks]
    split
    · rfl
    · exact ih

theorem blocksEnough (enough : data.length ≤ fuel) : blocks fuel data = blocksOf data := by
  have same (f g : Nat) : ∀ data : Bytes, data.length ≤ f → data.length ≤ g → blocks f data = blocks g data := by
    induction f generalizing g with
    | zero =>
      intro data left _
      rw [length_eq_zero_iff.mp (Nat.le_zero.mp left)]
      cases g <;> rfl
    | succ f ih =>
      intro data left right
      cases g with
      | zero =>
        rw [length_eq_zero_iff.mp (Nat.le_zero.mp right)]
        rfl
      | succ g =>
        have rest : (data.drop aesBlockSizes).length = data.length - 16 := length_drop
        rw [blocks,blocks,ih g _ (by omega) (by omega)]
  exact same fuel data.length data enough (Nat.le_refl _)

theorem blocksOfCons (some : data ≠ []) :
    blocksOf data = zeroFilled (data.take aesBlockSizes) :: blocksOf (data.drop aesBlockSizes) := by
  obtain ⟨b,rest,rfl⟩ := exists_cons_of_ne_nil some
  have left : ((b :: rest).drop aesBlockSizes).length ≤ rest.length := by
    rw [length_drop,length_cons]
    unfold aesBlockSizes
    omega
  rw [← blocksEnough left,blocksOf,length_cons,blocks,if_neg some]

theorem macLoopFront (room : front.length < aesBlockSizes) (some : data ≠ []) (enough : data.length ≤ fuel) :
    macLoop key fuel front data mac = cbcMac key mac (blocksOf (front ++ data)) := by
  cases fuel with
  | zero => exact absurd (length_eq_zero_iff.mp (Nat.le_zero.mp enough)) some
  | succ fuel =>
    have nonempty : front ++ data ≠ [] := fun empty => some (append_eq_nil_iff.mp empty).2
    have left : (data.drop (aesBlockSizes - front.length)).length ≤ fuel := by
      rw [length_drop]
      omega
    rw [macLoop,if_neg some,macLoopBlocks,blocksEnough left,blocksOfCons nonempty,take_append,drop_append,
      take_of_length_le room.le,drop_of_length_le room.le,nil_append]
    rfl

end Blocks

section Xor
variable {a b c : Bytes}

theorem xorBytesComm (a b) : xorBytes a b = xorBytes b a :=
  zipWith_comm_of_comm fun x y => UInt8.xor_comm x y

theorem xorBytesLength (same : a.length = b.length) : (xorBytes a b).length = b.length := by
  rw [xorBytes,length_zipWith,same,Nat.min_self]

theorem xorBytesRight (left : a.length ≤ c.length) (right : b.length ≤ c.length)
    (same : xorBytes a c = xorBytes b c) : a = b := by
  rw [← xorBytesTwice left,same,xorBytesTwice right]

end Xor

section Chain
variable {key : Bytes}

def Whole (block : Bytes) : Prop := block.length = aesBlockSizes

theorem encryptInjective {a b} (left : Whole a) (right : Whole b) (same : rtAesEncrypt key a = rtAesEncrypt key b) :
    a = b := by
  rw [← aesDecryptEncrypt key left,same,aesDecryptEncrypt key right]

theorem zeroFilledWhole {b} (fits : b.length ≤ aesBlockSizes) : Whole (zeroFilled b) := by
  rw [Whole,zeroFilled,length_append,length_replicate]
  omega

theorem blocksWhole {fuel data block} (mem : block ∈ blocks fuel data) : Whole block := by
  induction fuel generalizing data with
  | zero => contradiction
  | succ fuel ih =>
    rw [blocks] at mem
    split at mem
    · contradiction
    · rcases mem_cons.mp mem with rfl | later
      · exact zeroFilledWhole (length_take_le _ _)
      · exact ih later

theorem cbcMacInjective {chain} (whole : ∀ block ∈ chain, Whole block) {a b} (left : Whole a)
    (right : Whole b) (same : cbcMac key a chain = cbcMac key b chain) : a = b := by
  induction chain generalizing a b with
  | nil => exact same
  | cons block rest ih =>
    have size : Whole block := whole block mem_cons_self
    have inner := ih (fun block mem => whole block (mem_cons_of_mem _ mem)) (aesEncryptLength _ _)
      (aesEncryptLength _ _) same
    have fold (x : Bytes) (ok : Whole x) : Whole (xorBytes block x) := (xorBytesLength (size.trans ok.symm)).trans ok
    have inputs := encryptInjective (fold a left) (fold b right) inner
    rw [xorBytesComm block a,xorBytesComm block b] at inputs
    exact xorBytesRight (left.trans size.symm).le (right.trans size.symm).le inputs

theorem cbcMacWhole {chain mac} (whole : Whole mac) : Whole (cbcMac key mac chain) := by
  induction chain generalizing mac with
  | nil => exact whole
  | cons block rest ih => exact ih (aesEncryptLength _ _)

theorem cbcMacAppend (mac front back) :
    cbcMac key mac (front ++ back) = cbcMac key (cbcMac key mac front) back := foldl_append

theorem cbcMacHead {mac} (whole : Whole mac) {x y} (differ : x ≠ y) (x' y' rest) :
    cbcMac key mac (blocksOf (x :: x' :: rest)) ≠ cbcMac key mac (blocksOf (y :: y' :: rest)) := by
  intro same
  rw [blocksOfCons (cons_ne_nil _ _),blocksOfCons (cons_ne_nil _ _)] at same
  have inner := cbcMacInjective (fun _ mem => blocksWhole mem) (aesEncryptLength _ _) (aesEncryptLength _ _) same
  have first (b : Bytes) : Whole (zeroFilled (b.take aesBlockSizes)) := zeroFilledWhole (length_take_le _ _)
  have fold (b : Bytes) : Whole (xorBytes (zeroFilled (b.take aesBlockSizes)) mac) :=
    (xorBytesLength ((first b).trans whole.symm)).trans whole
  have inputs := encryptInjective (fold _) (fold _) inner
  have blocks := xorBytesRight ((first _).trans whole.symm).le ((first _).trans whole.symm).le inputs
  exact differ (cons.inj blocks).1

end Chain

section Format
variable {key nonce aad payload : Bytes} {macLength n : Nat}

theorem byteOfIs (n k) : byteOf n (8 * k) = UInt8.ofNat (n / 256 ^ k) := by
  rw [byteOf,Nat.shiftRight_eq_div_pow,Nat.pow_mul]

theorem byteOfZero {shift} (small : n < 2 ^ shift) : byteOf n shift = 0 := by
  rw [byteOf,Nat.shiftRight_eq_div_pow,Nat.div_eq_of_lt small]
  rfl

theorem encodeTwo (n) : encode 2 n = [byteOf n 8,byteOf n 0] := by
  rw [encode,encode,encode,← byteOfIs,← byteOfIs]

theorem encodeFour (n) : encode 4 n = [byteOf n 24,byteOf n 16,byteOf n 8,byteOf n 0] := by
  rw [encode,encode,encodeTwo,← byteOfIs,← byteOfIs]

theorem aadFieldShort (some : aad ≠ []) (short : aad.length < 0xff00) :
    aadField aad = aadFront aad.length ++ aad := by
  have positive : 0 < aad.length := length_pos_iff.mpr some
  rw [aadField,if_neg positive.ne',if_pos short,aadFront,if_pos ⟨positive,short⟩,encodeTwo]

theorem aadFieldLong (long : 0xff00 ≤ aad.length) (fits : aad.length < 2 ^ 32) :
    aadFront aad.length = [0,0] ++ encode 4 aad.length ∧
      aadField aad = [0xff,0xfe] ++ encode 4 aad.length ++ aad := by
  constructor
  · rw [aadFront,if_neg (by omega),encodeFour]
    rfl
  · rw [aadField,if_neg (by omega),if_neg (by omega),if_pos fits]

theorem flagsRfc (aad : Bytes) (lower : 7 ≤ nonce.length) (short : nonce.length ≤ 13)
    (mic : macLength ∈ [4,6,8,10,12,14,16]) :
    ((if aad.length > 0 then 0x40 else 0) ||| UInt8.ofNat ((macLength - 2) / 2 * 8) |||
        UInt8.ofNat (15 - nonce.length - 1)) =
      UInt8.ofNat ((if 0 < aad.length then 64 else 0) + 8 * ((macLength - 2) / 2) + (lengthSize nonce - 1)) := by
  have table : ∀ mac ∈ [4,6,8,10,12,14,16], ∀ l < 14, 7 ≤ l → ∀ given : Bool,
      ((if given then 0x40 else 0) ||| UInt8.ofNat ((mac - 2) / 2 * 8) ||| UInt8.ofNat (15 - l - 1)) =
        UInt8.ofNat ((if given then 64 else 0) + 8 * ((mac - 2) / 2) + (15 - l - 1)) := by decide
  have row := table macLength mic nonce.length (by omega) lower (decide (0 < aad.length))
  simp only [decide_eq_true_eq] at row
  exact row

theorem zeroWritten (flag zeros i) :
    (if nonce.length < i then (flag :: nonce ++ replicate zeros 0).set i 0
      else flag :: nonce ++ replicate zeros 0) = flag :: nonce ++ replicate zeros 0 := by
  split
  next behind => rw [set_append_right _ _ behind,set_replicate_self]
  next => rfl

theorem lastTwo (flag x y) (short : nonce.length ≤ 13) :
    ((flag :: nonce ++ replicate (lengthSize nonce) 0).set 14 x).set 15 y =
      flag :: nonce ++ (replicate (lengthSize nonce - 2) 0 ++ [x,y]) := by
  have zeros : replicate (lengthSize nonce) (0 : UInt8) = replicate (lengthSize nonce - 2) 0 ++ [0,0] := by
    have two : [(0 : UInt8),0] = replicate 2 0 := rfl
    rw [two,replicate_append_replicate]
    congr 1
    unfold lengthSize
    omega
  have place : (flag :: nonce ++ replicate (lengthSize nonce - 2) 0).length = 14 := by
    simp only [length_append,length_cons,length_replicate,lengthSize]
    omega
  rw [zeros,← append_assoc,set_append_right _ _ place.le,place,
    set_append_right _ _ (place.le.trans (by decide)),place,← append_assoc]
  rfl

theorem firstBlockRfc (lower : 7 ≤ nonce.length) (short : nonce.length ≤ 13) (mic : macLength ∈ [4,6,8,10,12,14,16])
    (small : n < 65536) : firstBlock nonce aad macLength n = headBlock nonce aad macLength n := by
  have flags := flagsRfc aad lower short mic
  have third : byteOf n 16 = 0 := byteOfZero small
  have fourth : byteOf n 24 = 0 := byteOfZero (by omega)
  have field : encode (lengthSize nonce) n = replicate (lengthSize nonce - 2) 0 ++ encode 2 n := by
    have size : lengthSize nonce = lengthSize nonce - 2 + 2 := by
      unfold lengthSize
      omega
    rw [size]
    exact encodeZeros small _
  have filled (flag : UInt8) : zeroFilled (flag :: nonce) = flag :: nonce ++ replicate (lengthSize nonce) 0 := by
    rw [zeroFilled,length_cons]
    congr 2
    unfold aesBlockSizes lengthSize
    omega
  simp only [firstBlock,headBlock,flags,third,fourth,field,filled,zeroWritten,encodeTwo]
  exact lastTwo _ _ _ short

theorem blockMacRfc (payload key) (lower : 7 ≤ nonce.length) (short : nonce.length ≤ 13)
    (mic : macLength ∈ [4,6,8,10,12,14,16]) (small : payload.length < 65536) (aadShort : aad.length < 0xff00) :
    blockMac payload key nonce aad macLength = rfcMac payload key nonce aad macLength := by
  rw [blockMac,rfcMac,firstBlockRfc lower short mic small,macLoopBlocks,← blocksOf,cbcMacAppend]
  congr 1
  by_cases some : aad = []
  · rw [some]
    rfl
  · have front : (aadFront aad.length).length < aesBlockSizes := by
      unfold aadFront
      split <;> simp [aesBlockSizes]
    rw [macLoopFront front some (Nat.le_refl _),aadFieldShort some aadShort]

theorem blockMacLong (lower : 7 ≤ nonce.length) (short : nonce.length ≤ 13) (mic : macLength ∈ [4,6,8,10,12,14,16])
    (small : payload.length < 65536) (long : 0xff00 ≤ aad.length) (fits : aad.length < 2 ^ 32) :
    blockMac payload key nonce aad macLength ≠ rfcMac payload key nonce aad macLength := by
  obtain ⟨front,field⟩ := aadFieldLong long fits
  have some : aad ≠ [] := by
    rintro rfl
    contradiction
  have room : ([0,0] ++ encode 4 aad.length).length < aesBlockSizes := by
    rw [length_append,encodeLength]
    decide
  rw [blockMac,rfcMac,firstBlockRfc lower short mic small,front,macLoopFront room some (Nat.le_refl _),field,
    macLoopBlocks,← blocksOf,cbcMacAppend]
  intro same
  have start : Whole (rtAesEncrypt key (headBlock nonce aad macLength payload.length)) := aesEncryptLength _ _
  have aads := cbcMacInjective (fun _ mem => blocksWhole mem) (cbcMacWhole start) (cbcMacWhole start) same
  exact cbcMacHead start (by decide) _ _ _ aads

end Format

section Output
variable {m m' : Nat → UInt8} {key nonce aad : Bytes} {plain plainLength keyLength macLength cipher written : Nat}

theorem padsBlock {block} (whole : Whole block) : (range 16).map (fun i => block.getD i 0) = block := by
  apply ext_getElem
  · rw [length_map,length_range,whole]
    rfl
  · intro i left right
    rw [getElem_map,getElem_range,getD_eq_getElem _ _ right]

theorem sealedTextRfc {payload} (short : nonce.length ≤ 13) (few : blockCount payload.length ≤ 255) :
    sealedText payload key nonce = rfcText payload key nonce := by
  have counters : (counterMode key).counters payload.length (counterBlock nonce) payload.length =
      (range (blockCount payload.length)).map fun i => counterOf nonce (i + 1) := by
    have used := usedCountersRfc key short few
    rw [usedCounters,range_succ_eq_map,map_cons,map_map] at used
    exact (cons.inj used).2
  have stream : (counterMode key).stream ((range (blockCount payload.length)).map fun i => counterOf nonce (i + 1)) =
      (range (blockCount payload.length)).flatMap fun i => rtAesEncrypt key (counterOf nonce (i + 1)) := by
    rw [Mode.stream,flatMap_map]
    exact congrArg (range (blockCount payload.length)).flatMap
      (funext fun i => padsBlock (aesEncryptLength key (counterOf nonce (i + 1))))
  rw [sealedText,textMixed (Nat.le_refl _),counters,stream]
  rfl

structure Accepted (nonce : Bytes) (keyLength macLength : Nat) : Prop where
  key : keyLength = 16
  lower : 7 ≤ nonce.length
  upper : nonce.length ≤ 13
  mic : macLength ∈ [4,6,8,10,12,14,16]

theorem Accepted.micFits (accepted : Accepted nonce keyLength macLength) : macLength ≤ aesBlockSizes := by
  have mic := accepted.mic
  simp only [mem_cons,not_mem_nil,or_false] at mic
  unfold aesBlockSizes
  omega

theorem checkAccepted (checked : checkLengths keyLength nonce.length macLength = .ok ()) :
    Accepted nonce keyLength macLength := by
  unfold checkLengths at checked
  split_ifs at checked with key length mic
  exact ⟨not_not.mp key,by omega,by omega,mic⟩

theorem encryptAccepted {cipherLength}
    (call : aesCcmEncrypt m plain plainLength key keyLength nonce aad macLength cipher
      cipherLength = .ok (m',written)) :
    Accepted nonce keyLength macLength ∧ written = add32 plainLength macLength ∧
      m' = store ((counterMode key).loop plainLength (counterBlock nonce) plain cipher plainLength m)
        (cipher + plainLength) (sealedMic (load m plain plainLength) key nonce aad macLength) := by
  unfold aesCcmEncrypt at call
  cases checked : checkLengths keyLength nonce.length macLength with
  | error code =>
    rw [checked] at call
    contradiction
  | ok _ =>
    rw [checked] at call
    simp only [Except.bind] at call
    split at call
    · contradiction
    · obtain ⟨rfl,rfl⟩ := Prod.mk.inj (Except.ok.inj call)
      exact ⟨checkAccepted checked,rfl,rfl⟩

theorem encryptOutput (accepted : Accepted nonce keyLength macLength)
    (clear : cipher ≤ plain ∨ plain + plainLength ≤ cipher)
    (memory : m' = store ((counterMode key).loop plainLength (counterBlock nonce) plain cipher plainLength m)
      (cipher + plainLength) (sealedMic (load m plain plainLength) key nonce aad macLength)) :
    load m' cipher (plainLength + macLength) = sealedText (load m plain plainLength) key nonce ++
      sealedMic (load m plain plainLength) key nonce aad macLength := by
  have looped : (counterMode key).loop plainLength (counterBlock nonce) plain cipher plainLength m =
      store m cipher (sealedText (load m plain plainLength) key nonce) := by
    rw [loopIs clear,sealedText,loadLength]
  have text := holdsStore (m := m) (p := cipher) (b := sealedText (load m plain plainLength) key nonce)
  have whole := text.extend (c := sealedMic (load m plain plainLength) key nonce aad macLength)
  rw [sealedTextLength,loadLength,← looped,← memory,Holds,length_append,sealedTextLength,loadLength,
    sealedMicLength accepted.micFits] at whole
  exact whole

end Output

structure Conforms (m m' : Nat → UInt8) (plain plainLength : Nat) (key nonce aad : Bytes)
    (macLength cipher written : Nat) :
    Prop where
  counters : usedCounters key nonce plainLength = (range (blockCount plainLength + 1)).map (counterOf nonce)
  distinct : (usedCounters key nonce plainLength).Nodup
  mac : blockMac (load m plain plainLength) key nonce aad macLength =
    rfcMac (load m plain plainLength) key nonce aad macLength
  size : written = plainLength + macLength
  output : load m' cipher written = rfcSealed (load m plain plainLength) key nonce aad macLength

theorem encryptConforms (m m' : Nat → UInt8) (plain plainLength : Nat) (key : Bytes) (keyLength : Nat)
    (nonce aad : Bytes) (macLength cipher cipherLength written : Nat) (fits : plainLength < 2 ^ 32)
    (aadFits : aad.length < 2 ^ 32) (clear : cipher ≤ plain ∨ plain + plainLength ≤ cipher)
    (call : aesCcmEncrypt m plain plainLength key keyLength nonce aad macLength cipher
      cipherLength = .ok (m',written)) :
    Conforms m m' plain plainLength key nonce aad macLength cipher written ↔
      plainLength ≤ 4080 ∧ aad.length < 0xff00 := by
  obtain ⟨accepted,size,memory⟩ := encryptAccepted call
  have length : (load m plain plainLength).length = plainLength := loadLength
  constructor
  · intro conforms
    have few : plainLength ≤ 4080 := by
      by_contra many
      exact counterReused accepted.upper (by unfold blockCount; omega) conforms.distinct
    refine ⟨few,?_⟩
    by_contra long
    exact blockMacLong accepted.lower accepted.upper accepted.mic (by omega) (by omega) aadFits conforms.mac
  · rintro ⟨few,aadShort⟩
    have blocks : blockCount plainLength ≤ 255 := by
      unfold blockCount
      omega
    have counters := usedCountersRfc key accepted.upper blocks
    have mac := blockMacRfc (load m plain plainLength) key accepted.lower accepted.upper
      accepted.mic (by omega) aadShort
    have micFits : macLength ≤ 16 := accepted.micFits
    have total : written = plainLength + macLength := by
      rw [size,add32]
      omega
    refine ⟨counters,?_,mac,total,?_⟩
    · rw [counters]
      exact countersDistinct (by omega) accepted.upper
    · have first : counterBlock nonce = counterOf nonce 0 := by
        rw [firstCounter accepted.upper,counterAfterRfc accepted.upper (by decide)]
      have cut : aesCcmMac (load m plain plainLength) key nonce aad macLength =
          (blockMac (load m plain plainLength) key nonce aad macLength).take macLength := rfl
      rw [total,encryptOutput accepted clear memory,sealedTextRfc accepted.upper (by rwa [length]),sealedMic,cut,mac,
        first,rfcSealed]

theorem encryptConformsShort : ∃ m' written,
    aesCcmEncrypt (fun _ => 7) 0 20 (replicate 16 0) 16 (replicate 13 1) [2,3] 8 0 28 = .ok (m',written) ∧
      Conforms (fun _ => 7) m' 0 20 (replicate 16 0) (replicate 13 1) [2,3] 8 0 written :=
  ⟨_,_,rfl,(encryptConforms (fun _ => 7) _ 0 20 (replicate 16 0) 16 (replicate 13 1) [2,3] 8 0 28 _ (by decide)
    (by decide) (by decide) rfl).mpr (by decide)⟩

theorem encryptReusesCounter : ∃ m' written,
    aesCcmEncrypt (fun _ => 0) 0 4081 (replicate 16 0) 16 (replicate 13 0) [] 8 0 4089 = .ok (m',written) ∧
      ¬ Conforms (fun _ => 0) m' 0 4081 (replicate 16 0) (replicate 13 0) [] 8 0 written := by
  refine ⟨_,_,rfl,?_⟩
  intro conforms
  exact counterReused (by decide) (by decide) conforms.distinct

end RtmpDriver.CcmRfc
