import Mathlib.Tactic.IntervalCases
import RtmpDriver.WideWord
import RtmpDriver.BlockHash
import RtmpDriver.BigEndian
import RtmpDriver.StepMachine
import RtmpDriver.EapolFrame

/-! The Michael MIC of `cmm_tkip.c`. L, R and M are unsigned long, of w bits; what is carried over the 32nd bit stays in
them and never reaches the low 32 bits. -/
namespace RtmpDriver.Michael
open EapolFrame WideWord BlockHash BigEndian StepMachine List

structure TkipKeyInfo (w : Nat) where
  nBytesInM : Nat
  k0 : BitVec w
  k1 : BitVec w
  l : BitVec w
  r : BitVec w
  m : BitVec w
  mic : Bytes

def rol32 {w : Nat} (a : BitVec w) (n : Nat) : BitVec w := rotate 32 n a
def ror32 {w : Nat} (a : BitVec w) (n : Nat) : BitVec w := rol32 a (32 - n)

-- A UCHAR is an int of 32 bits when it is shifted, and sign extended when it meets an unsigned long.
def charShifted (w : Nat) (uChar : UInt8) (shift : Nat) : BitVec w :=
  (uChar.toBitVec.setWidth 32 <<< shift).signExtend w

def rtmpTkipGetUInt32 (w : Nat) (micKey : Bytes) : BitVec w :=
  run (fun res i => res ||| charShifted w (micKey.getD i 0) (8 * i)) 0 (range 4)

def putBytes {w : Nat} : Nat → BitVec w → Bytes
  | 0,_ => []
  | n + 1,val => UInt8.ofBitVec ((val &&& 0xff).setWidth 8) :: putBytes n (val >>> 8)

def rtmpTkipPutUInt32 {w : Nat} (val : BitVec w) : Bytes := putBytes 4 val

section Routines
variable {w : Nat}

def rtmpTkipSetMicKey (tkip : TkipKeyInfo w) (micKey : Bytes) : TkipKeyInfo w :=
  let k0 := rtmpTkipGetUInt32 w micKey
  let k1 := rtmpTkipGetUInt32 w (micKey.drop 4)
  {tkip with k0 := k0, k1 := k1, l := k0, r := k1, nBytesInM := 0, m := 0}

def processWord (l r m : BitVec w) : BitVec w × BitVec w :=
  let l := l ^^^ m
  let r := r ^^^ rol32 l 17
  let l := l + r
  let r := r ^^^ (((l &&& BitVec.ofNat w 0xff00ff00) >>> 8) ||| ((l &&& BitVec.ofNat w 0x00ff00ff) <<< 8))
  let l := l + r
  let r := r ^^^ rol32 l 3
  let l := l + r
  let r := r ^^^ ror32 l 2
  let l := l + r
  (l,r)

def rtmpTkipAppendByte (tkip : TkipKeyInfo w) (uChar : UInt8) : TkipKeyInfo w :=
  let m := tkip.m ||| charShifted w uChar (8 * tkip.nBytesInM)
  let nBytesInM := tkip.nBytesInM + 1
  if nBytesInM ≥ 4 then
    let (l,r) := processWord tkip.l tkip.r m
    {tkip with l := l, r := r, m := 0, nBytesInM := 0}
  else {tkip with m := m, nBytesInM := nBytesInM}

def rtmpTkipAppend (tkip : TkipKeyInfo w) (src : Bytes) : TkipKeyInfo w := run rtmpTkipAppendByte tkip src

def appendZeros : Nat → TkipKeyInfo w → Option (TkipKeyInfo w)
  | 0,_ => none
  | fuel + 1,tkip => if tkip.nBytesInM ≠ 0 then appendZeros fuel (rtmpTkipAppendByte tkip 0) else some tkip

def rtmpTkipGetMic (tkip : TkipKeyInfo w) : Option (TkipKeyInfo w) :=
  let tkip := rtmpTkipAppendByte tkip 0x5a
  let tkip := rtmpTkipAppendByte tkip 0
  let tkip := rtmpTkipAppendByte tkip 0
  let tkip := rtmpTkipAppendByte tkip 0
  let tkip := rtmpTkipAppendByte tkip 0
  (appendZeros 4 tkip).map fun tkip => {tkip with mic := rtmpTkipPutUInt32 tkip.l ++ rtmpTkipPutUInt32 tkip.r}

def macAddrLen : Nat := 6

/- The first four bytes of a ULONG that holds the priority, on a little-endian machine. -/
def priorityBytes (w : Nat) (userPriority : UInt8) : Bytes := putBytes 4 (userPriority.toBitVec.setWidth w)

def rtmpInitMicEngine (tkip : TkipKeyInfo w) (da sa : Bytes) (userPriority : UInt8) (micKey : Bytes) : TkipKeyInfo w :=
  let tkip := rtmpTkipSetMicKey tkip micKey
  let tkip := rtmpTkipAppend tkip (da.take macAddrLen)
  let tkip := rtmpTkipAppend tkip (sa.take macAddrLen)
  rtmpTkipAppend tkip (priorityBytes w userPriority)

def readAt (b : Bytes) (offset n : Nat) : Option Bytes :=
  if offset + n ≤ b.length then some ((b.drop offset).take n) else none

def vlanOffset (type : Bytes) : Nat := if (type.getD 0 0).toNat * 256 + (type.getD 1 0).toNat = 0x8100 then 4 else 0

def restLength (srcBufLen vlan : Nat) : Nat := (srcBufLen + 2 ^ 32 - (14 + vlan)) % 2 ^ 32

def appendEncap (tkip : TkipKeyInfo w) (src : Bytes) (vlan : Nat) : Option Bytes → Option (TkipKeyInfo w)
  | none => some tkip
  | some llc => (readAt src (12 + vlan) 2).map fun type => rtmpTkipAppend (rtmpTkipAppend tkip (llc.take 6)) type

def appendRest (tkip : TkipKeyInfo w) (src : Bytes) (vlan : Nat) : Option (TkipKeyInfo w) :=
  let srcBufLen := restLength src.length vlan
  if srcBufLen > 0 then (readAt src (14 + vlan) srcBufLen).map (rtmpTkipAppend tkip) else some tkip

def rtmpCalculateMicValue (tkip : TkipKeyInfo w) (src : Bytes) (userPriority : UInt8) (encap : Option Bytes)
    (txMic : Bytes) : Option (TkipKeyInfo w) := do
  let vlan ← (readAt src 12 2).map vlanOffset
  let tkip := rtmpInitMicEngine tkip src (src.drop macAddrLen) userPriority txMic
  let tkip ← appendEncap tkip src vlan encap
  let tkip ← appendRest tkip src vlan
  rtmpTkipGetMic tkip

/- The received MIC stands behind the text. The engine is set up as above, for Rx in the place of Tx. -/
def rtmpTkipCompareMicValue (tkip : TkipKeyInfo w) (src da sa micKey : Bytes) (userPriority : UInt8) (len : Nat) :
    Option (TkipKeyInfo w × Bool) := do
  let tkip := rtmpInitMicEngine tkip da sa userPriority micKey
  let tkip := rtmpTkipAppend tkip (← readAt src 0 len)
  let oldMic ← readAt src len 8
  let tkip ← rtmpTkipGetMic tkip
  some (tkip,tkip.mic = oldMic)

end Routines

def wordLe (b : Bytes) : BitVec 32 := BitVec.ofNat 32 (value b.reverse)
def bytesLe (x : BitVec 32) : Bytes := (encode 4 x.toNat).reverse

def xswap (x : BitVec 32) : BitVec 32 :=
  x.extractLsb' 16 8 ++ x.extractLsb' 24 8 ++ x.extractLsb' 0 8 ++ x.extractLsb' 8 8

def blockFunction (l r : BitVec 32) : BitVec 32 × BitVec 32 :=
  let r := r ^^^ l.rotateLeft 17
  let l := l + r
  let r := r ^^^ xswap l
  let l := l + r
  let r := r ^^^ l.rotateLeft 3
  let l := l + r
  let r := r ^^^ l.rotateRight 2
  let l := l + r
  (l,r)

def michaelStep (s : BitVec 32 × BitVec 32) (word : Bytes) : BitVec 32 × BitVec 32 :=
  blockFunction (s.1 ^^^ wordLe word) s.2

def paddedMessage (m : Bytes) : Bytes := m ++ [0x5a] ++ replicate (7 - m.length % 4) 0

def keyWords (key : Bytes) : BitVec 32 × BitVec 32 := (wordLe (key.take 4),wordLe (key.drop 4))

def michael (key m : Bytes) : Bytes :=
  let s := fold michaelStep 4 (keyWords key) (paddedMessage m)
  bytesLe s.1 ++ bytesLe s.2

section Words
variable {w : Nat}

theorem xswapBit (x i) : (xswap x).getLsbD i =
    if i < 8 then x.getLsbD (8 + i) else if i < 16 then x.getLsbD (i - 8) else
      if i < 24 then x.getLsbD (8 + i) else (decide (i < 32) && x.getLsbD (i - 8)) := by
  have first : (xswap x).getLsbD i = if i < 8 then _ else _ := BitVec.getLsbD_append
  rw [first,BitVec.getLsbD_append,BitVec.getLsbD_append]
  simp only [BitVec.getLsbD_extractLsb']
  grind

theorem xswapIs (x) : ((x &&& BitVec.ofNat 32 0xff00ff00) >>> 8) ||| ((x &&& BitVec.ofNat 32 0x00ff00ff) <<< 8) =
    xswap x := by
  apply BitVec.eq_of_getLsbD_eq
  intro i inside
  rw [xswapBit]
  interval_cases i <;> simp

theorem xswapLow (wide : 32 ≤ w) (l) :
    (((l &&& BitVec.ofNat w 0xff00ff00) >>> 8) ||| ((l &&& BitVec.ofNat w 0x00ff00ff) <<< 8)).setWidth 32 =
      xswap (l.setWidth 32) := by
  rw [BitVec.setWidth_or,lowMasked (by decide),lowShift wide,BitVec.setWidth_and,
    BitVec.setWidth_ofNat_of_le wide,xswapIs]

theorem rol32Low (wide : 32 ≤ w) (l : BitVec w) {n} (part : n < 32) :
    (rol32 l n).setWidth 32 = (l.setWidth 32).rotateLeft n := lowRotate wide part l

theorem ror32Low (wide : 32 ≤ w) (l : BitVec w) : (ror32 l 2).setWidth 32 = (l.setWidth 32).rotateRight 2 := by
  rw [ror32,rol32Low wide l (by decide),rotateBack (by decide) (by decide)]

theorem processLow (wide : 32 ≤ w) (l r m : BitVec w) :
    ((processWord l r m).1.setWidth 32,(processWord l r m).2.setWidth 32) =
      blockFunction (l.setWidth 32 ^^^ m.setWidth 32) (r.setWidth 32) := by
  have turned (n : Nat) (part : n < 32) (l : BitVec w) := rol32Low wide l part
  simp only [processWord,blockFunction,BitVec.setWidth_xor,BitVec.setWidth_add _ _ wide,turned 17 (by decide),
    turned 3 (by decide),ror32Low wide,xswapLow wide]

theorem charLow (wide : 32 ≤ w) (c shift) :
    (charShifted w c shift).setWidth 32 = c.toBitVec.setWidth 32 <<< shift := lowSigned wide _

theorem wordLeSnoc {b} (short : b.length < 4) (c) :
    wordLe (b ++ [c]) = wordLe b ||| c.toBitVec.setWidth 32 <<< (8 * b.length) := by
  have small : value b.reverse < 2 ^ (8 * b.length) := by
    have less := valueLt b.reverse
    rwa [length_reverse,show 256 = 2 ^ 8 from rfl,← Nat.pow_mul] at less
  have byte : c.toNat < 2 ^ 8 := c.toNat_lt
  have shifted : c.toNat <<< (8 * b.length) < 2 ^ 32 := by
    rw [Nat.shiftLeft_eq]
    calc c.toNat * 2 ^ (8 * b.length) < 2 ^ 8 * 2 ^ (8 * b.length) :=
          Nat.mul_lt_mul_of_pos_right byte (Nat.pow_pos (by decide))
      _ = 2 ^ (8 + 8 * b.length) := (Nat.pow_add ..).symm
      _ ≤ 2 ^ 32 := Nat.pow_le_pow_right (by decide) (by omega)
  have room : value b.reverse < 2 ^ 32 := Nat.lt_of_lt_of_le small (Nat.pow_le_pow_right (by decide) (by omega))
  apply BitVec.eq_of_toNat_eq
  rw [wordLe,wordLe,reverse_append,reverse_singleton,singleton_append,value,length_reverse,
    show 256 = 2 ^ 8 from rfl,← Nat.pow_mul,← Nat.shiftLeft_eq,Nat.shiftLeft_add_eq_or_of_lt small,BitVec.toNat_or,
    BitVec.toNat_shiftLeft,BitVec.toNat_setWidth,UInt8.toNat_toBitVec,BitVec.toNat_ofNat,BitVec.toNat_ofNat,
    Nat.mod_eq_of_lt (Nat.lt_of_lt_of_le byte (by decide)),Nat.mod_eq_of_lt shifted,Nat.mod_eq_of_lt room,Nat.or_comm,
    Nat.mod_eq_of_lt (Nat.or_lt_two_pow room shifted)]

theorem getUInt32Low (wide : 32 ≤ w) {key} (four : 4 ≤ key.length) :
    (rtmpTkipGetUInt32 w key).setWidth 32 = wordLe (key.take 4) := by
  match key,four with
  | a :: b :: c :: d :: rest,_ =>
    have first : wordLe [a] = wordLe [] ||| a.toBitVec.setWidth 32 <<< 0 := wordLeSnoc (b := []) (by decide) a
    have second : wordLe [a,b] = wordLe [a] ||| b.toBitVec.setWidth 32 <<< 8 := wordLeSnoc (b := [a]) (by simp) b
    have third : wordLe [a,b,c] = wordLe [a,b] ||| c.toBitVec.setWidth 32 <<< 16 := wordLeSnoc (b := [a,b]) (by simp) c
    have fourth : wordLe [a,b,c,d] = wordLe [a,b,c] ||| d.toBitVec.setWidth 32 <<< 24 :=
      wordLeSnoc (b := [a,b,c]) (by simp) d
    show (0 ||| charShifted w a 0 ||| charShifted w b 8 ||| charShifted w c 16 ||| charShifted w d 24).setWidth 32 =
      wordLe [a,b,c,d]
    simp only [BitVec.setWidth_or,charLow wide,fourth,third,second,first]
    congr 4
    exact BitVec.setWidth_zero 32 w

theorem putBytesAre (wide : 8 ≤ w) (n) (val : BitVec w) : putBytes n val = (encode n val.toNat).reverse := by
  induction n generalizing val with
  | zero => rfl
  | succ n ih =>
    have byte : UInt8.ofBitVec ((val &&& 0xff).setWidth 8) = UInt8.ofNat val.toNat := by
      have ones : (0xff : BitVec w).setWidth 8 = BitVec.allOnes 8 := BitVec.setWidth_ofNat_of_le wide 0xff
      rw [BitVec.setWidth_and,ones,BitVec.and_allOnes,← BitVec.ofNat_toNat]
      rfl
    rw [putBytes,ih,byte,encodeSnoc,reverse_append,BitVec.toNat_ushiftRight,Nat.shiftRight_eq_div_pow]
    rfl

theorem putUInt32Low (wide : 32 ≤ w) (val : BitVec w) : rtmpTkipPutUInt32 val = bytesLe (val.setWidth 32) := by
  rw [rtmpTkipPutUInt32,putBytesAre (by omega),bytesLe,BitVec.toNat_setWidth,encodeMod]
  rfl

end Words

section Text
variable {w : Nat} {tkip : TkipKeyInfo w} {key text : Bytes}

structure Reads (key : Bytes) (tkip : TkipKeyInfo w) (text : Bytes) : Prop where
  words : (tkip.l.setWidth 32,tkip.r.setWidth 32) = fold michaelStep 4 (keyWords key) text
  held : tkip.m.setWidth 32 = wordLe (left 4 text)
  count : tkip.nBytesInM = (left 4 text).length

theorem setMicKeyReads (wide : 32 ≤ w) (tkip : TkipKeyInfo w) (eight : key.length = 8) :
    Reads key (rtmpTkipSetMicKey tkip key) [] := by
  have high : (key.drop 4).length = 4 := by rw [length_drop,eight]
  refine ⟨?_,BitVec.setWidth_zero 32 w,rfl⟩
  show ((rtmpTkipGetUInt32 w key).setWidth 32,(rtmpTkipGetUInt32 w (key.drop 4)).setWidth 32) = keyWords key
  rw [getUInt32Low wide (by omega),getUInt32Low wide high.ge,keyWords,take_of_length_le high.le]

theorem appendByteReads (wide : 32 ≤ w) (reads : Reads key tkip text) (c) :
    Reads key (rtmpTkipAppendByte tkip c) (text ++ [c]) := by
  have bound : (left 4 text).length < 4 := by
    rw [leftLength]
    exact Nat.mod_lt _ (by decide)
  have word : (tkip.m ||| charShifted w c (8 * tkip.nBytesInM)).setWidth 32 = wordLe (left 4 text ++ [c]) := by
    rw [BitVec.setWidth_or,charLow wide,reads.held,reads.count,wordLeSnoc bound]
  unfold rtmpTkipAppendByte
  by_cases full : tkip.nBytesInM + 1 ≥ 4
  · have whole : (left 4 text).length + [c].length = 4 := by
      have := reads.count
      rw [length_singleton]
      omega
    obtain ⟨value,ended⟩ := foldFull michaelStep (keyWords key) (by decide) whole
    simp only [if_pos full]
    refine ⟨?_,?_,?_⟩
    · rw [value,← reads.words,processLow wide,word]
      rfl
    · rw [ended]
      exact BitVec.setWidth_zero 32 w
    · rw [ended]
      rfl
  · have short : (left 4 text).length + [c].length < 4 := by
      have := reads.count
      rw [length_singleton]
      omega
    obtain ⟨value,held⟩ := foldMore michaelStep (keyWords key) (by decide) short
    simp only [if_neg full]
    refine ⟨?_,?_,?_⟩
    · rw [value]
      exact reads.words
    · rwa [held]
    · rw [held,length_append]
      exact congrArg (· + 1) reads.count

theorem appendReads (wide : 32 ≤ w) (reads : Reads key tkip text) (src) :
    Reads key (rtmpTkipAppend tkip src) (text ++ src) := by
  induction src generalizing tkip text with
  | nil => rwa [append_nil]
  | cons c rest ih =>
    have more := ih (appendByteReads wide reads c)
    rwa [append_assoc] at more

theorem appendAllReads (wide : 32 ≤ w) (reads : Reads key tkip text) (chunks) :
    Reads key (run rtmpTkipAppend tkip chunks) (text ++ chunks.flatten) := by
  induction chunks generalizing tkip text with
  | nil => rwa [flatten_nil,append_nil]
  | cons chunk rest ih =>
    have more := ih (appendReads wide reads chunk)
    rwa [append_assoc] at more

theorem appendZerosReads (wide : 32 ≤ w) {fuel} (reads : Reads key tkip text)
    (enough : (4 - text.length % 4) % 4 < fuel) : ∃ next, appendZeros fuel tkip = some next ∧
      Reads key next (text ++ replicate ((4 - text.length % 4) % 4) 0) := by
  induction fuel generalizing tkip text with
  | zero => omega
  | succ fuel ih =>
    have count : tkip.nBytesInM = text.length % 4 := by rw [reads.count,leftLength]
    by_cases zero : text.length % 4 = 0
    · refine ⟨tkip,?_,?_⟩
      · rw [appendZeros,if_neg (by omega)]
      · rw [zero]
        exact (append_nil text).symm ▸ reads
    · have length : (text ++ [0]).length = text.length + 1 := length_append
      have least : (4 - text.length % 4) % 4 = (4 - (text ++ [0]).length % 4) % 4 + 1 := by omega
      obtain ⟨next,zeros,held⟩ := ih (appendByteReads wide reads 0) (by omega)
      refine ⟨next,?_,?_⟩
      · rwa [appendZeros,if_pos (by omega)]
      · rw [append_assoc] at held
        rwa [least,replicate_succ]

theorem getMicReads (wide : 32 ≤ w) (reads : Reads key tkip text) :
    (rtmpTkipGetMic tkip).map (·.mic) = some (michael key text) := by
  have marked := appendReads wide reads [0x5a,0,0,0,0]
  have length : (text ++ [0x5a,0,0,0,0]).length = text.length + 5 := length_append
  have few : (4 - (text ++ [0x5a,0,0,0,0]).length % 4) % 4 < 4 := Nat.mod_lt _ (by decide)
  obtain ⟨next,zeros,held⟩ := appendZerosReads wide marked few
  have padded : text ++ [0x5a,0,0,0,0] ++ replicate ((4 - (text ++ [0x5a,0,0,0,0]).length % 4) % 4) 0 =
      paddedMessage text := by
    have split : 7 - text.length % 4 = 4 + (4 - (text ++ [0x5a,0,0,0,0]).length % 4) % 4 := by omega
    rw [paddedMessage,split,← replicate_append_replicate]
    simp
  rw [padded] at held
  have value : (appendZeros 4 (rtmpTkipAppend tkip [0x5a,0,0,0,0])).map
      (fun tkip => rtmpTkipPutUInt32 tkip.l ++ rtmpTkipPutUInt32 tkip.r) = some (michael key text) := by
    rw [zeros,Option.map_some,putUInt32Low wide,putUInt32Low wide,michael,← held.words]
  rw [← value,rtmpTkipGetMic,Option.map_map]
  rfl

theorem priorityBytesAre (wide : 32 ≤ w) (priority) : priorityBytes w priority = [priority,0,0,0] := by
  have small : priority.toNat < 2 ^ w :=
    Nat.lt_of_lt_of_le priority.toNat_lt (Nat.pow_le_pow_right (by decide) (by omega))
  rw [priorityBytes,putBytesAre (by omega),BitVec.toNat_setWidth,UInt8.toNat_toBitVec,Nat.mod_eq_of_lt small,
    encodeByte priority.toNat_lt,UInt8.ofNat_toNat]
  rfl

theorem initReads (wide : 32 ≤ w) (tkip : TkipKeyInfo w) (eight : key.length = 8) (da sa : Bytes) (priority) :
    Reads key (rtmpInitMicEngine tkip da sa priority key)
      (da.take macAddrLen ++ sa.take macAddrLen ++ [priority,0,0,0]) := by
  have start := setMicKeyReads wide tkip eight
  rw [rtmpInitMicEngine,priorityBytesAre wide]
  exact appendReads wide (appendReads wide (appendReads wide start (da.take macAddrLen)) (sa.take macAddrLen)) _

end Text

theorem readPart (front part back) : readAt (front ++ part ++ back) front.length part.length = some part := by
  have inside : front.length + part.length ≤ (front ++ part ++ back).length := by
    rw [length_append,length_append]
    omega
  rw [readAt,if_pos inside,append_assoc,drop_left,take_left]

structure Msdu where
  da : Bytes
  sa : Bytes
  tag : Bytes
  type : Bytes
  payload : Bytes
  daLength : da.length = macAddrLen
  saLength : sa.length = macAddrLen
  typeLength : type.length = 2
  tagged : vlanOffset (tag ++ type) = tag.length
  fits : 14 + tag.length + payload.length < 2 ^ 32

namespace Msdu
def frame (p : Msdu) : Bytes := p.da ++ p.sa ++ p.tag ++ p.type ++ p.payload

def llcHeader (p : Msdu) : Option Bytes → Bytes
  | none => []
  | some llc => llc ++ p.type

def body (p : Msdu) (encap : Option Bytes) : Bytes := p.llcHeader encap ++ p.payload

theorem frameLength (p : Msdu) : p.frame.length = 14 + p.tag.length + p.payload.length := by
  simp only [frame,length_append,p.daLength,p.saLength,p.typeLength,macAddrLen]
  omega

theorem typeRead (p : Msdu) : readAt p.frame (12 + p.tag.length) 2 = some p.type := by
  have part := readPart (p.da ++ p.sa ++ p.tag) p.type p.payload
  rwa [length_append,length_append,p.daLength,p.saLength,p.typeLength] at part

theorem payloadRead (p : Msdu) : readAt p.frame (14 + p.tag.length) p.payload.length = some p.payload := by
  have part := readPart (p.da ++ p.sa ++ p.tag ++ p.type) p.payload []
  rw [append_nil] at part
  simp only [length_append,p.daLength,p.saLength,p.typeLength,macAddrLen] at part
  rwa [show 6 + 6 + p.tag.length + 2 = 14 + p.tag.length by omega] at part

theorem vlanRead (p : Msdu) : (readAt p.frame 12 2).map vlanOffset = some p.tag.length := by
  have split : p.frame = (p.da ++ p.sa) ++ (p.tag ++ p.type).take 2 ++ ((p.tag ++ p.type).drop 2 ++ p.payload) := by
    rw [append_assoc _ (List.take 2 _),← append_assoc (List.take 2 _),take_append_drop,frame]
    simp only [append_assoc]
  have two : ((p.tag ++ p.type).take 2).length = 2 := by
    rw [length_take,length_append,p.typeLength]
    omega
  have part := readPart (p.da ++ p.sa) ((p.tag ++ p.type).take 2) ((p.tag ++ p.type).drop 2 ++ p.payload)
  rw [← split,length_append,p.daLength,p.saLength,two] at part
  have seen : vlanOffset ((p.tag ++ p.type).take 2) = vlanOffset (p.tag ++ p.type) := by
    simp only [vlanOffset,getD_eq_getElem?_getD,List.getElem?_take_of_lt (by decide : 0 < 2),
      List.getElem?_take_of_lt (by decide : 1 < 2)]
  have read : readAt p.frame 12 2 = some ((p.tag ++ p.type).take 2) := part
  rw [read,Option.map_some,seen,p.tagged]

end Msdu

section Mic
variable {w : Nat} {key : Bytes}

theorem restLengthIs (p : Msdu) : restLength p.frame.length p.tag.length = p.payload.length := by
  have fits := p.fits
  have whole := p.frameLength
  generalize p.frame.length = length at whole
  unfold restLength
  omega

theorem appendRestIs (tkip : TkipKeyInfo w) (p : Msdu) :
    appendRest tkip p.frame p.tag.length = some (rtmpTkipAppend tkip p.payload) := by
  simp only [appendRest,restLengthIs]
  split
  next => rw [p.payloadRead,Option.map_some]
  next empty =>
    rw [length_eq_zero_iff.mp (Nat.eq_zero_of_not_pos empty)]
    rfl

theorem appendEncapReads (wide : 32 ≤ w) {tkip : TkipKeyInfo w} {text} (reads : Reads key tkip text) (p : Msdu)
    {encap} (six : ∀ llc ∈ encap, llc.length = 6) : ∃ next,
      appendEncap tkip p.frame p.tag.length encap = some next ∧ Reads key next (text ++ p.llcHeader encap) := by
  cases encap with
  | none => exact ⟨tkip,rfl,(append_nil text).symm ▸ reads⟩
  | some llc =>
    have whole : llc.take 6 = llc := take_of_length_le (Nat.le_of_eq (six llc rfl))
    have both := appendReads wide (appendReads wide reads llc) p.type
    refine ⟨_,?_,append_assoc text llc p.type ▸ both⟩
    rw [appendEncap,p.typeRead,Option.map_some,whole]

theorem calculateIs (wide : 32 ≤ w) (tkip : TkipKeyInfo w) (eight : key.length = 8) (p : Msdu) (priority encap)
    (six : ∀ llc ∈ encap, llc.length = 6) :
    (rtmpCalculateMicValue tkip p.frame priority encap key).map (·.mic) =
      some (michael key (p.da ++ p.sa ++ [priority,0,0,0] ++ p.body encap)) := by
  have start := initReads wide tkip eight p.frame (p.frame.drop macAddrLen) priority
  have da : p.frame.take macAddrLen = p.da := by
    simp only [Msdu.frame,append_assoc]
    exact take_left' p.daLength
  have sa : (p.frame.drop macAddrLen).take macAddrLen = p.sa := by
    simp only [Msdu.frame,append_assoc]
    rw [drop_left' p.daLength]
    exact take_left' p.saLength
  rw [da,sa] at start
  obtain ⟨next,encapped,held⟩ := appendEncapReads wide start p six
  have all := getMicReads wide (appendReads wide held p.payload)
  rw [append_assoc] at all
  rw [rtmpCalculateMicValue,p.vlanRead]
  simp only [bind,Option.bind_some,encapped,appendRestIs]
  exact all

theorem compareIs (wide : 32 ≤ w) (tkip : TkipKeyInfo w) (eight : key.length = 8) {da sa text mic}
    (daLength : da.length = macAddrLen) (saLength : sa.length = macAddrLen) (micLength : mic.length = 8)
    (priority) (back : Bytes) :
    (rtmpTkipCompareMicValue tkip (text ++ mic ++ back) da sa key priority text.length).map (·.2) =
      some (decide (michael key (da ++ sa ++ [priority,0,0,0] ++ text) = mic)) := by
  have start := initReads wide tkip eight da sa priority
  rw [take_of_length_le (Nat.le_of_eq daLength),take_of_length_le (Nat.le_of_eq saLength)] at start
  obtain ⟨next,found,value⟩ := Option.map_eq_some_iff.mp (getMicReads wide (appendReads wide start text))
  have front : readAt (text ++ mic ++ back) 0 text.length = some text := by
    rw [append_assoc]
    exact readPart [] text (mic ++ back)
  have old : readAt (text ++ mic ++ back) text.length 8 = some mic := micLength ▸ readPart text mic back
  simp only [rtmpTkipCompareMicValue,bind,Option.bind_some,front,old,found,Option.map_some,value]

end Mic

theorem micIsMichael (w : Nat) (wide : 32 ≤ w) (tkip : TkipKeyInfo w) (key : Bytes) (eight : key.length = 8) :
    (∀ chunks : List Bytes, (rtmpTkipGetMic (run rtmpTkipAppend (rtmpTkipSetMicKey tkip key) chunks)).map (·.mic) =
        some (michael key chunks.flatten)) ∧
      (∀ (p : Msdu) (priority : UInt8) (encap : Option Bytes), (∀ llc ∈ encap, llc.length = 6) →
        (rtmpCalculateMicValue tkip p.frame priority encap key).map (·.mic) =
          some (michael key (p.da ++ p.sa ++ [priority,0,0,0] ++ p.body encap))) ∧
      (∀ (da sa text mic back : Bytes) (priority : UInt8), da.length = macAddrLen → sa.length = macAddrLen →
        mic.length = 8 →
        (rtmpTkipCompareMicValue tkip (text ++ mic ++ back) da sa key priority text.length).map (·.2) =
          some (decide (michael key (da ++ sa ++ [priority,0,0,0] ++ text) = mic))) := by
  refine ⟨?_,?_,?_⟩
  · intro chunks
    exact getMicReads wide (appendAllReads wide (setMicKeyReads wide tkip eight) chunks)
  · intro p priority encap six
    exact calculateIs wide tkip eight p priority encap six
  · intro da sa text mic back priority daLength saLength micLength
    exact compareIs wide tkip eight daLength saLength micLength priority back

theorem micIsMichaelLong : (rtmpTkipGetMic (run rtmpTkipAppend
      (rtmpTkipSetMicKey (⟨0,0,0,0,0,0,[]⟩ : TkipKeyInfo 64) [0xd5,0x5e,0x10,0x05,0x10,0x12,0x89,0x86])
      [[77],[105,99,104,97,101,108]])).map (·.mic) =
    some (michael [0xd5,0x5e,0x10,0x05,0x10,0x12,0x89,0x86] [77,105,99,104,97,101,108]) :=
  (micIsMichael 64 (by decide) ⟨0,0,0,0,0,0,[]⟩ [0xd5,0x5e,0x10,0x05,0x10,0x12,0x89,0x86] (by decide)).1
    [[77],[105,99,104,97,101,108]]

end RtmpDriver.Michael
