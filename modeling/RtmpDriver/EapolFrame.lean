import RtmpDriver.BigEndian

/-! EAPOL-Key frames as the MLME queue hands them over. What stands behind the message in `Elem` is whatever the fixed
receive buffer held before. -/
namespace RtmpDriver.EapolFrame
open BigEndian

abbrev Bytes := List UInt8

structure Elem where
  msg : Nat → UInt8
  msgLen : BitVec 64

def length80211 : Nat := 24
def length8021H : Nat := 8
def lengthEapolH : Nat := 4
def minLenOfEapolKeyMsg : Nat := 95
def lenKeyDescReplay : Nat := 8
def lenKeyDescNonce : Nat := 32
def lenKeyDescMic : Nat := 16

def bytesAt (m : Nat → UInt8) (offset len : Nat) : Bytes := (List.range len).map fun i => m (offset + i)

def be16 (m : Nat → UInt8) (offset : Nat) : Nat := (m offset).toNat * 256 + (m (offset + 1)).toNat

abbrev Counter := {b : Bytes // b.length = lenKeyDescReplay}

def Counter.value (c : Counter) : Nat := BigEndian.value c.1
def Counter.zero : Counter := ⟨List.replicate lenKeyDescReplay 0,rfl⟩

def counterAt (m : Nat → UInt8) (offset : Nat) : Counter :=
  ⟨bytesAt m offset lenKeyDescReplay,by simp [bytesAt]⟩

def rtmpCompareMemory : Bytes → Bytes → Nat
  | a :: as,b :: bs => if b < a then 1 else if a < b then 2 else rtmpCompareMemory as bs
  | _,_ => 0

theorem compareMemoryIs {as bs} (length : as.length = bs.length) :
    (rtmpCompareMemory as bs = 1 ↔ value bs < value as) ∧ (rtmpCompareMemory as bs = 0 ↔ as = bs) := by
  induction as generalizing bs with
  | nil => simp [rtmpCompareMemory,List.length_eq_zero_iff.mp length.symm]
  | cons a as ih =>
    cases bs with
    | nil => simp at length
    | cons b bs =>
      have tails : as.length = bs.length := by simpa using length
      unfold rtmpCompareMemory
      split
      next more => simp [valueHead tails.symm more,(UInt8.ne_of_lt more).symm]
      next notMore =>
        split
        next less => simp [Nat.le_of_lt (valueHead tails less),UInt8.ne_of_lt less]
        next notLess =>
          have same : a = b := UInt8.le_antisymm (UInt8.not_lt.mp notMore) (UInt8.not_lt.mp notLess)
          subst same
          simp [(ih tails).1,(ih tails).2,valueTail tails.symm]

structure KeyInfo where
  keyMic : Bool
  secure : Bool
  error : Bool
  request : Bool
  keyDescVer : Nat
  pairwise : Bool
  keyIndex : Nat
  keyAck : Bool
  deriving DecidableEq, Repr

def keyInfoOf (low high : UInt8) : KeyInfo where
  keyMic := low.toNat.testBit 0
  secure := low.toNat.testBit 1
  error := low.toNat.testBit 2
  request := low.toNat.testBit 3
  keyDescVer := high.toNat % 8
  pairwise := high.toNat.testBit 3
  keyIndex := high.toNat / 16 % 4
  keyAck := high.toNat.testBit 7

structure EapolKey where
  proVer : UInt8
  bodyLen : Nat
  descType : UInt8
  info : KeyInfo
  replayCounter : Counter
  keyNonce : Bytes
  keyIv : Bytes
  keyMic : Bytes
  keyDataLen : Nat
  keyData : Bytes
  covered : Bytes
  deriving DecidableEq

def micZeroed (m : Nat → UInt8) (offset : Nat) : Nat → UInt8 :=
  fun i => if offset ≤ i ∧ i < offset + lenKeyDescMic then 0 else m i

def eapolKey (elem : Elem) : EapolKey :=
  let packet := fun i => elem.msg (length80211 + length8021H + i)
  {proVer := packet 0
   bodyLen := be16 packet 2
   descType := packet 4
   info := keyInfoOf (packet 5) (packet 6)
   replayCounter := counterAt packet 9
   keyNonce := bytesAt packet 17 lenKeyDescNonce
   keyIv := bytesAt packet 49 16
   keyMic := bytesAt packet 81 lenKeyDescMic
   keyDataLen := be16 packet 97
   keyData := bytesAt packet 99 (be16 packet 97)
   covered := bytesAt (micZeroed packet 81) 0 (be16 packet 2 + lengthEapolH)}

def EapolKey.eapolLen (key : EapolKey) : Nat := key.bodyLen + lengthEapolH

def addr2 (elem : Elem) : Bytes := bytesAt elem.msg 10 6

def shortMsg (elem : Elem) : Bool :=
  decide (elem.msgLen.toNat < length80211 + length8021H + lengthEapolH + minLenOfEapolKeyMsg)

end RtmpDriver.EapolFrame
