import RtmpDriver.RxFilter

/-! The two macros between Ethernet frames and LLC/SNAP bodies: EXTRA_LLCSNAP_ENCAP picks the six
bytes that go before an EtherType, CONVERT_TO_802_3 makes an Ethernet header from a body. -/
namespace RtmpDriver.LlcSnap
open EapolFrame WpaSupplicant RxFilter

def length8023 : Nat := 14

def Addr := {b : Bytes // b.length = 6}

instance addrDecidableEq : DecidableEq Addr := inferInstanceAs (DecidableEq {b : Bytes // b.length = 6})

structure EthernetFrame where
  dest : Addr
  source : Addr
  type : Bytes
  payload : Bytes
  two : type.length = 2

def EthernetFrame.bytes (e : EthernetFrame) : Bytes := e.dest.val ++ (e.source.val ++ (e.type ++ e.payload))

def ipx : Bytes := [0x81,0x37]
def appleTalk : Bytes := [0x80,0xf3]

def type16 (t : Bytes) : Nat := (t.getD 0 0).toNat * 256 + (t.getD 1 0).toNat

def extraLlcSnapEncap (t : Bytes) : Option Bytes :=
  if type16 t > 1500 then some (if t = ipx ∨ t = appleTalk then snapBridgeTunnel else snap8021H) else none

def EthernetFrame.encapsulated (e : EthernetFrame) : Bytes :=
  (extraLlcSnapEncap e.type).getD [] ++ (e.type ++ e.payload)

structure Converted where
  header8023 : Bytes
  removed : Bool
  dataSize : BitVec 16
  deriving DecidableEq, Repr

def llcLen (size : BitVec 16) : Bytes := [UInt8.ofNat (size.toNat / 256),UInt8.ofNat (size.toNat % 256)]

def convertTo8023 (da sa : Bytes) (data : Nat → UInt8) (dataSize : BitVec 16) : Converted :=
  if bytesAt data 0 6 = snap8021H ∨ bytesAt data 0 6 = snapBridgeTunnel then
    if (bytesAt data 6 2 = ipx ∨ bytesAt data 6 2 = appleTalk) ∧ bytesAt data 0 6 = snap8021H then
      ⟨da ++ sa ++ llcLen dataSize,false,dataSize⟩
    else ⟨da ++ sa ++ bytesAt data 6 2,true,dataSize - BitVec.ofNat 16 length8021H⟩
  else ⟨da ++ sa ++ llcLen dataSize,false,dataSize⟩

theorem encapSome {t} (ether : 1500 < type16 t) : ∃ llc, extraLlcSnapEncap t = some llc ∧ llc.length = 6 := by
  unfold extraLlcSnapEncap
  rw [if_pos ether]
  refine ⟨_,rfl,?_⟩
  split <;> rfl

theorem convertEncap {t llc} (encap : extraLlcSnapEncap t = some llc) {data}
    (front : bytesAt data 0 6 = llc) (type : bytesAt data 6 2 = t) (da sa dataSize) :
    convertTo8023 da sa data dataSize = ⟨da ++ sa ++ t,true,dataSize - BitVec.ofNat 16 length8021H⟩ := by
  unfold extraLlcSnapEncap at encap
  split at encap
  case isFalse => cases encap
  have other : snapBridgeTunnel ≠ snap8021H := by decide
  have picked := Option.some.inj encap
  unfold convertTo8023
  rw [front,type]
  by_cases special : t = ipx ∨ t = appleTalk
  · rw [if_pos special] at picked
    rw [← picked,if_pos (.inr rfl),if_neg (fun both => other both.2)]
  · rw [if_neg special] at picked
    rw [← picked,if_pos (.inl rfl),if_neg (fun both => special both.1)]

end RtmpDriver.LlcSnap
