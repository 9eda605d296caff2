import Mathlib.Data.List.Basic

/-! The Block-Ack action frames as received: packed structures over the bytes of the message, read on a little-endian
host. None of the three sanity functions looks at the TID. -/
namespace RtmpDriver.BaFrames

abbrev Bytes := List UInt8

def byteAt (msg : Bytes) (i : Nat) : Nat := (msg.getD i 0).toNat
def le16 (msg : Bytes) (i : Nat) : Nat := byteAt msg i + 256 * byteAt msg (i + 1)

def sizeofHeader80211 : Nat := 24
def sizeofFrameAddbaReq : Nat := sizeofHeader80211 + 9
def sizeofFrameAddbaRsp : Nat := sizeofHeader80211 + 9
def sizeofFrameDelbaReq : Nat := sizeofHeader80211 + 6

def immedBa : Nat := 1

inductive Initiator where | recipient | originator
  deriving DecidableEq, Repr

structure BaParm where
  amsduSupported : Bool
  baPolicy : Nat
  tid : Nat
  bufSize : Nat
  deriving DecidableEq, Repr

def baParm (word : Nat) : BaParm where
  amsduSupported := decide (word % 2 = 1)
  baPolicy := word / 2 % 2
  tid := word / 4 % 16
  bufSize := word / 64

structure FrameAddbaReq where
  token : Nat
  parm : BaParm
  timeOutValue : Nat
  deriving DecidableEq, Repr

def frameAddbaReq (msg : Bytes) : FrameAddbaReq where
  token := byteAt msg (sizeofHeader80211 + 2)
  parm := baParm (le16 msg (sizeofHeader80211 + 3))
  timeOutValue := le16 msg (sizeofHeader80211 + 5)

structure FrameAddbaRsp where
  statusCode : Nat
  parm : BaParm
  timeOutValue : Nat
  deriving DecidableEq, Repr

def frameAddbaRsp (msg : Bytes) : FrameAddbaRsp where
  statusCode := le16 msg (sizeofHeader80211 + 3)
  parm := baParm (le16 msg (sizeofHeader80211 + 5))
  timeOutValue := le16 msg (sizeofHeader80211 + 7)

structure FrameDelbaReq where
  initiator : Initiator
  tid : Nat
  deriving DecidableEq, Repr

def frameDelbaReq (msg : Bytes) : FrameDelbaReq where
  initiator := if le16 msg (sizeofHeader80211 + 2) / 2048 % 2 = 1 then .originator else .recipient
  tid := le16 msg (sizeofHeader80211 + 2) / 4096

def peerAddbaReqActionSanity (msg : Bytes) : Bool :=
  decide (sizeofFrameAddbaReq ≤ msg.length) && decide ((frameAddbaReq msg).parm.baPolicy = immedBa)

def peerAddbaRspActionSanity (msg : Bytes) : Bool :=
  decide (sizeofFrameAddbaRsp ≤ msg.length) && decide ((frameAddbaRsp msg).parm.baPolicy = immedBa)

def peerDelbaActionSanity (macTableLen wcid : Nat) (msg : Bytes) : Bool :=
  decide (msg.length = sizeofFrameDelbaReq) && decide (wcid < macTableLen)

end RtmpDriver.BaFrames
