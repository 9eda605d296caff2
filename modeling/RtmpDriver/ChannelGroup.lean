import Mathlib.Data.List.Range

/-! The entries of the adapter's channel list and the two bandwidth checks that its builders make on each. The check for
40 MHz walks the array up to `ChannelListNum`, whatever part of it is filled. -/
namespace RtmpDriver.ChannelGroup

/- CHANNEL_TX_POWER of rtmp.h. The powers are the bytes of the `CHAR` fields. -/
structure ChannelTxPower where
  remainingTimeForUse : Nat
  channel : Nat
  bEffectedChannel : Bool
  power : UInt8
  power2 : UInt8
  maxTxPwr : UInt8
  dfsReq : Nat
  regulatoryDomain : Nat
  flags : UInt8
  deriving DecidableEq, Repr

def zeroed : ChannelTxPower := ⟨0,0,false,0,0,0,0,0,0⟩

structure ChannelState where
  channelList : Nat → ChannelTxPower
  channelListNum : Nat

def maxNumOfChannels : Nat := 59

def channelDefaultProp : UInt8 := 0x00
def channelPassiveScan : UInt8 := 0x02
def channel40MCap : UInt8 := 0x40
def channel80MCap : UInt8 := 0x80

def wmodeA : Nat := 0x01
def wmodeB : Nat := 0x02
def wmodeG : Nat := 0x04
def wmodeGN : Nat := 0x08
def wmodeAN : Nat := 0x10
def wmodeAC : Nat := 0x20

def wmodeCap5G (phyMode : Nat) : Bool := phyMode &&& (wmodeA ||| wmodeAN ||| wmodeAC) != 0

def wmodeCap2G (phyMode : Nat) : Bool := phyMode &&& (wmodeB ||| wmodeG ||| wmodeGN) != 0

def wmode5GOnly (phyMode : Nat) : Bool := phyMode &&& (wmodeB ||| wmodeG ||| wmodeGN) == 0

def jap : Nat := 2
def japW53 : Nat := 3
def japW56 : Nat := 4

def isValidChannel (s : ChannelState) (channel : Nat) : Bool :=
  (List.range s.channelListNum).any fun i => (s.channelList i).channel == channel

inductive Direction where
  | above
  | below
  deriving DecidableEq, Repr

def getExtCh (channel : Nat) : Direction → Nat
  | .above => (channel + 4) % 256
  | .below => if channel > 4 then channel - 4 else 0

def nChannelGroupCheck (s : ChannelState) (channel : Nat) : Bool :=
  if channel > 14 then
    if channel ∈ [36,44,52,60,100,108,116,124,132,149,157] then true
    else if channel ∈ [40,48,56,64,104,112,120,128,136,153,161] then true
    else false
  else if channel = 14 then false
  else if isValidChannel s (getExtCh channel .above) then true
  else isValidChannel s (getExtCh channel .below)

structure VhtChLayout where
  chLowBnd : Nat
  chUpBnd : Nat
  centFreqIdx : Nat
  deriving DecidableEq, Repr

def vhtCh80M : List VhtChLayout :=
  [⟨36,48,42⟩,⟨52,64,58⟩,⟨100,112,106⟩,⟨116,128,122⟩,⟨132,144,138⟩,⟨149,161,155⟩]

def vht80ChannelGroup (rdDurRegion channel : Nat) : Bool :=
  if channel ≤ 14 then false
  else vhtCh80M.any fun layout =>
    decide (layout.chLowBnd ≤ channel ∧ channel ≤ layout.chUpBnd) &&
      !(decide (rdDurRegion = jap ∨ rdDurRegion = japW53 ∨ rdDurRegion = japW56) && layout.centFreqIdx == 138)

def groupFlags (rdDurRegion : Nat) (s : ChannelState) (channel : Nat) (flags : UInt8) : UInt8 :=
  let flags := if nChannelGroupCheck s channel then flags ||| channel40MCap else flags
  if vht80ChannelGroup rdDurRegion channel then flags ||| channel80MCap else flags

variable {s s' : ChannelState} {c r : Nat}

theorem isValidChannelIff {x} :
    isValidChannel s x = true ↔ ∃ k, k < s.channelListNum ∧ (s.channelList k).channel = x := by
  simp [isValidChannel]

theorem groupCheckLow (low : c ≤ 13) : nChannelGroupCheck s c = true ↔
    ∃ k, k < s.channelListNum ∧ ((s.channelList k).channel = c + 4 ∨ (s.channelList k).channel = c - 4) := by
  have above : getExtCh c .above = c + 4 := Nat.mod_eq_of_lt (by omega)
  have below : getExtCh c .below = c - 4 := by
    rw [getExtCh]
    split <;> omega
  rw [nChannelGroupCheck,if_neg (by omega),if_neg (by omega),above,below]
  simp only [Bool.if_true_left,Bool.or_eq_true,decide_eq_true_eq,isValidChannelIff]
  constructor
  · rintro (⟨k,inside,here⟩ | ⟨k,inside,here⟩)
    · exact ⟨k,inside,.inl here⟩
    · exact ⟨k,inside,.inr here⟩
  · rintro ⟨k,inside,here | here⟩
    · exact .inl ⟨k,inside,here⟩
    · exact .inr ⟨k,inside,here⟩

theorem groupCheckHigh (high : 14 < c) : nChannelGroupCheck s c = nChannelGroupCheck s' c := by
  rw [nChannelGroupCheck,nChannelGroupCheck,if_pos high,if_pos high]

theorem vht80Low (low : c ≤ 14) : vht80ChannelGroup r c = false := if_pos low

end RtmpDriver.ChannelGroup
