import Mathlib.Tactic.Common
import RtmpDriver.ByteMemory

/-! GetPacketFromRxRing: one frame out of a bulk-in buffer, with the RXDMA length, the RXINFO, the RXWI, the MPDU and
the RXFCE_INFO. -/
namespace RtmpDriver.BulkIn
open ByteMemory List

def rxdmaFieldSize : Nat := 4
def rxinfoSize : Nat := 4
def rxfceInfoSize : Nat := 4
def rxwiSize : Nat := 28

structure RxContext where
  readable : Bool
  inUse : Bool
  transferBuffer : Nat → UInt8
  bulkInOffset : Nat

/- RX_BLK as it leaves the parser: `packet` is the copy, pData its start and `header` the offset of pHeader. -/
structure RxBlk where
  mpduTotalByteCnt : Nat
  wcid : UInt8
  keyIdx : Nat
  bssIdx : Nat
  tid : Nat
  dataSize : Nat
  phyMode : Nat
  mcs : Nat
  ldpc : Bool
  bw : Nat
  stbc : Bool
  sgi : Bool
  rssi : List UInt8
  snr : List UInt8
  freqOffset : UInt8
  ldpcExSym : Bool
  rxFceInfo : List UInt8
  rxInfo : List UInt8
  packet : List UInt8
  header : Nat
  deriving DecidableEq, Repr

structure Parsed where
  readPosition : Nat
  reads : List (Nat × Nat)
  packet : Option RxBlk
  deriving DecidableEq, Repr

def thisFrameLen (buffer : Nat → UInt8) (pos : Nat) : Nat := (buffer pos).toNat + 256 * (buffer (pos + 1)).toNat

def mpduCount (buffer : Nat → UInt8) (wi : Nat) : Nat :=
  ((buffer (wi + 2)).toNat + 256 * (buffer (wi + 3)).toNat) % 16384

def rxBlkOf (buffer : Nat → UInt8) (pos : Nat) : RxBlk :=
  let len := thisFrameLen buffer pos
  let info := pos + rxdmaFieldSize
  let wi := info + rxinfoSize
  { mpduTotalByteCnt := mpduCount buffer wi
    wcid := buffer wi
    keyIdx := (buffer (wi + 1)).toNat % 4
    bssIdx := (buffer (wi + 1)).toNat / 4 % 8
    tid := (buffer (wi + 4)).toNat % 16
    dataSize := mpduCount buffer wi
    phyMode := (buffer (wi + 7)).toNat / 32
    mcs := (buffer (wi + 6)).toNat % 64
    ldpc := (buffer (wi + 6)).toNat.testBit 6
    bw := (buffer (wi + 6)).toNat / 128 + 2 * ((buffer (wi + 7)).toNat % 2)
    stbc := (buffer (wi + 7)).toNat.testBit 2
    sgi := (buffer (wi + 7)).toNat.testBit 1
    rssi := load buffer (wi + 8) 3
    snr := load buffer (wi + 12) 3
    freqOffset := buffer (wi + 16)
    ldpcExSym := (buffer (wi + 7)).toNat.testBit 3
    rxFceInfo := load buffer (info + len) rxfceInfoSize
    rxInfo := load buffer info rxinfoSize
    packet := load buffer wi len
    header := rxwiSize }

def validLen : Nat := rxdmaFieldSize + rxwiSize + rxinfoSize + rxfceInfoSize

def lengthRefused (rxBufferLength len : Nat) : Bool := len = 0 ∨ len % 4 ≠ 0 ∨ rxBufferLength < len + 8

def getPacketFromRxRing (ctx : RxContext) (pos : Nat) (allocated : Bool) : Parsed :=
  if ctx.readable = false ∨ ctx.inUse = true then ⟨pos,[],none⟩
  else
    let rxBufferLength := ctx.bulkInOffset - pos
    if rxBufferLength < validLen then ⟨pos,[],none⟩
    else
      let len := thisFrameLen ctx.transferBuffer pos
      let wi := pos + rxdmaFieldSize + rxinfoSize
      if lengthRefused rxBufferLength len then ⟨pos,[(pos,2)],none⟩
      else if len < mpduCount ctx.transferBuffer wi ∨ allocated = false then ⟨pos,[(pos,2),(wi,rxwiSize)],none⟩
      else
        { readPosition := pos + (len + rxdmaFieldSize + rxinfoSize)
          reads := [(pos,2),(wi,rxwiSize),(wi,len),(pos + rxdmaFieldSize + len,rxfceInfoSize),
            (pos + rxdmaFieldSize,rxinfoSize)]
          packet := some (rxBlkOf ctx.transferBuffer pos) }

structure Accepted (ctx : RxContext) (pos : Nat) (allocated : Bool) : Prop where
  ready : ctx.readable = true ∧ ctx.inUse = false
  room : validLen ≤ ctx.bulkInOffset - pos
  length : lengthRefused (ctx.bulkInOffset - pos) (thisFrameLen ctx.transferBuffer pos) = false
  count : mpduCount ctx.transferBuffer (pos + rxdmaFieldSize + rxinfoSize) ≤ thisFrameLen ctx.transferBuffer pos
  memory : allocated = true

theorem lengthAccepted {rest len} (ok : lengthRefused rest len = false) :
    0 < len ∧ len % 4 = 0 ∧ len + 8 ≤ rest := by
  simp only [lengthRefused,decide_eq_false_iff_not,not_or,not_not,Nat.not_lt] at ok
  exact ⟨Nat.pos_of_ne_zero ok.1,ok.2.1,ok.2.2⟩

theorem callCases (ctx pos allocated) : Accepted ctx pos allocated ∧ getPacketFromRxRing ctx pos allocated =
          { readPosition := pos + (thisFrameLen ctx.transferBuffer pos + 8)
            reads := [(pos,2),(pos + 8,28),(pos + 8,thisFrameLen ctx.transferBuffer pos),
              (pos + 4 + thisFrameLen ctx.transferBuffer pos,4),(pos + 4,4)]
            packet := some (rxBlkOf ctx.transferBuffer pos) } ∨
      ¬ Accepted ctx pos allocated ∧ ∃ reads, getPacketFromRxRing ctx pos allocated = ⟨pos,reads,none⟩ ∧
        ∀ r ∈ reads, pos + 40 ≤ ctx.bulkInOffset ∧ r.1 + r.2 ≤ pos + 40 := by
  unfold getPacketFromRxRing
  split
  · rename_i closed
    refine .inr ⟨fun accepted => ?_,[],rfl,fun r mem => absurd mem not_mem_nil⟩
    rw [accepted.ready.1,accepted.ready.2] at closed
    simp at closed
  rename_i ready
  simp only
  split
  · rename_i short
    exact .inr ⟨fun accepted => absurd accepted.room (by omega),[],rfl,fun r mem => absurd mem not_mem_nil⟩
  rename_i room
  have valid : validLen = 40 := rfl
  split
  · rename_i refused
    refine .inr ⟨fun accepted => ?_,_,rfl,fun r mem => ?_⟩
    · rw [accepted.length] at refused
      cases refused
    · rw [mem_singleton] at mem
      subst mem
      exact ⟨by omega,by simp⟩
  rename_i length
  split
  · rename_i stopped
    refine .inr ⟨fun accepted => ?_,_,rfl,fun r mem => ?_⟩
    · rcases stopped with large | failed
      · exact absurd accepted.count (by omega)
      · rw [accepted.memory] at failed
        cases failed
    · simp only [mem_cons,not_mem_nil,or_false] at mem
      rcases mem with rfl | rfl
      · exact ⟨by omega,by simp⟩
      · exact ⟨by omega,by simp [rxdmaFieldSize,rxinfoSize,rxwiSize]⟩
  · rename_i passed
    simp only [not_or,Nat.not_lt,Bool.not_eq_false,Bool.not_eq_true] at passed ready length
    exact .inl ⟨⟨ready,by omega,length,passed.1,passed.2⟩,rfl⟩

def StaysInside (ctx : RxContext) (pos : Nat) (out : Parsed) : Prop :=
  (∀ r ∈ out.reads, r.1 + r.2 ≤ ctx.bulkInOffset) ∧
    match out.packet with
    | none => out.readPosition = pos
    | some rx => pos < out.readPosition ∧ out.readPosition ≤ ctx.bulkInOffset ∧
        rx.packet.length = thisFrameLen ctx.transferBuffer pos ∧ rx.header + rx.mpduTotalByteCnt ≤ rx.packet.length

def CountFits (ctx : RxContext) (pos : Nat) (allocated : Bool) : Prop :=
  Accepted ctx pos allocated →
    rxwiSize + mpduCount ctx.transferBuffer (pos + rxdmaFieldSize + rxinfoSize) ≤ thisFrameLen ctx.transferBuffer pos

theorem bulkInInside (ctx : RxContext) (pos : Nat) (allocated : Bool) (received : pos ≤ ctx.bulkInOffset) :
    StaysInside ctx pos (getPacketFromRxRing ctx pos allocated) ↔ CountFits ctx pos allocated := by
  rcases callCases ctx pos allocated with ⟨accepted,call⟩ | ⟨stopped,reads,call,inside⟩
  · rw [call]
    have valid : validLen ≤ ctx.bulkInOffset - pos := accepted.room
    have forty : validLen = 40 := rfl
    obtain ⟨positive,_,fits⟩ := lengthAccepted accepted.length
    have copied : (rxBlkOf ctx.transferBuffer pos).packet.length = thisFrameLen ctx.transferBuffer pos := loadLength
    have reads : ∀ r ∈ [(pos,2),(pos + 8,28),(pos + 8,thisFrameLen ctx.transferBuffer pos),
        (pos + 4 + thisFrameLen ctx.transferBuffer pos,4),(pos + 4,4)], r.1 + r.2 ≤ ctx.bulkInOffset := by
      intro r mem
      simp only [mem_cons,not_mem_nil,or_false] at mem
      rcases mem with rfl | rfl | rfl | rfl | rfl <;> simp only <;> omega
    constructor
    · intro stays _
      have whole := stays.2.2.2.2
      rw [copied] at whole
      exact whole
    · intro fitting
      refine ⟨reads,by simp only; omega,by simp only; omega,copied,?_⟩
      rw [copied]
      exact fitting accepted
  · rw [call]
    constructor
    · intro _ accepted
      exact absurd accepted stopped
    · intro _
      exact ⟨fun r mem => by have := inside r mem; omega,rfl⟩

def sampleBytes : List UInt8 :=
  [36,0,0,0] ++ replicate 4 0 ++ [1,0,8,0] ++ replicate 32 0 ++
    [36,0,0,0] ++ replicate 4 0 ++ [1,0,36,0] ++ replicate 32 0

def sampleContext : RxContext := ⟨true,false,fun i => sampleBytes.getD i 0,88⟩

theorem bulkInInsideFirst :
    Accepted sampleContext 0 true ∧ StaysInside sampleContext 0 (getPacketFromRxRing sampleContext 0 true) := by
  have fits : CountFits sampleContext 0 true := fun _ => by decide
  exact ⟨⟨⟨rfl,rfl⟩,by decide,by decide,by decide,rfl⟩,(bulkInInside sampleContext 0 true (by decide)).mpr fits⟩

theorem mpduBehindCopy :
    (getPacketFromRxRing sampleContext 44 true).packet.map
        (fun rx => (rx.packet.length,rx.header,rx.mpduTotalByteCnt)) = some (36,28,36) ∧
      ¬ StaysInside sampleContext 44 (getPacketFromRxRing sampleContext 44 true) := by
  refine ⟨by decide,fun stays => ?_⟩
  have inside : 28 + 36 ≤ 36 := stays.2.2.2.2
  omega

end RtmpDriver.BulkIn
