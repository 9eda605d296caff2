import RtmpDriver.AccessLog
import RtmpDriver.LlcSnap

/-! CmmRxRalinkFrameIndicate in station mode. The body begins with the size of the second MSDU in two bytes. Places are
counted from pData as the function finds it. -/
namespace RtmpDriver.RalinkAggregate
open EapolFrame WpaSupplicant RxFilter LlcSnap AccessLog

structure RxHeader where
  addr1 : Bytes
  addr2 : Bytes
  addr3 : Bytes
  behindHeader : Bytes
  wdsOrMesh : Bool
  infra : Bool
  dls : Bool
  deriving DecidableEq, Repr

def RxHeader.da (h : RxHeader) : Bytes := if h.wdsOrMesh then h.addr3 else h.addr1

def RxHeader.sa (h : RxHeader) : Bytes :=
  if h.wdsOrMesh then h.behindHeader else if h.infra ∧ ¬ h.dls then h.addr3 else h.addr2

def msdu2Size (data : Nat → UInt8) : BitVec 16 := (data 0).toBitVec.setWidth 16 + (data 1).toBitVec.setWidth 16 <<< 8

structure Indicated where
  header8023 : Bytes
  payload1Size : BitVec 16
  payload2Size : BitVec 16
  payload1 : Span
  header2 : Span
  payload2 : Span
  deriving DecidableEq, Repr

def converted (h : RxHeader) (data : Nat → UInt8) (dataSize : BitVec 16) : Converted :=
  convertTo8023 h.da h.sa (fun i => data (2 + i)) (dataSize - 2)

def payloadAt (c : Converted) : Nat := 2 + if c.removed then length8021H else 0

def indication (h : RxHeader) (data : Nat → UInt8) (dataSize : BitVec 16) : Indicated :=
  let c := converted h data dataSize
  let payload1Size := c.dataSize - msdu2Size data
  let payload2Size := msdu2Size data - BitVec.ofNat 16 length8023
  let pData2 := payloadAt c + payload1Size.toNat + length8023
  ⟨c.header8023,payload1Size,payload2Size,⟨payloadAt c,payload1Size.toNat⟩,
    ⟨pData2 - length8023,length8023⟩,⟨pData2,payload2Size.toNat⟩⟩

def Handled (data : Nat → UInt8) (dataSize : BitVec 16) : Prop := msdu2Size data ≤ 1536 ∧ msdu2Size data < dataSize

instance (data : Nat → UInt8) (dataSize : BitVec 16) : Decidable (Handled data dataSize) :=
  inferInstanceAs (Decidable (_ ∧ _))

def cmmRxRalinkFrameIndicate (duplicated : Bool) (h : RxHeader) (data : Nat → UInt8) (dataSize : BitVec 16) :
    Option Indicated :=
  if Handled data dataSize then
    if duplicated then some (indication h data dataSize) else none
  else none

def Apart (a b : Span) : Prop := a.start + a.size ≤ b.start ∨ b.start + b.size ≤ a.start

structure Bounded (c : Converted) (data : Nat → UInt8) (dataSize : BitVec 16) (i : Indicated) : Prop where
  payload1 : i.payload1.Within 0 dataSize.toNat
  header2 : i.header2.Within 0 dataSize.toNat
  payload2 : i.payload2.Within 0 dataSize.toNat
  apart : Apart i.payload1 i.header2 ∧ Apart i.payload1 i.payload2
  size1 : (i.payload1Size.toNat : Int) = dataSize.toNat - payloadAt c - (msdu2Size data).toNat
  size2 : (i.payload2Size.toNat : Int) = (msdu2Size data).toNat - length8023

def LongEnough (c : Converted) (data : Nat → UInt8) (dataSize : BitVec 16) : Prop :=
  length8023 ≤ (msdu2Size data).toNat ∧ payloadAt c + (msdu2Size data).toNat ≤ dataSize.toNat

def plainHeader : RxHeader := ⟨[],[],[],[],false,true,false⟩

def looseBody (k : Nat) : UInt8 := [20,0].getD k 0

def tightBody (k : Nat) : UInt8 := ([58,0] ++ snap8021H ++ [8,0]).getD k 0

variable {h : RxHeader} {data : Nat → UInt8} {dataSize : BitVec 16}

theorem convertedSize (long : payloadAt (converted h data dataSize) ≤ dataSize.toNat) :
    (converted h data dataSize).dataSize.toNat = dataSize.toNat - payloadAt (converted h data dataSize) := by
  revert long
  unfold payloadAt converted convertTo8023
  have small := dataSize.isLt
  have eight : length8021H = 8 := rfl
  split
  · split
    · intro long
      simp only [Bool.false_eq_true,if_false] at long ⊢
      bv_omega
    · intro long
      simp only [if_true,eight] at long ⊢
      bv_omega
  · intro long
    simp only [Bool.false_eq_true,if_false] at long ⊢
    bv_omega

theorem indicationBounded (long : LongEnough (converted h data dataSize) data dataSize) :
    Bounded (converted h data dataSize) data dataSize (indication h data dataSize) := by
  obtain ⟨header,inside⟩ := long
  have left := convertedSize (Nat.le_trans (Nat.le_add_right _ _) inside)
  unfold indication
  generalize converted h data dataSize = c at left inside ⊢
  have fourteen : length8023 = 14 := rfl
  have first : (c.dataSize - msdu2Size data).toNat = dataSize.toNat - payloadAt c - (msdu2Size data).toNat := by
    rw [BitVec.toNat_sub_of_le (BitVec.le_def.mpr (by omega)),left]
  have second : (msdu2Size data - BitVec.ofNat 16 length8023).toNat = (msdu2Size data).toNat - length8023 :=
    BitVec.toNat_sub_of_le (BitVec.le_def.mpr header)
  refine ⟨?_,?_,?_,⟨.inl ?_,.inl ?_⟩,?_,?_⟩
  all_goals
    simp only [Span.Within,first,second]
    omega

end RtmpDriver.RalinkAggregate
