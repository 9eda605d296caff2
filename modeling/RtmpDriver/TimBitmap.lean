import RtmpDriver.BeaconParse

/-! GetTimBit against the traffic indication map itself, of which the element carries the octets from octet N1 on. -/
namespace RtmpDriver.TimBitmap
open AccessLog BeaconParse

def timLen (m : Nat → UInt8) (ptr : Nat) : Nat := (m (ptr + 1)).toNat

def firstOctet (m : Nat → UInt8) (ptr : Nat) : Nat := (m (ptr + 4) &&& 0xfe).toNat

def virtualBitmap (m : Nat → UInt8) (ptr : Nat) (octet : Fin 251) : UInt8 :=
  if firstOctet m ptr ≤ octet ∧ octet ≤ firstOctet m ptr + (timLen m ptr - 4) then
    m (ptr + 5 + (octet - firstOctet m ptr))
  else 0

def Access.Within (low high : Nat) : Access → Prop
  | .read span => span.Within low high
  | .wscCopy _ => False

variable {m : Nat → UInt8} {ptr : Nat}

theorem firstOctetEven : firstOctet m ptr % 2 = 0 := by
  rw [firstOctet,UInt8.toNat_and,← Nat.and_one_is_mod,Nat.and_assoc]
  exact Nat.and_zero _

theorem timBitPlace (aid) (long : 4 ≤ timLen m ptr) (fits : firstOctet m ptr + (timLen m ptr - 4) ≤ 250) :
    ((timBit m ptr aid).inMap = true ↔
      firstOctet m ptr ≤ aid.toNat / 8 ∧ aid.toNat / 8 ≤ firstOctet m ptr + (timLen m ptr - 4)) ∧
    ((timBit m ptr aid).inMap = true →
      (timBit m ptr aid).myByte = aid.toNat / 8 - firstOctet m ptr ∧ (timBit m ptr aid).myBit = aid.toNat % 8) := by
  have even : firstOctet m ptr % 2 = 0 := firstOctetEven
  have last : (m (ptr + 1) - 4 + (m (ptr + 4) &&& 0xfe)).toNat = firstOctet m ptr + (timLen m ptr - 4) := by
    have four : (4 : UInt8) ≤ m (ptr + 1) := UInt8.le_iff_toNat_le.mpr long
    rw [UInt8.toNat_add,UInt8.toNat_sub_of_le _ _ four]
    change (timLen m ptr - 4 + firstOctet m ptr) % 256 = _
    omega
  have carried : (timBit m ptr aid).inMap = true ↔
      firstOctet m ptr ≤ aid.toNat / 8 ∧ aid.toNat / 8 ≤ firstOctet m ptr + (timLen m ptr - 4) := by
    simp only [timBit,Bool.not_eq_true',Bool.or_eq_false_iff,decide_eq_false_iff_not,last]
    change ¬ aid.toNat < firstOctet m ptr * 8 ∧ _ ↔ _
    omega
  refine ⟨carried,fun inMap => ?_⟩
  obtain ⟨low,high⟩ := carried.mp inMap
  have byte : (timBit m ptr aid).myByte = aid.toNat / 8 - firstOctet m ptr := by
    change (aid.toNat / 8 + 256 - firstOctet m ptr) % 256 = _
    omega
  refine ⟨byte,?_⟩
  change aid.toNat % 16 - (if (timBit m ptr aid).myByte % 2 = 1 then 8 else 0) = _
  rw [byte]
  split <;> omega

theorem timBitDecodes (m : Nat → UInt8) (ptr : Nat) (aid : BitVec 16) (ie : BcnIeList) (long : 4 ≤ timLen m ptr)
    (fits : firstOctet m ptr + (timLen m ptr - 4) ≤ 250) (known : aid.toNat ≤ 2007) :
    All (Access.Within ptr (ptr + 2 + timLen m ptr)) (getTimBit m ptr aid ie) ∧
      ((getTimBit m ptr aid ie).value.messageToMe = true ↔
        (virtualBitmap m ptr ⟨aid.toNat / 8,by omega⟩).toNat.testBit (aid.toNat % 8) = true) := by
  obtain ⟨carried,place⟩ := timBitPlace aid long fits
  unfold getTimBit virtualBitmap
  simp only [allBind,allNote,bindValue]
  have header : Access.Within ptr (ptr + 2 + timLen m ptr) (.read ⟨ptr + 1,4⟩) := ⟨by simp,by simp; omega⟩
  by_cases inMap : (timBit m ptr aid).inMap = true
  · obtain ⟨byte,bit⟩ := place inMap
    obtain ⟨low,high⟩ := carried.mp inMap
    have octet : Access.Within ptr (ptr + 2 + timLen m ptr)
        (.read ⟨ptr + 5 + (aid.toNat / 8 - firstOctet m ptr),1⟩) := by
      simp only [Access.Within,Span.Within]
      omega
    rw [if_pos inMap,if_pos ⟨low,high⟩]
    simp only [allBind,allNote,allPure,bindValue,pureValue,header,octet,true_and,byte,bit]
  · rw [if_neg inMap,if_neg (fun inside => inMap (carried.mpr inside))]
    simp [header]

theorem timBitDecodesWaiting :
    All (Access.Within 0 8) (getTimBit (fun i => [5,6,0,3,2,0,8,255].getD i 0) 0 27 default) ∧
      (getTimBit (fun i => [5,6,0,3,2,0,8,255].getD i 0) 0 27 default).value.messageToMe = true := by
  obtain ⟨inside,bit⟩ := timBitDecodes (fun i => [5,6,0,3,2,0,8,255].getD i 0) 0 27 default (by decide) (by decide)
    (by decide)
  exact ⟨inside,bit.mpr (by decide)⟩

end RtmpDriver.TimBitmap
