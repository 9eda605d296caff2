import Mathlib.Data.List.Basic
import RtmpDriver.SerialNumber

/-! The block pool and the singly linked lists of `ba_action.c`, and the sequence-number macros of `mlme.h`. A list is
the chain of blocks from its head, with the counter kept beside it; a block keeps its address in the pool. -/
namespace RtmpDriver.ReorderList
open List

def maxSeq : Nat := 0xFFF
def resetRcvSeq : Nat := 0xFFFF

instance sequenceNumbers : NeZero 4096 := ⟨by decide⟩

def cAnd (x : Int) (mask : Nat) : Nat := (BitVec.ofInt 32 x &&& BitVec.ofNat 32 mask).toNat

def seqStepOne (seq1 seq2 : Int) (limit : Nat) : Bool := seq1 == cAnd (seq2 + 1) limit
def seqSmaller (seq1 seq2 : Int) (limit : Nat) : Bool := cAnd (seq1 - seq2) ((limit + 1) >>> 1) != 0

theorem cAndMask (x) : cAnd x maxSeq = (x % 4096).toNat := by
  have mask : maxSeq % 2^32 = 2^12 - 1 := rfl
  simp only [cAnd,BitVec.toNat_and,BitVec.toNat_ofInt,BitVec.toNat_ofNat,mask,
    Nat.and_two_pow_sub_one_eq_mod]
  omega

theorem cAndHalf (x) : cAnd x 2048 ≠ 0 ↔ 2048 ≤ x % 4096 := by
  have half : BitVec.ofNat 32 2048 = BitVec.twoPow 32 11 := by decide
  have bit : (BitVec.ofInt 32 x).getLsbD 11 = decide (2048 ≤ x % 4096) := by
    rw [BitVec.getLsbD,BitVec.toNat_ofInt,Nat.testBit_eq_decide_div_mod_eq]
    congr 1
    rw [eq_iff_iff]
    omega
  simp only [cAnd,half,BitVec.and_twoPow,bit]
  by_cases h : 2048 ≤ x % 4096 <;> simp [h]

theorem seqStepOneIff (seq1 seq2) : seqStepOne seq1 seq2 maxSeq = true ↔ (seq1 : Int) = (seq2 + 1) % 4096 := by
  simp only [seqStepOne,cAndMask,beq_iff_eq]
  omega

theorem seqSmallerIff (seq1 seq2) : seqSmaller seq1 seq2 maxSeq = true ↔ 2048 ≤ (seq1 - seq2) % 4096 := by
  have half : (maxSeq + 1) >>> 1 = 2048 := rfl
  simp only [seqSmaller,half,bne_iff_ne]
  exact cAndHalf (seq1 - seq2)

structure Mpdu where
  addr : Nat
  packet : Nat
  sequence : Nat
  bAmsdu : Bool
  opMode : Nat
  deriving DecidableEq, Repr

structure ReorderingList where
  next : List Mpdu
  qlen : Nat
  deriving DecidableEq, Repr

def ReorderingList.empty : ReorderingList := ⟨[],0⟩
def ReorderingList.Counted (l : ReorderingList) : Prop := l.qlen = l.next.length
def ReorderingList.addrs (l : ReorderingList) : List Nat := l.next.map Mpdu.addr

instance (l : ReorderingList) : Decidable l.Counted := by
  unfold ReorderingList.Counted; infer_instance

/- The scan of `ba_reordering_mpdu_insertsorted`; `none` is its FALSE for a duplicate. -/
def insertScan (m : Mpdu) : List Mpdu → Option (List Mpdu)
  | [] => some [m]
  | x :: rest =>
    if seqSmaller x.sequence m.sequence maxSeq then (insertScan m rest).map (x :: ·)
    else if x.sequence = m.sequence then none
    else some (m :: x :: rest)

def baReorderingMpduInsertsorted (l : ReorderingList) (m : Mpdu) : Option ReorderingList :=
  (insertScan m l.next).map fun next => ⟨next,l.qlen + 1⟩

def baEnqueue (l : ReorderingList) (m : Mpdu) : ReorderingList := ⟨m :: l.next,l.qlen + 1⟩

def baDequeue (l : ReorderingList) : Option Mpdu × ReorderingList :=
  if l.qlen = 0 then (none,l)
  else match l.next with
    | [] => (none,⟨[],l.qlen - 1⟩)
    | m :: rest => (some m,⟨rest,l.qlen - 1⟩)

def baReorderingMpduProbe (l : ReorderingList) : Option Mpdu := l.next.head?

def zeroed (addr : Nat) : Mpdu := ⟨addr,0,0,false,0⟩

def baReorderingResourceInit (num : Nat) : ReorderingList :=
  (range num).foldl (fun l i => baEnqueue l (zeroed i)) .empty

theorem dequeueNone {l} (counted : l.Counted) (empty : l.next = []) : baDequeue l = (none,l) := by
  have zero : l.qlen = 0 := by rw [counted,empty]; rfl
  simp only [baDequeue,if_pos zero]

theorem dequeueSome {l m rest} (counted : l.Counted)
    (found : l.next = m :: rest) : baDequeue l = (some m,⟨rest,rest.length⟩) := by
  have qlen : l.qlen = rest.length + 1 := by rw [counted,found]; rfl
  simp [baDequeue,found,qlen]

theorem countedEnqueue {l} (counted : l.Counted) (m) : (baEnqueue l m).Counted := by
  simp only [ReorderingList.Counted,baEnqueue,length_cons] at *
  omega

theorem insertScanPerm {m scan next} (ok : insertScan m scan = some next) : next.Perm (m :: scan) := by
  induction scan generalizing next with
  | nil =>
    cases Option.some.inj ok
    exact Perm.refl _
  | cons x rest ih =>
    simp only [insertScan] at ok
    split at ok
    · obtain ⟨tail,ht,rfl⟩ := Option.map_eq_some_iff.mp ok
      exact ((ih ht).cons x).trans (Perm.swap m x rest)
    · split at ok
      · contradiction
      · cases Option.some.inj ok
        exact Perm.refl _

theorem insertedPerm {l l' m} (ok : baReorderingMpduInsertsorted l m = some l') : l'.next.Perm (m :: l.next) := by
  obtain ⟨next,hn,rfl⟩ := Option.map_eq_some_iff.mp ok
  exact insertScanPerm hn

theorem insertedCounted {l l' m} (counted : l.Counted)
    (ok : baReorderingMpduInsertsorted l m = some l') : l'.Counted := by
  obtain ⟨next,hn,rfl⟩ := Option.map_eq_some_iff.mp ok
  have length := (insertScanPerm hn).length_eq
  simp only [ReorderingList.Counted,length_cons] at *
  omega

theorem initFold (l : ReorderingList) (counted : l.Counted) (addrs : List Nat) :
    (addrs.foldl (fun l i => baEnqueue l (zeroed i)) l).Counted ∧
    (addrs.foldl (fun l i => baEnqueue l (zeroed i)) l).addrs = addrs.reverse ++ l.addrs := by
  induction addrs generalizing l with
  | nil => exact ⟨counted,rfl⟩
  | cons a rest ih =>
    obtain ⟨c,h⟩ := ih (baEnqueue l (zeroed a)) (countedEnqueue counted _)
    refine ⟨c,?_⟩
    simp only [foldl_cons,h,reverse_cons,append_assoc,singleton_append]
    rfl

theorem initCounted (num) : (baReorderingResourceInit num).Counted :=
  (initFold .empty rfl (range num)).1

theorem initAddrs (num) : (baReorderingResourceInit num).addrs = (range num).reverse := by
  rw [baReorderingResourceInit,(initFold .empty rfl (range num)).2]
  exact append_nil _

end RtmpDriver.ReorderList
