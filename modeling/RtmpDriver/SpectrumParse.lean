import RtmpDriver.ByteMemory
import RtmpDriver.CipherParse

/-! The five parsers of spectrum-management frames in `spectrum.c`. The frame is a memory from 0 on. `w` is the width of
an unsigned long: MsgLen is one, and what is taken off it is noted as well as every read. The length byte of an element
is noted once, where the guard of the loop reads it. -/
namespace RtmpDriver.SpectrumParse
open AccessLog ByteMemory ElementChain
open CipherParse (elementSize)

inductive Event where
  | less (length amount : Nat)
  | read (element : Option Nat) (span : Span)
  deriving DecidableEq, Repr

def Good (m : Nat → UInt8) (msgLen : Nat) (eid : UInt8) : Event → Prop
  | .less length amount => amount ≤ length
  | .read element span =>
    span.Within 0 msgLen ∧ ∀ p ∈ element, m p = eid → span.Within p (p + elementSize m p)

instance (m : Nat → UInt8) (msgLen : Nat) (eid : UInt8) : DecidablePred (Good m msgLen eid)
  | .less length amount => inferInstanceAs (Decidable (amount ≤ length))
  | .read none span => decidable_of_iff (span.Within 0 msgLen) (by simp [Good])
  | .read (some p) span => decidable_of_iff
      (span.Within 0 msgLen ∧ (m p = eid → span.Within p (p + elementSize m p))) (by simp [Good])

structure Case (ρ : Type) where
  eid : UInt8
  take : (Nat → UInt8) → Nat → ρ → Logged Span ρ
  octets : (Nat → UInt8) → Nat → Nat
  reads : ∀ m p info high, p + 2 ≤ high →
    (All (Span.Within p high) (take m p info) ↔ p + 2 + octets m p ≤ high)

structure Parsed (ρ : Type) where
  result : Bool
  dialogToken : UInt8
  info : ρ
  deriving DecidableEq, Repr

variable {w : Nat} {ρ : Type}

def lessen (msgLen : BitVec w) (amount : Nat) : Logged Event (BitVec w) := do
  note (.less msgLen.toNat amount)
  pure (msgLen - BitVec.ofNat w amount)

def onElement (c : Case ρ) (m : Nat → UInt8) (eidPtr : Nat) (s : Bool × ρ) : Logged Span (Bool × ρ) :=
  if m eidPtr = c.eid then do
    let info ← c.take m eidPtr s.2
    pure (true,info)
  else pure s

/- `none` if `fuel` turns are not enough. A case does not end the loop. -/
def elementLoop (c : Case ρ) (m : Nat → UInt8) (stop : Nat) : Nat → Nat → Bool × ρ → Logged Event (Option (Bool × ρ))
  | 0,_,_ => pure none
  | fuel + 1,eidPtr,s => do
    note (.read (some eidPtr) ⟨eidPtr + 1,1⟩)
    if eidPtr + (m (eidPtr + 1)).toNat + 1 < stop then do
      note (.read (some eidPtr) ⟨eidPtr,1⟩)
      let s ← relabel (Event.read (some eidPtr)) (onElement c m eidPtr s)
      elementLoop c m stop fuel (eidPtr + 2 + (m (eidPtr + 1)).toNat) s
    else pure (some s)

-- pFramePtr + MsgLen is computed with the length that is left, which may have wrapped
def fromFramePtr (c : Case ρ) (m : Nat → UInt8) (pFramePtr : Nat) (msgLen : BitVec w) (dialogToken : UInt8) (info : ρ) :
    Logged Event (Option (Parsed ρ)) := do
  let stop := (BitVec.ofNat w pFramePtr + msgLen).toNat
  let s ← elementLoop c m stop (stop + 1) pFramePtr (false,info)
  pure (s.map fun s => ⟨s.1,dialogToken,s.2⟩)

/- `given` says that the pointer the parser tests is not NULL, and `token` that a dialog token stands before the
elements. -/
def sanity (token : Bool) (c : Case ρ) (given : Bool) (m : Nat → UInt8) (msgLen : BitVec w) (dialogToken : UInt8)
    (info : ρ) : Logged Event (Option (Parsed ρ)) := do
  let msgLen ← lessen msgLen 24
  let msgLen ← lessen msgLen 2
  if given = false then pure (some ⟨false,dialogToken,info⟩)
  else if token = true then do
    note (.read none ⟨26,1⟩)
    let msgLen ← lessen msgLen 1
    fromFramePtr c m 27 msgLen (m 26) info
  else fromFramePtr c m 26 msgLen dialogToken info

section Cases

structure ChSwAnnInfo where
  chSwMode : UInt8
  channel : UInt8
  chSwCnt : UInt8
  deriving DecidableEq, Repr

def chSwAnnCase : Case ChSwAnnInfo where
  eid := 37
  take m p _ := do
    note ⟨p + 2,1⟩
    note ⟨p + 3,1⟩
    note ⟨p + 4,1⟩
    pure ⟨m (p + 2),m (p + 3),m (p + 4)⟩
  octets _ _ := 3
  reads m p _ high low := by
    simp only [allBind,allNote,allPure,and_true,Span.Within]
    omega

def peerChSwAnnSanity (given : Bool) (m : Nat → UInt8) (msgLen : BitVec w) (info : ChSwAnnInfo) :
    Logged Event (Option (Parsed ChSwAnnInfo)) := sanity false chSwAnnCase given m msgLen 0 info

structure MeasureReqInfo where
  token : UInt8
  reqMode : UInt8
  reqType : UInt8
  chNum : UInt8
  measureStartTime : List UInt8
  measureDuration : List UInt8
  deriving DecidableEq, Repr

def measureReqCase : Case MeasureReqInfo where
  eid := 38
  take m p _ := do
    note ⟨p + 2,1⟩
    note ⟨p + 3,1⟩
    note ⟨p + 4,1⟩
    note ⟨p + 5,1⟩
    note ⟨p + 6,8⟩
    note ⟨p + 14,2⟩
    pure ⟨m (p + 2),m (p + 3),m (p + 4),m (p + 5),(load m (p + 6) 8).reverse,(load m (p + 14) 2).reverse⟩
  octets _ _ := 14
  reads m p _ high low := by
    simp only [allBind,allNote,allPure,and_true,Span.Within]
    omega

def peerMeasureReqSanity (given : Bool) (m : Nat → UInt8) (msgLen : BitVec w) (dialogToken : UInt8)
    (info : MeasureReqInfo) : Logged Event (Option (Parsed MeasureReqInfo)) :=
  sanity true measureReqCase given m msgLen dialogToken info

/- With pReportBuf as bytes; the three report structures are packed and begin in the same way. -/
structure MeasureReportInfo where
  token : UInt8
  reportMode : UInt8
  reportType : UInt8
  reportBuf : List UInt8
  deriving DecidableEq, Repr

def rmBasic : UInt8 := 0
def rmCca : UInt8 := 1
def rmRpiHistogram : UInt8 := 2

def reportTail (reportType : UInt8) : Option Nat :=
  if reportType = rmBasic then some 1
  else if reportType = rmCca then some 1
  else if reportType = rmRpiHistogram then some 8
  else none

def moveReport (m : Nat → UInt8) (ptr : Nat) (buf : List UInt8) : Option Nat → Logged Span (List UInt8)
  | none => pure buf
  | some tail => do
    note ⟨ptr,1⟩
    note ⟨ptr + 1,8⟩
    note ⟨ptr + 9,2⟩
    note ⟨ptr + 11,tail⟩
    pure (load m ptr (11 + tail) ++ buf.drop (11 + tail))

def measureReportCase : Case MeasureReportInfo where
  eid := 39
  take m p info := do
    note ⟨p + 2,1⟩
    note ⟨p + 3,1⟩
    note ⟨p + 4,1⟩
    let buf ← moveReport m (p + 5) info.reportBuf (reportTail (m (p + 4)))
    pure ⟨m (p + 2),m (p + 3),m (p + 4),buf⟩
  octets m p := 3 + ((reportTail (m (p + 4))).map (11 + ·)).getD 0
  reads m p info high low := by
    simp only [allBind,allNote,allPure,and_true,Span.Within]
    cases reportTail (m (p + 4)) with
    | none =>
      simp only [moveReport,allPure,and_true,Option.map_none,Option.getD_none]
      omega
    | some tail =>
      simp only [moveReport,allBind,allNote,allPure,and_true,Span.Within,Option.map_some,Option.getD_some]
      omega

def peerMeasureReportSanity (given : Bool) (m : Nat → UInt8) (msgLen : BitVec w) (dialogToken : UInt8)
    (info : MeasureReportInfo) : Logged Event (Option (Parsed MeasureReportInfo)) :=
  sanity true measureReportCase given m msgLen dialogToken info

def tpcReqCase : Case Unit where
  eid := 34
  take _ _ info := pure info
  octets _ _ := 0
  reads m p info high low := by simp only [allPure,Nat.add_zero,low]

def peerTpcReqSanity (given : Bool) (m : Nat → UInt8) (msgLen : BitVec w) (dialogToken : UInt8) :
    Logged Event (Option (Parsed Unit)) := sanity true tpcReqCase given m msgLen dialogToken ()

structure TpcReportInfo where
  txPwr : UInt8
  linkMargin : UInt8
  deriving DecidableEq, Repr

def tpcRepCase : Case TpcReportInfo where
  eid := 35
  take m p _ := do
    note ⟨p + 2,1⟩
    note ⟨p + 3,1⟩
    pure ⟨m (p + 2),m (p + 3)⟩
  octets _ _ := 2
  reads m p _ high low := by
    simp only [allBind,allNote,allPure,and_true,Span.Within]
    omega

def peerTpcRepSanity (given : Bool) (m : Nat → UInt8) (msgLen : BitVec w) (dialogToken : UInt8)
    (info : TpcReportInfo) : Logged Event (Option (Parsed TpcReportInfo)) :=
  sanity true tpcRepCase given m msgLen dialogToken info

end Cases

def Fits (ok : Nat → Prop) (m : Nat → UInt8) (msgLen p : Nat) : Prop :=
  ∃ starts q, Chain (elementSize m) q p starts ∧ q + 2 ≤ msgLen ∧ msgLen < q + elementSize m q ∧
    ∀ eidPtr ∈ starts, ok eidPtr

variable {c : Case ρ} {m : Nat → UInt8} {ok : Nat → Prop} {stop p fuel : Nat}

def Case.InElement (c : Case ρ) (m : Nat → UInt8) (p : Nat) : Prop := m p = c.eid → c.octets m p ≤ (m (p + 1)).toNat

instance (c : Case ρ) (m : Nat → UInt8) : DecidablePred (c.InElement m) :=
  fun _ => inferInstanceAs (Decidable (_ → _))

theorem fitsTurn : Fits ok m stop p ↔ p + 2 ≤ stop ∧ (p + elementSize m p ≤ stop →
    ok p ∧ Fits ok m stop (p + elementSize m p)) := by
  constructor
  · rintro ⟨starts,q,chain,header,cut,each⟩
    cases chain with
    | done => exact ⟨header,fun whole => absurd cut (Nat.not_lt.mpr whole)⟩
    | @next _ rest tail =>
      have upTo := tail.le
      have two : 2 ≤ elementSize m p := Nat.le_add_left 2 _
      rw [List.forall_mem_cons] at each
      exact ⟨by omega,fun _ => ⟨each.1,rest,q,tail,header,cut,each.2⟩⟩
  · rintro ⟨header,later⟩
    rcases Nat.lt_or_ge stop (p + elementSize m p) with cut | whole
    · exact ⟨[],p,.done,header,cut,fun _ mem => absurd mem List.not_mem_nil⟩
    · obtain ⟨here,rest,q,tail,inside,cut,each⟩ := later whole
      exact ⟨p :: rest,q,.next tail,inside,cut,List.forall_mem_cons.mpr ⟨here,each⟩⟩

structure Tells (c : Case ρ) (m : Nat → UInt8) (stop : Nat) (condition : Event → Prop) (ok : Nat → Prop) : Prop where
  length : ∀ p, condition (.read (some p) ⟨p + 1,1⟩) ↔ p + 2 ≤ stop
  header : ∀ p, p + elementSize m p ≤ stop → condition (.read (some p) ⟨p,1⟩)
  element : ∀ p s, p + elementSize m p ≤ stop →
    (All (fun span => condition (.read (some p) span)) (onElement c m p s) ↔ ok p)

theorem loopAll {condition} (tells : Tells c m stop condition ok) (some : 0 < fuel) (enough : stop < p + fuel) (s) :
    All condition (elementLoop c m stop fuel p s) ↔ Fits ok m stop p := by
  induction fuel generalizing p s with
  | zero => exact absurd some (Nat.lt_irrefl 0)
  | succ fuel ih =>
    have size : p + 2 + (m (p + 1)).toNat = p + elementSize m p := by
      unfold elementSize
      omega
    have guard : p + (m (p + 1)).toNat + 1 < stop ↔ p + elementSize m p ≤ stop := by omega
    have two : 2 ≤ elementSize m p := Nat.le_add_left 2 _
    rw [fitsTurn,elementLoop]
    simp only [allBind,allNote,tells.length,guard,size]
    refine and_congr_right fun _ => ?_
    split
    next whole =>
      have rest := ih (p := p + elementSize m p) (by omega) (by omega) (onElement c m p s).value
      simp only [allBind,allNote,allRelabel,relabelValue,tells.header p whole,tells.element p s whole,rest,whole,
        true_and,true_imp_iff]
    next cut => simp only [allPure,cut,false_imp_iff]

theorem loopEnds (some : 0 < fuel) (enough : stop < p + fuel) (s) :
    (elementLoop c m stop fuel p s).value.isSome = true := by
  induction fuel generalizing p s with
  | zero => exact absurd some (Nat.lt_irrefl 0)
  | succ fuel ih =>
    rw [elementLoop]
    simp only [bindValue]
    split
    · exact ih (by omega) (by omega) _
    · rfl

theorem onElementAll {condition} (s) :
    All condition (onElement c m p s) ↔ (m p = c.eid → All condition (c.take m p s.2)) := by
  unfold onElement
  split
  next same => simp only [allBind,allPure,and_true,same,true_imp_iff]
  next other => simp only [allPure,other,false_imp_iff]

theorem goodTells (c : Case ρ) (m stop) : Tells c m stop (Good m stop c.eid) (c.InElement m) where
  length p := by
    simp only [Good,Option.mem_some_iff,forall_eq',Span.Within,elementSize]
    omega
  header p whole := by
    have two : 2 ≤ elementSize m p := Nat.le_add_left 2 _
    simp only [Good,Option.mem_some_iff,forall_eq',Span.Within]
    omega
  element p s whole := by
    rw [onElementAll]
    refine forall_congr' fun same => ?_
    have inside : ∀ span : Span, Good m stop c.eid (.read (some p) span) ↔ span.Within p (p + elementSize m p) := by
      intro span
      simp only [Good,Option.mem_some_iff,forall_eq',same,true_imp_iff,Span.Within]
      omega
    have size : p + 2 + c.octets m p ≤ p + elementSize m p ↔ c.octets m p ≤ (m (p + 1)).toNat := by
      unfold elementSize
      omega
    rw [allCongr inside,c.reads m p s.2 _ (by unfold elementSize; omega),size]

variable {msgLen : BitVec w}

theorem stopCancel (x start amount) :
    BitVec.ofNat w (start + amount) + (x - BitVec.ofNat w amount) = BitVec.ofNat w start + x := by
  rw [BitVec.ofNat_add,BitVec.add_assoc,BitVec.add_comm (BitVec.ofNat w amount),BitVec.sub_add_cancel]

theorem stopAfterHeader : BitVec.ofNat w 26 + (msgLen - BitVec.ofNat w 24 - BitVec.ofNat w 2) = msgLen := by
  rw [stopCancel _ 24 2,← Nat.zero_add 24,stopCancel _ 0 24,BitVec.zero_add]

theorem stopAfterToken :
    BitVec.ofNat w 27 + (msgLen - BitVec.ofNat w 24 - BitVec.ofNat w 2 - BitVec.ofNat w 1) = msgLen := by
  rw [stopCancel _ 26 1,stopAfterHeader]

theorem lessenToNat (long : 32 ≤ w) {amount} (small : amount < 4294967296) (enough : amount ≤ msgLen.toNat) :
    (msgLen - BitVec.ofNat w amount).toNat = msgLen.toNat - amount := by
  have wide : 4294967296 ≤ 2 ^ w := Nat.pow_le_pow_right (show 0 < 2 by decide) long
  have same : (BitVec.ofNat w amount).toNat = amount := Nat.mod_eq_of_lt (Nat.lt_of_lt_of_le small wide)
  rw [BitVec.toNat_sub_of_le (BitVec.le_def.mpr (same.symm ▸ enough)),same]

def InBounds {α : Type} (m : Nat → UInt8) (msgLen : Nat) (eid : UInt8) (t : Logged Event (Option α)) : Prop :=
  t.value.isSome = true ∧ All (Good m msgLen eid) t

instance {α : Type} (m : Nat → UInt8) (msgLen : Nat) (eid : UInt8) (t : Logged Event (Option α)) :
    Decidable (InBounds m msgLen eid t) := inferInstanceAs (Decidable (_ ∧ _))

theorem inBoundsNote {α : Type} {e eid} {t : Logged Event (Option α)} :
    InBounds m stop eid (note e >>= fun _ => t) ↔ Good m stop eid e ∧ InBounds m stop eid t := by
  unfold InBounds
  rw [bindValue,allBind,allNote]
  exact and_left_comm

theorem inBoundsLessen {α : Type} {amount eid} {f : BitVec w → Logged Event (Option α)} :
    InBounds m stop eid (lessen msgLen amount >>= f) ↔
      amount ≤ msgLen.toNat ∧ InBounds m stop eid (f (msgLen - BitVec.ofNat w amount)) := inBoundsNote

theorem fromFramePtrInBounds {left} (same : BitVec.ofNat w p + left = msgLen) (dialogToken info) :
    InBounds m msgLen.toNat c.eid (fromFramePtr c m p left dialogToken info) ↔
      Fits (c.InElement m) m msgLen.toNat p := by
  have enough : msgLen.toNat < p + (msgLen.toNat + 1) := by omega
  unfold InBounds fromFramePtr
  simp only [same,bindValue,pureValue,Option.isSome_map,allBind,allPure,and_true,
    loopEnds (Nat.succ_pos _) enough,loopAll (goodTells c m msgLen.toNat) (Nat.succ_pos _) enough,true_and]

theorem sanityInBounds (long : 32 ≤ w) (token given dialogToken info) :
    InBounds m msgLen.toNat c.eid (sanity token c given m msgLen dialogToken info) ↔
      if given = true then Fits (c.InElement m) m msgLen.toNat (if token = true then 27 else 26)
      else 26 ≤ msgLen.toNat := by
  have noWrap : (24 ≤ msgLen.toNat ∧ 2 ≤ (msgLen - BitVec.ofNat w 24).toNat) ↔ 26 ≤ msgLen.toNat := by
    constructor
    · rintro ⟨header,action⟩
      rw [lessenToNat long (by decide) header] at action
      omega
    · intro enough
      rw [lessenToNat long (by decide) (by omega)]
      omega
  rw [sanity,inBoundsLessen,inBoundsLessen,← and_assoc,noWrap]
  cases given with
  | false =>
    simp only [if_true,Bool.false_eq_true,if_false,InBounds,pureValue,Option.isSome_some,allPure,and_self,and_true]
  | true =>
    simp only [Bool.true_eq_false,if_true,if_false]
    cases token with
    | false =>
      simp only [Bool.false_eq_true,if_false,fromFramePtrInBounds stopAfterHeader]
      refine and_iff_right_of_imp fun fits => ?_
      have header := (fitsTurn.mp fits).1
      omega
    | true =>
      simp only [if_true,inBoundsNote,inBoundsLessen,fromFramePtrInBounds stopAfterToken]
      constructor
      · rintro ⟨_,_,_,fits⟩
        exact fits
      · intro fits
        have header : 29 ≤ msgLen.toNat := (fitsTurn.mp fits).1
        have inside : 26 + 1 ≤ msgLen.toNat := by omega
        have first : (msgLen - BitVec.ofNat w 24).toNat = msgLen.toNat - 24 := lessenToNat long (by decide) (by omega)
        have second : (msgLen - BitVec.ofNat w 24 - BitVec.ofNat w 2).toNat = (msgLen - BitVec.ofNat w 24).toNat - 2 :=
          lessenToNat long (by decide) (by omega)
        exact ⟨by omega,⟨⟨Nat.zero_le _,inside⟩,fun q mem => absurd mem (Option.not_mem_none q)⟩,by omega,fits⟩

theorem spectrumInBounds (long : 32 ≤ w) (m : Nat → UInt8) (msgLen : BitVec w) (given : Bool) (dialogToken : UInt8)
    (chSwAnn : ChSwAnnInfo) (measureReq : MeasureReqInfo) (measureReport : MeasureReportInfo) (tpcRep : TpcReportInfo) :
    (InBounds m msgLen.toNat 37 (peerChSwAnnSanity given m msgLen chSwAnn) ↔
      if given = true then Fits (chSwAnnCase.InElement m) m msgLen.toNat 26 else 26 ≤ msgLen.toNat) ∧
    (InBounds m msgLen.toNat 38 (peerMeasureReqSanity given m msgLen dialogToken measureReq) ↔
      if given = true then Fits (measureReqCase.InElement m) m msgLen.toNat 27 else 26 ≤ msgLen.toNat) ∧
    (InBounds m msgLen.toNat 39 (peerMeasureReportSanity given m msgLen dialogToken measureReport) ↔
      if given = true then Fits (measureReportCase.InElement m) m msgLen.toNat 27 else 26 ≤ msgLen.toNat) ∧
    (InBounds m msgLen.toNat 34 (peerTpcReqSanity given m msgLen dialogToken) ↔
      if given = true then Fits (tpcReqCase.InElement m) m msgLen.toNat 27 else 26 ≤ msgLen.toNat) ∧
    (InBounds m msgLen.toNat 35 (peerTpcRepSanity given m msgLen dialogToken tpcRep) ↔
      if given = true then Fits (tpcRepCase.InElement m) m msgLen.toNat 27 else 26 ≤ msgLen.toNat) :=
  ⟨sanityInBounds (c := chSwAnnCase) long false given 0 chSwAnn,
    sanityInBounds (c := measureReqCase) long true given dialogToken measureReq,
    sanityInBounds (c := measureReportCase) long true given dialogToken measureReport,
    sanityInBounds (c := tpcReqCase) long true given dialogToken (),
    sanityInBounds (c := tpcRepCase) long true given dialogToken tpcRep⟩

def frame (body : List UInt8) (i : Nat) : UInt8 := (List.replicate 24 0 ++ body).getD i 0

theorem spectrumInBoundsCut :
    InBounds (frame [0,4,37,3,0,11,1,62,1]) 33 37
      (peerChSwAnnSanity true (frame [0,4,37,3,0,11,1,62,1]) (33 : BitVec 64) ⟨0,0,0⟩) :=
  (spectrumInBounds (by decide : 32 ≤ 64) (frame [0,4,37,3,0,11,1,62,1]) 33 true 0 ⟨0,0,0⟩
    ⟨0,0,0,0,[],[]⟩ ⟨0,0,0,[]⟩ ⟨0,0⟩).1.mpr ⟨[26],31,.next .done,by decide,by decide,by decide⟩

theorem spectrumOutOfBounds :
    ¬ InBounds (frame [0,4,37,3,0,11,1]) 31 37
      (peerChSwAnnSanity true (frame [0,4,37,3,0,11,1]) (31 : BitVec 64) ⟨0,0,0⟩) ∧
    ¬ InBounds (frame [0]) 25 38 (peerMeasureReqSanity true (frame [0]) (25 : BitVec 64) 0 ⟨0,0,0,0,[],[]⟩) ∧
    ¬ InBounds (frame [0,1,7,39,3,1,0,2]) 32 39
      (peerMeasureReportSanity true (frame [0,1,7,39,3,1,0,2]) (32 : BitVec 64) 0 ⟨0,0,0,[]⟩) ∧
    ¬ InBounds (frame [0,2,7,34,0]) 29 34 (peerTpcReqSanity true (frame [0,2,7,34,0]) (29 : BitVec 64) 0) ∧
    ¬ InBounds (frame [0,3,7,35,0,62,1]) 31 35
      (peerTpcRepSanity true (frame [0,3,7,35,0,62,1]) (31 : BitVec 64) 0 ⟨0,0⟩) :=
  ⟨by decide +kernel,by decide +kernel,by decide +kernel,by decide +kernel,by decide +kernel⟩

end RtmpDriver.SpectrumParse
