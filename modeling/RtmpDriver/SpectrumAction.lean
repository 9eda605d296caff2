import RtmpDriver.RxFilter
import RtmpDriver.SpectrumParse

/-! PeerSpectrumAction, the handler of spectrum-management action frames, with DOT11N_DRAFT3. Addresses 1 to 3 stand
at 4, 10 and 16 of the frame. -/
namespace RtmpDriver.SpectrumAction
open AccessLog ByteMemory ElementChain SpectrumParse
open CipherParse (elementSize)
open RxFilter (maxLenOfMacTable)

structure SwitchCall where
  wcid : UInt8
  newChannel : UInt8
  secondary : UInt8
  deriving DecidableEq, Repr

structure Adapter where
  bIEEE80211H : Bool
  opModeSta : Bool
  bufferGiven : Bool
  deriving DecidableEq, Repr

variable {w : Nat}

def reading (start size : Nat) : Logged Event PUnit := note (.read none ⟨start,size⟩)

-- the locals of the handlers are not initialised; nothing is read of them
def peerMeasureReqAction (m : Nat → UInt8) (msgLen : BitVec w) : Logged Event PUnit := do
  let parsed ← peerMeasureReqSanity true m msgLen 0 ⟨0,0,0,0,[],[]⟩
  if parsed.any (·.result) then reading 10 6 else pure ⟨⟩

/- What follows on a report does not read the frame: NotifyChSwAnnToPeerAPs is empty. -/
def peerMeasureReportAction (ad : Adapter) (m : Nat → UInt8) (msgLen : BitVec w) : Logged Event PUnit :=
  if ad.bufferGiven = false then pure ⟨⟩
  else do
    let _ ← peerMeasureReportSanity true m msgLen 0 ⟨0,0,0,List.replicate 19 0⟩
    pure ⟨⟩

def peerTpcReqAction (m : Nat → UInt8) (msgLen : BitVec w) : Logged Event PUnit := do
  reading 26 1
  let parsed ← peerTpcReqSanity true m msgLen (m 26)
  if parsed.any (·.result) then reading 10 6 else pure ⟨⟩

def peerTpcRepAction (m : Nat → UInt8) (msgLen : BitVec w) : Logged Event PUnit := do
  let _ ← peerTpcRepSanity true m msgLen 0 ⟨0,0⟩
  pure ⟨⟩

def peerChSwAnnAction (ad : Adapter) (m : Nat → UInt8) (msgLen : BitVec w) : Logged Event PUnit := do
  let parsed ← peerChSwAnnSanity true m msgLen ⟨0,0,0⟩
  if parsed.any (·.result) ∧ ad.opModeSta = true then reading 16 6 else pure ⟨⟩

def secondaryOf (m : Nat → UInt8) (msgLen : BitVec w) : Logged Event UInt8 :=
  if msgLen.toNat = 24 + 2 + 3 + 1 then do
    reading 33 1
    pure (m 33)
  else pure 0

def switchCallOf (wcid : UInt8) (m : Nat → UInt8) (msgLen : BitVec w) : Logged Event (Option SwitchCall) := do
  reading 28 3
  let secondary ← secondaryOf m msgLen
  reading 26 1
  if m 26 = 37 then do
    reading 27 1
    pure (if m 27 = 3 then some ⟨wcid,m 29,secondary⟩ else none)
  else pure none

def specMrq : UInt8 := 0
def specMrp : UInt8 := 1
def specTpcrq : UInt8 := 2
def specTpcrp : UInt8 := 3
def specChannelSwitch : UInt8 := 4

def peerSpectrumAction (ad : Adapter) (wcid : UInt8) (m : Nat → UInt8) (msgLen : BitVec w) :
    Logged Event (Option SwitchCall) := do
  reading 25 1
  if ad.bIEEE80211H = false then pure none
  else if m 25 = specMrq then do
    peerMeasureReqAction m msgLen
    pure none
  else if m 25 = specMrp then do
    peerMeasureReportAction ad m msgLen
    pure none
  else if m 25 = specTpcrq then do
    peerTpcReqAction m msgLen
    pure none
  else if m 25 = specTpcrp then do
    peerTpcRepAction m msgLen
    pure none
  else if m 25 = specChannelSwitch then do
    let call ← switchCallOf wcid m msgLen
    peerChSwAnnAction ad m msgLen
    pure call
  else pure none

def Below (msgLen : Nat) : Event → Prop
  | .less _ _ => True
  | .read _ span => span.start + span.size ≤ msgLen

instance (msgLen : Nat) : DecidablePred (Below msgLen)
  | .less _ _ => .isTrue trivial
  | .read _ span => inferInstanceAs (Decidable (span.start + span.size ≤ msgLen))

@[simp] theorem belowLess {stop length amount} : Below stop (.less length amount) := trivial

@[simp] theorem belowRead {stop start size element} :
    Below stop (.read element ⟨start,size⟩) ↔ start + size ≤ stop := Iff.rfl

def InFrame {ρ : Type} (c : Case ρ) (m : Nat → UInt8) (msgLen p : Nat) : Prop :=
  m p = c.eid → p + 2 + c.octets m p ≤ msgLen

instance {ρ : Type} (c : Case ρ) (m : Nat → UInt8) (msgLen p : Nat) : Decidable (InFrame c m msgLen p) :=
  inferInstanceAs (Decidable (_ → _))

section Reads
variable {ρ : Type} {c : Case ρ} {m : Nat → UInt8} {msgLen : BitVec w} {stop p : Nat}

theorem takeBelow (header : p + 2 ≤ stop) (info) :
    All (fun span => Below stop (.read (some p) span)) (c.take m p info) ↔ p + 2 + c.octets m p ≤ stop := by
  have low := (c.reads m p info (p + 2 + c.octets m p) (Nat.le_add_right _ _)).mpr (Nat.le_refl _)
  rw [← c.reads m p info stop header]
  exact ⟨fun all span mem => ⟨(low span mem).1,all span mem⟩,fun all span mem => (all span mem).2⟩

theorem belowTells (c : Case ρ) (m) (stop : Nat) : Tells c m stop (Below stop) (InFrame c m stop) where
  length p := Iff.rfl
  header p whole := by
    unfold elementSize at whole
    show p + 1 ≤ stop
    omega
  element p s whole := by
    unfold elementSize at whole
    rw [onElementAll]
    exact forall_congr' fun _ => takeBelow (by omega) s.2

theorem fromFramePtrBelow {left} (same : BitVec.ofNat w p + left = msgLen) (dialogToken : UInt8)
    (info : ρ) : All (Below msgLen.toNat) (fromFramePtr c m p left dialogToken info) ↔
      Fits (InFrame c m msgLen.toNat) m msgLen.toNat p := by
  have enough : msgLen.toNat < p + (msgLen.toNat + 1) := by omega
  unfold fromFramePtr
  simp only [same,allBind,allPure,and_true,loopAll (belowTells c m msgLen.toNat) (Nat.succ_pos _) enough]

theorem plainBelow (c : Case ρ) (m) (msgLen : BitVec w) (dialogToken info) :
    All (Below msgLen.toNat) (sanity false c true m msgLen dialogToken info) ↔
      Fits (InFrame c m msgLen.toNat) m msgLen.toNat 26 := by
  unfold sanity lessen
  simp only [allBind,allNote,allPure,bindValue,pureValue,belowLess,Bool.true_eq_false,Bool.false_eq_true,if_false,
    true_and,fromFramePtrBelow stopAfterHeader]

theorem tokenBelow (c : Case ρ) (m) (msgLen : BitVec w) (dialogToken info) :
    All (Below msgLen.toNat) (sanity true c true m msgLen dialogToken info) ↔
      Fits (InFrame c m msgLen.toNat) m msgLen.toNat 27 := by
  unfold sanity lessen
  simp only [allBind,allNote,allPure,bindValue,pureValue,belowLess,belowRead,Bool.true_eq_false,if_false,if_true,
    true_and,fromFramePtrBelow stopAfterToken]
  refine and_iff_right_of_imp fun fits => ?_
  have header := (fitsTurn.mp fits).1
  omega

theorem readingBelow {start size} : All (Below stop) (reading start size) ↔ start + size ≤ stop := allNote

theorem thenReading {α : Type} {t : Logged Event α} {b} [DecidablePred b] {start size : Nat}
    (covered : All (Below stop) t → start + size ≤ stop) :
    All (Below stop) (t >>= fun a => if b a then reading start size else pure ⟨⟩) ↔ All (Below stop) t := by
  rw [allBind]
  refine and_iff_left_of_imp fun all => ?_
  split
  · exact readingBelow.mpr (covered all)
  · exact allPure _

theorem measureReqBelow : All (Below msgLen.toNat) (peerMeasureReqAction m msgLen) ↔
    Fits (InFrame measureReqCase m msgLen.toNat) m msgLen.toNat 27 := by
  have parser := tokenBelow measureReqCase m msgLen 0 ⟨0,0,0,0,[],[]⟩
  refine Iff.trans (thenReading fun all => ?_) parser
  have header := (fitsTurn.mp (parser.mp all)).1
  omega

theorem measureReportBelow (ad : Adapter) : All (Below msgLen.toNat) (peerMeasureReportAction ad m msgLen) ↔
    (ad.bufferGiven = true → Fits (InFrame measureReportCase m msgLen.toNat) m msgLen.toNat 27) := by
  unfold peerMeasureReportAction peerMeasureReportSanity
  split
  next none => simp only [allPure,none,Bool.false_eq_true,false_imp_iff]
  next given =>
    simp only [allBind,allPure,and_true,tokenBelow,Bool.not_eq_false _ ▸ given,true_imp_iff]

theorem tpcReqBelow : All (Below msgLen.toNat) (peerTpcReqAction m msgLen) ↔
    Fits (InFrame tpcReqCase m msgLen.toNat) m msgLen.toNat 27 := by
  have parser := tokenBelow tpcReqCase m msgLen (m 26) ()
  unfold peerTpcReqAction
  rw [allBind]
  refine (and_congr_right fun token => Iff.trans (thenReading fun _ => ?_) parser).trans
    (and_iff_right_of_imp fun fits => ?_)
  · have inside := readingBelow.mp token
    omega
  · have header := (fitsTurn.mp fits).1
    exact readingBelow.mpr (by omega)

theorem tpcRepBelow : All (Below msgLen.toNat) (peerTpcRepAction m msgLen) ↔
    Fits (InFrame tpcRepCase m msgLen.toNat) m msgLen.toNat 27 := by
  unfold peerTpcRepAction peerTpcRepSanity
  simp only [allBind,allPure,and_true,tokenBelow]

theorem chSwAnnBelow (ad) : All (Below msgLen.toNat) (peerChSwAnnAction ad m msgLen) ↔
    Fits (InFrame chSwAnnCase m msgLen.toNat) m msgLen.toNat 26 := by
  have parser := plainBelow chSwAnnCase m msgLen 0 ⟨0,0,0⟩
  refine Iff.trans (thenReading fun all => ?_) parser
  have header := (fitsTurn.mp (parser.mp all)).1
  omega

theorem switchCallBelow (wcid) : All (Below msgLen.toNat) (switchCallOf wcid m msgLen) ↔ 31 ≤ msgLen.toNat := by
  unfold switchCallOf secondaryOf
  simp only [allBind,readingBelow,allIte,allPure,implies_true,and_true]
  omega

def HandlerFits (ad : Adapter) (m : Nat → UInt8) (msgLen : Nat) : Prop :=
  if m 25 = specMrq then Fits (InFrame measureReqCase m msgLen) m msgLen 27
  else if m 25 = specMrp then ad.bufferGiven = true → Fits (InFrame measureReportCase m msgLen) m msgLen 27
  else if m 25 = specTpcrq then Fits (InFrame tpcReqCase m msgLen) m msgLen 27
  else if m 25 = specTpcrp then Fits (InFrame tpcRepCase m msgLen) m msgLen 27
  else if m 25 = specChannelSwitch then 31 ≤ msgLen ∧ Fits (InFrame chSwAnnCase m msgLen) m msgLen 26
  else True

theorem spectrumActionBelow (ad wcid) : All (Below msgLen.toNat) (peerSpectrumAction ad wcid m msgLen) ↔
      26 ≤ msgLen.toNat ∧ (ad.bIEEE80211H = true → HandlerFits ad m msgLen.toNat) := by
  unfold peerSpectrumAction HandlerFits
  rw [allBind,readingBelow]
  refine and_congr_right fun _ => ?_
  cases ad.bIEEE80211H with
  | false => simp only [if_true,allPure,Bool.false_eq_true,false_imp_iff]
  | true =>
    simp only [Bool.true_eq_false,if_false,true_imp_iff]
    by_cases mrq : m 25 = specMrq
    · simp only [if_pos mrq,allBind,allPure,and_true,measureReqBelow]
    by_cases mrp : m 25 = specMrp
    · simp only [if_neg mrq,if_pos mrp,allBind,allPure,and_true,measureReportBelow]
    by_cases tpcrq : m 25 = specTpcrq
    · simp only [if_neg mrq,if_neg mrp,if_pos tpcrq,allBind,allPure,and_true,tpcReqBelow]
    by_cases tpcrp : m 25 = specTpcrp
    · simp only [if_neg mrq,if_neg mrp,if_neg tpcrq,if_pos tpcrp,allBind,allPure,and_true,tpcRepBelow]
    simp only [if_neg mrq,if_neg mrp,if_neg tpcrq,if_neg tpcrp]
    split
    · simp only [allBind,allPure,and_true,switchCallBelow,chSwAnnBelow]
    · exact iff_of_true (allPure none) trivial

end Reads

structure ChannelSwitchFrame (m : Nat → UInt8) (msgLen : Nat) (channel : UInt8) (offset : Option UInt8) : Prop where
  category : m 24 = 0
  action : m 25 = specChannelSwitch
  announcement : m 26 = 37 ∧ m 27 = 3
  newChannel : m 29 = channel
  second : ∀ o ∈ offset, m 31 = 62 ∧ m 32 = 1 ∧ m 33 = o
  length : msgLen = if offset.isSome then 34 else 31

variable {ad : Adapter} {wcid channel : UInt8} {m : Nat → UInt8} {msgLen : BitVec w} {offset : Option UInt8}

theorem switchFrameCall (on : ad.bIEEE80211H = true) (wcid)
    (frame : ChannelSwitchFrame m msgLen.toNat channel offset) :
    (peerSpectrumAction ad wcid m msgLen).value = some ⟨wcid,channel,0⟩ := by
  have other : ¬ msgLen.toNat = 24 + 2 + 3 + 1 := by
    rw [frame.length]
    split <;> decide
  have call : (switchCallOf wcid m msgLen).value = some ⟨wcid,channel,0⟩ := by
    unfold switchCallOf secondaryOf
    simp only [if_neg other,bindValue,frame.announcement.1,frame.announcement.2,if_true,frame.newChannel,pureValue]
  unfold peerSpectrumAction
  rwa [bindValue,on,frame.action]

theorem spectrumActionDecodes (ad : Adapter) (on : ad.bIEEE80211H = true) (wcid : UInt8) (m : Nat → UInt8)
    (msgLen : BitVec w) :
    ((∀ channel offset, ChannelSwitchFrame m msgLen.toNat channel offset →
        (peerSpectrumAction ad wcid m msgLen).value = some ⟨wcid,channel,offset.getD 0⟩) ↔
      ∀ channel offset, ChannelSwitchFrame m msgLen.toNat channel (some offset) → offset = 0) ∧
    (All (Below msgLen.toNat) (peerSpectrumAction ad wcid m msgLen) ↔
      26 ≤ msgLen.toNat ∧ HandlerFits ad m msgLen.toNat) := by
  refine ⟨⟨fun decoded channel offset frame => ?_,fun none channel offset frame => ?_⟩,?_⟩
  · have equal := (switchFrameCall on wcid frame).symm.trans (decoded channel (some offset) frame)
    injection equal with equal
    injection equal with _ _ secondary
    exact secondary.symm
  · rw [switchFrameCall on wcid frame]
    cases offset with
    | none => rfl
    | some offset => rw [none channel offset frame,Option.getD_some]
  · rw [spectrumActionBelow,on]
    simp only [true_imp_iff]

def station : Adapter := ⟨true,true,true⟩

theorem switchFrameOf (offset) : ChannelSwitchFrame (frame [0,4,37,3,0,6,1,62,1,offset]) 34 6 (some offset) where
  category := rfl
  action := rfl
  announcement := ⟨rfl,rfl⟩
  newChannel := rfl
  second _ given := ⟨rfl,rfl,Option.some.inj given⟩
  length := rfl

theorem spectrumActionDecodesPlain :
    (peerSpectrumAction station 1 (frame [0,4,37,3,0,6,1,62,1,0]) (34 : BitVec 64)).value = some ⟨1,6,0⟩ ∧
      All (Below 36) (peerSpectrumAction station 1 (frame [0,4,37,3,0,6,1,62,1,0,127,8]) (36 : BitVec 64)) :=
  ⟨(spectrumActionDecodes station rfl 1 (frame [0,4,37,3,0,6,1,62,1,0]) (34 : BitVec 64)).1.mpr
      (fun _ offset frame => (frame.second offset rfl).2.2.symm) 6 (some 0) (switchFrameOf 0),
    (spectrumActionDecodes station rfl 1 (frame [0,4,37,3,0,6,1,62,1,0,127,8]) (36 : BitVec 64)).2.mpr
      ⟨by decide,by decide,[26,31],34,.next (.next .done),by decide,by decide,
        List.forall_mem_cons.mpr ⟨by decide,List.forall_mem_singleton.mpr (by decide)⟩⟩⟩

theorem spectrumActionLosesOffset :
    ChannelSwitchFrame (frame [0,4,37,3,0,6,1,62,1,1]) 34 6 (some 1) ∧
      (peerSpectrumAction station 1 (frame [0,4,37,3,0,6,1,62,1,1]) (34 : BitVec 64)).value ≠ some ⟨1,6,1⟩ ∧
      ¬ All (Below 34) (peerSpectrumAction station 1 (frame [0,4,37,3,0,6,1,62,1,1]) (34 : BitVec 64)) ∧
      ¬ All (Below 30) (switchCallOf 1 (frame [0,4,37,3,0,6]) (30 : BitVec 64)) :=
  ⟨switchFrameOf 1,by decide +kernel,by decide +kernel,by decide +kernel⟩

end RtmpDriver.SpectrumAction
