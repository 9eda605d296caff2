import RtmpDriver.ByteMemory
import RtmpDriver.ElementChain
import RtmpDriver.RsnSuites

/-! BssCipherParse. VarIEs is a memory from 0 on, and what stands behind VarIELen is whatever the entry held before.
Every read is noted with the element it is made for; that of the element's own length once, at the end of the turn. -/
namespace RtmpDriver.CipherParse
open AccessLog ByteMemory ElementChain RsnSuites

structure CipherSuite where
  groupCipher : WepStatus
  pairCipher : WepStatus
  pairCipherAux : WepStatus
  rsnCapability : Nat
  bMixMode : Bool
  deriving DecidableEq, Repr

def CipherSuite.initial : CipherSuite := ⟨.wepDisabled,.wepDisabled,.wepDisabled,0,false⟩

structure BssEntry where
  privacy : Bool
  bssAdhoc : Bool
  bSes : Bool
  wepStatus : WepStatus
  authMode : AuthMode
  authModeAux : AuthMode
  isSupportSha256KeyDerivation : Bool
  wpa : CipherSuite
  wpa2 : CipherSuite
  deriving DecidableEq, Repr

def sesOui : List UInt8 := [0x00,0x90,0x4c]
def wpaOui : List UInt8 := [0x00,0x50,0xf2,0x01]
def rsnOui : List UInt8 := [0x00,0x0f,0xac]

def groupCipherOf (type : UInt8) (otherwise : WepStatus) : WepStatus :=
  if type = 1 then .groupWep40Enabled
  else if type = 5 then .groupWep104Enabled
  else if type = 2 then .tkipEnable
  else if type = 4 then .aesEnable
  else otherwise

def pairCipherOf (type : UInt8) : WepStatus :=
  if type = 1 ∨ type = 5 then .wepEnabled
  else if type = 2 then .tkipEnable
  else if type = 4 then .aesEnable
  else .wepDisabled

def CipherSuite.addPair (s : CipherSuite) (tmpCipher : WepStatus) : CipherSuite :=
  if s.pairCipher.rank < tmpCipher.rank then { s with pairCipherAux := s.pairCipher, pairCipher := tmpCipher }
  else { s with pairCipherAux := tmpCipher }

def BssEntry.addAuthMode (bss : BssEntry) (mode : AuthMode) : BssEntry :=
  if bss.authMode = .openMode then { bss with authMode := mode } else { bss with authModeAux := mode }

def pairLoop (m : Nat → UInt8) : Nat → Nat → CipherSuite → Logged Span CipherSuite
  | 0,_,s => pure s
  | count + 1,pTmp,s => do
    note ⟨pTmp + 3,1⟩
    pairLoop m count (pTmp + 4) (s.addPair (pairCipherOf (m (pTmp + 3))))

def wpaAkm (type : UInt8) (bss : BssEntry) : BssEntry :=
  if type = 1 then bss.addAuthMode .wpa
  else if type = 2 then bss.addAuthMode .wpaPsk
  else bss

def CipherSuite.patchPairAux (s : CipherSuite) : CipherSuite :=
  if s.pairCipherAux = .wepDisabled then { s with pairCipherAux := s.groupCipher } else s

def finishWpa (bss : BssEntry) : BssEntry :=
  let bss := if bss.bssAdhoc then
      { bss with authMode := .wpaNone, authModeAux := .wpaNone, wepStatus := bss.wpa.groupCipher,
                 wpa := bss.wpa.patchPairAux }
    else { bss with wepStatus := bss.wpa.pairCipher }
  if bss.wpa.groupCipher ≠ bss.wpa.pairCipher then { bss with wpa.bMixMode := true } else bss

-- case IE_WPA; the number of AKM suites is read and not used
def wpaElement (m : Nat → UInt8) (pEid : Nat) (bss : BssEntry) : Logged Span BssEntry := do
  note ⟨pEid + 2,3⟩
  if load m (pEid + 2) 3 = sesOui ∧ m (pEid + 1) = 7 then pure { bss with bSes := true }
  else do
    note ⟨pEid + 2,4⟩
    if load m (pEid + 2) 4 ≠ wpaOui then pure bss
    else do
      note ⟨pEid + 11,1⟩
      let wpa := { bss.wpa with groupCipher := groupCipherOf (m (pEid + 11)) bss.wpa.groupCipher }
      note ⟨pEid + 12,2⟩
      let count := le16At m (pEid + 12)
      let wpa ← pairLoop m count (pEid + 14) wpa
      let pTmp := pEid + 14 + 4 * count
      note ⟨pTmp,2⟩
      note ⟨pTmp + 5,1⟩
      pure (finishWpa (wpaAkm (m (pTmp + 5)) { bss with wpa := wpa }))

/- `pmf` says that DOT11W_PMF_SUPPORT is defined. -/
def rsnAkm (pmf : Bool) (type : UInt8) (bss : BssEntry) : BssEntry :=
  if type = 0 then bss.addAuthMode .wpaNone
  else if type = 1 then bss.addAuthMode .wpa2
  else if type = 2 then bss.addAuthMode .wpa2Psk
  else if type = 6 ∧ pmf = true then { bss.addAuthMode .wpa2Psk with isSupportSha256KeyDerivation := true }
  else bss.addAuthMode .max

-- a foreign suite ends the loop and is not skipped
def akmLoop (pmf : Bool) (m : Nat → UInt8) : Nat → Nat → BssEntry → Logged Span (Nat × BssEntry)
  | 0,pTmp,bss => pure (pTmp,bss)
  | count + 1,pTmp,bss => do
    note ⟨pTmp,3⟩
    if load m pTmp 3 ≠ rsnOui then pure (pTmp,bss)
    else do
      note ⟨pTmp + 3,1⟩
      akmLoop pmf m count (pTmp + 4) (rsnAkm pmf (m (pTmp + 3)) bss)

def finishRsn (rsnCapability : Nat) (bss : BssEntry) : BssEntry :=
  let bss := if bss.bssAdhoc then
      let wpa := { bss.wpa with pairCipherAux := bss.wpa2.pairCipherAux, groupCipher := bss.wpa2.groupCipher }
      { bss with wepStatus := wpa.groupCipher, wpa := wpa.patchPairAux }
    else bss
  let bss := { bss with wepStatus := bss.wpa2.pairCipher, wpa2.rsnCapability := rsnCapability }
  if bss.wpa2.groupCipher ≠ bss.wpa2.pairCipher then { bss with wpa2.bMixMode := true } else bss

def rsnElement (pmf : Bool) (m : Nat → UInt8) (pEid : Nat) (bss : BssEntry) : Logged Span BssEntry := do
  note ⟨pEid + 2,2⟩
  if le16At m (pEid + 2) ≠ 1 then pure bss
  else do
    note ⟨pEid + 4,3⟩
    if load m (pEid + 4) 3 ≠ rsnOui then pure bss
    else do
      note ⟨pEid + 7,1⟩
      let wpa2 := { bss.wpa2 with groupCipher := groupCipherOf (m (pEid + 7)) bss.wpa2.groupCipher }
      note ⟨pEid + 8,2⟩
      let count := le16At m (pEid + 8)
      let wpa2 ← pairLoop m count (pEid + 10) wpa2
      let pTmp := pEid + 10 + 4 * count
      note ⟨pTmp,2⟩
      let (pTmp,bss) ← akmLoop pmf m (le16At m pTmp) (pTmp + 2) { bss with wpa2 := wpa2 }
      note ⟨pTmp,2⟩
      pure (finishRsn (le16At m pTmp) bss)

def parseElement (pmf : Bool) (m : Nat → UInt8) (pEid : Nat) (bss : BssEntry) : Logged Span BssEntry := do
  note ⟨pEid,1⟩
  let bss ← if m pEid = ieWpa then wpaElement m pEid bss
    else if m pEid = ieRsn then rsnElement pmf m pEid bss
    else pure bss
  note ⟨pEid + 1,1⟩
  pure bss

structure Access where
  element : Nat
  span : Span
  deriving DecidableEq, Repr

def parseLoop (pmf : Bool) (m : Nat → UInt8) (varIELen : Nat) : Nat → Int → BssEntry →
    Logged Access (Option BssEntry)
  | 0,length,bss => pure (if 0 < length then none else some bss)
  | fuel + 1,length,bss =>
    if 0 < length then do
      let pTmp := (varIELen - length).toNat
      let bss ← relabel (Access.mk pTmp) (parseElement pmf m pTmp bss)
      parseLoop pmf m varIELen fuel (length - ((m (pTmp + 1)).toNat + 2)) bss
    else pure (some bss)

def initBss (bss : BssEntry) : BssEntry :=
  { bss with wepStatus := if bss.privacy then .wepEnabled else .wepDisabled, authMode := .openMode,
             authModeAux := .openMode, isSupportSha256KeyDerivation := false, wpa := .initial, wpa2 := .initial }

-- each turn takes two off Length at least
def bssCipherParse (pmf : Bool) (m : Nat → UInt8) (varIELen : BitVec 16) (bss : BssEntry) :
    Logged Access (Option BssEntry) :=
  parseLoop pmf m varIELen.toNat varIELen.toNat varIELen.toNat (initBss bss)

def elementSize (m : Nat → UInt8) (pEid : Nat) : Nat := (m (pEid + 1)).toNat + 2

def Inside (m : Nat → UInt8) (varIELen : Nat) (a : Access) : Prop :=
  a.span.Within a.element (a.element + elementSize m a.element) ∧ a.span.Within 0 varIELen

def leadingAkms (m : Nat → UInt8) : Nat → Nat → Nat
  | 0,_ => 0
  | count + 1,pTmp => if load m pTmp 3 = rsnOui then leadingAkms m count (pTmp + 4) + 1 else 0

def WpaFits (m : Nat → UInt8) (pEid : Nat) : Prop :=
  load m (pEid + 2) 3 = sesOui ∧ m (pEid + 1) = 7 ∨
    4 ≤ (m (pEid + 1)).toNat ∧
      (load m (pEid + 2) 4 = wpaOui → 18 + 4 * le16At m (pEid + 12) ≤ (m (pEid + 1)).toNat)

def RsnFits (m : Nat → UInt8) (pEid : Nat) : Prop :=
  2 ≤ (m (pEid + 1)).toNat ∧ (le16At m (pEid + 2) = 1 → 5 ≤ (m (pEid + 1)).toNat ∧
    (load m (pEid + 4) 3 = rsnOui →
      let pTmp := pEid + 10 + 4 * le16At m (pEid + 8)
      let akms := leadingAkms m (le16At m pTmp) (pTmp + 2)
      12 + 4 * le16At m (pEid + 8) + 4 * akms + (if akms < le16At m pTmp then 1 else 0) ≤ (m (pEid + 1)).toNat))

def Fits (m : Nat → UInt8) (pEid : Nat) : Prop :=
  (m pEid = ieWpa → WpaFits m pEid) ∧ (m pEid = ieRsn → RsnFits m pEid)

section Element
variable {m : Nat → UInt8} {pEid pTmp high count : Nat} {s : CipherSuite} {bss : BssEntry} {pmf : Bool}

theorem pairReads (above : pEid ≤ pTmp) :
    All (Span.Within pEid high) (pairLoop m count pTmp s) ↔ (0 < count → pTmp + 4 * count ≤ high) := by
  induction count generalizing pTmp s with
  | zero => simp [pairLoop]
  | succ count ih =>
    simp only [pairLoop,allBind,allNote,ih (Nat.le_trans above (Nat.le_add_right pTmp 4)),Span.Within]
    omega

theorem leadingLe (m count pTmp) : leadingAkms m count pTmp ≤ count := by
  induction count generalizing pTmp with
  | zero => exact Nat.le_refl 0
  | succ count ih =>
    unfold leadingAkms
    split
    · exact Nat.succ_le_succ (ih (pTmp + 4))
    · exact Nat.zero_le _

theorem akmReads (above : pEid ≤ pTmp) :
    All (Span.Within pEid high) (akmLoop pmf m count pTmp bss) ↔
      (0 < count →
        pTmp + 4 * leadingAkms m count pTmp + (if leadingAkms m count pTmp < count then 3 else 0) ≤ high) := by
  induction count generalizing pTmp bss with
  | zero => simp [akmLoop]
  | succ count ih =>
    have next := Nat.le_trans above (Nat.le_add_right pTmp 4)
    simp only [akmLoop,leadingAkms,allBind,allNote]
    split
    next foreign =>
      simp only [allPure,and_true,Nat.zero_lt_succ,if_true,true_imp_iff,Span.Within]
      omega
    next same =>
      have equal := Decidable.not_not.mp same
      have most := leadingLe m count (pTmp + 4)
      simp only [if_pos equal,allBind,allNote,ih next,Span.Within,Nat.add_lt_add_iff_right]
      split
      · omega
      · omega

theorem akmCursor : (akmLoop pmf m count pTmp bss).value.1 = pTmp + 4 * leadingAkms m count pTmp := by
  induction count generalizing pTmp bss with
  | zero => rfl
  | succ count ih =>
    simp only [akmLoop,leadingAkms,bindValue]
    split
    next foreign => rfl
    next same =>
      rw [if_pos (Decidable.not_not.mp same),bindValue,ih]
      omega

theorem wpaReads : All (Span.Within pEid (pEid + elementSize m pEid)) (wpaElement m pEid bss) ↔ WpaFits m pEid := by
  have seven : (7 : UInt8).toNat = 7 := rfl
  simp only [wpaElement,WpaFits,elementSize,allBind,allNote,Span.Within]
  split
  next ses =>
    rw [ses.2]
    simp [ses]
  next vendor =>
    simp only [vendor,false_or,allBind,allNote,Span.Within]
    split
    next other =>
      simp only [other,false_imp_iff,allPure,and_true]
      omega
    next same =>
      have equal := Decidable.not_not.mp same
      simp only [allBind,allNote,Span.Within,equal,true_imp_iff,pairReads (Nat.le_add_right pEid 14),allPure,and_true]
      omega

theorem rsnReads : All (Span.Within pEid (pEid + elementSize m pEid)) (rsnElement pmf m pEid bss) ↔
    RsnFits m pEid := by
  simp only [rsnElement,RsnFits,elementSize,allBind,allNote,Span.Within]
  split
  next other =>
    simp only [other,false_imp_iff,allPure,and_true]
    omega
  next first =>
    have one := Decidable.not_not.mp first
    simp only [one,true_imp_iff,allBind,allNote,Span.Within]
    split
    next other =>
      simp only [other,false_imp_iff,allPure,and_true]
      omega
    next same =>
      have equal := Decidable.not_not.mp same
      have most := leadingLe m (le16At m (pEid + 10 + 4 * le16At m (pEid + 8)))
        (pEid + 10 + 4 * le16At m (pEid + 8) + 2)
      have above : pEid ≤ pEid + 10 + 4 * le16At m (pEid + 8) + 2 := by omega
      simp only [allBind,allNote,Span.Within,equal,true_imp_iff,pairReads (Nat.le_add_right pEid 10),
        akmReads above,akmCursor,allPure,and_true]
      split at *
      · omega
      · omega

theorem elementReads (pmf bss) :
    All (Span.Within pEid (pEid + elementSize m pEid)) (parseElement pmf m pEid bss) ↔ Fits m pEid := by
  have different : ¬ ieWpa = ieRsn := by decide
  have eid : Span.Within pEid (pEid + elementSize m pEid) ⟨pEid,1⟩ := by
    simp only [Span.Within,elementSize]
    omega
  have len : Span.Within pEid (pEid + elementSize m pEid) ⟨pEid + 1,1⟩ := by
    simp only [Span.Within,elementSize]
    omega
  simp only [parseElement,Fits,allBind,allNote,eid,true_and]
  split
  next wpa => simp only [wpa,different,allBind,allNote,allPure,wpaReads,len,and_true,true_imp_iff,false_imp_iff]
  next notWpa =>
    split
    next rsn =>
      simp only [rsn,Ne.symm different,allBind,allNote,allPure,rsnReads,len,and_true,true_and,true_imp_iff,
        false_imp_iff]
    next other => simp only [notWpa,other,allBind,allNote,allPure,len,and_true,false_imp_iff]

end Element

theorem loopTurn (pmf) {m varIELen p} (upTo : p + elementSize m p ≤ varIELen) (fuel bss) :
    parseLoop pmf m varIELen (fuel + 1) ((varIELen : Int) - p) bss =
      relabel (Access.mk p) (parseElement pmf m p bss) >>=
        parseLoop pmf m varIELen fuel ((varIELen : Int) - (p + elementSize m p : Nat)) := by
  have two : 2 ≤ elementSize m p := Nat.le_add_left 2 _
  have place : ((varIELen : Int) - ((varIELen : Int) - p)).toNat = p := by omega
  have length : (varIELen : Int) - p - ((m (p + 1)).toNat + 2) = varIELen - (p + elementSize m p : Nat) := by
    unfold elementSize
    omega
  rw [parseLoop,if_pos (by omega)]
  simp only [place,length]

theorem loopReads (pmf) {m varIELen p starts}
    (chain : Chain (elementSize m) varIELen p starts) {fuel} (enough : varIELen - p ≤ fuel) (bss) :
    All (Inside m varIELen) (parseLoop pmf m varIELen fuel ((varIELen : Int) - p) bss) ↔
      ∀ pEid ∈ starts, Fits m pEid := by
  induction chain generalizing fuel bss with
  | done =>
    rw [Int.sub_self]
    cases fuel <;> simp [parseLoop]
  | @next p rest tail ih =>
    have upTo := tail.le
    have two : 2 ≤ elementSize m p := Nat.le_add_left 2 _
    obtain ⟨fuel,rfl⟩ : ∃ k, fuel = k + 1 := ⟨fuel - 1,by omega⟩
    have here : All (fun span => Inside m varIELen ⟨p,span⟩) (parseElement pmf m p bss) ↔ Fits m p := by
      rw [← elementReads pmf bss]
      refine allCongr fun span => ⟨fun inside => inside.1,fun within => ⟨within,?_⟩⟩
      exact ⟨Nat.zero_le _,Nat.le_trans within.2 upTo⟩
    have later := ih (by omega : varIELen - (p + elementSize m p) ≤ fuel) (parseElement pmf m p bss).value
    rw [loopTurn pmf upTo]
    simp only [allBind,relabelValue,allRelabel,here,List.forall_mem_cons]
    exact and_congr_right fun _ => later

theorem loopEnds (pmf m varIELen) {fuel : Nat} {length : Int} (enough : length ≤ fuel)
    (bss) : (parseLoop pmf m varIELen fuel length bss).value.isSome = true := by
  induction fuel generalizing length bss with
  | zero =>
    rw [parseLoop,if_neg (by omega)]
    rfl
  | succ fuel ih =>
    rw [parseLoop]
    split
    · exact ih (by omega) _
    · rfl

theorem cipherParseInside (pmf : Bool) (m : Nat → UInt8) (varIELen : BitVec 16) (bss : BssEntry) (starts : List Nat)
    (wellFormed : Chain (elementSize m) varIELen.toNat 0 starts) :
    ((bssCipherParse pmf m varIELen bss).value.isSome = true ∧
        All (Inside m varIELen.toNat) (bssCipherParse pmf m varIELen bss)) ↔ ∀ pEid ∈ starts, Fits m pEid := by
  have reads := loopReads pmf wellFormed (Nat.le_of_eq (Nat.sub_zero _)) (initBss bss)
  rw [Int.natCast_zero,Int.sub_zero] at reads
  unfold bssCipherParse
  rw [reads]
  exact and_iff_right (loopEnds pmf m varIELen.toNat (Int.le_refl _) (initBss bss))

instance (m : Nat → UInt8) (varIELen : Nat) : DecidablePred (Inside m varIELen) := fun a =>
  inferInstanceAs (Decidable (a.span.Within a.element (a.element + elementSize m a.element) ∧
    a.span.Within 0 varIELen))

def varIEs (bytes : List UInt8) (i : Nat) : UInt8 := bytes.getD i 0

def emptyBss : BssEntry := ⟨true,false,false,.wepDisabled,.openMode,.openMode,false,.initial,.initial⟩

def wpa2Psk : List UInt8 :=
  [48,20,1,0,0x00,0x0f,0xac,4,1,0,0x00,0x0f,0xac,4,1,0,0x00,0x0f,0xac,2,0,0]

theorem cipherParseInsideWpa2 :
    (bssCipherParse false (varIEs wpa2Psk) 22 emptyBss).value.isSome = true ∧
      All (Inside (varIEs wpa2Psk) 22) (bssCipherParse false (varIEs wpa2Psk) 22 emptyBss) :=
  (cipherParseInside false (varIEs wpa2Psk) 22 emptyBss [0] (.next .done)).mpr (by
    rw [List.forall_mem_singleton]
    refine ⟨fun wpa => ?_,fun _ => ⟨?_,fun _ => ⟨?_,fun _ => ?_⟩⟩⟩
    · exact absurd wpa (by decide)
    all_goals decide)

theorem cipherParseOutside :
    (Chain (elementSize (varIEs (wpa2Psk.set 8 5))) 22 0 [0] ∧
      ¬ All (Inside (varIEs (wpa2Psk.set 8 5)) 22) (bssCipherParse false (varIEs (wpa2Psk.set 8 5)) 22 emptyBss)) ∧
    (Chain (elementSize (varIEs [221,0])) 2 0 [0] ∧
      ¬ All (Inside (varIEs [221,0]) 2) (bssCipherParse false (varIEs [221,0]) 2 emptyBss)) :=
  ⟨⟨.next .done,by decide⟩,⟨.next .done,by decide⟩⟩

end RtmpDriver.CipherParse
