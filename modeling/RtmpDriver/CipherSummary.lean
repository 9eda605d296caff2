import RtmpDriver.CipherParse
import RtmpDriver.TopTwo

/-! PairCipher and PairCipherAux as a summary of the pairwise suites that an element lists. -/
namespace RtmpDriver.CipherSummary
open AccessLog ByteMemory ElementChain RsnSuites CipherParse TopTwo List

inductive Kind where
  | wpa | rsn
  deriving DecidableEq, Repr

def Kind.summary (bss : BssEntry) : Kind → CipherSuite
  | .wpa => bss.wpa
  | .rsn => bss.wpa2

def Kind.Is (m : Nat → UInt8) (pEid : Nat) : Kind → Prop
  | .wpa => m pEid = ieWpa ∧ load m (pEid + 2) 4 = wpaOui
  | .rsn => m pEid = ieRsn ∧ le16At m (pEid + 2) = 1 ∧ load m (pEid + 4) 3 = rsnOui

instance (m : Nat → UInt8) (pEid : Nat) (k : Kind) : Decidable (k.Is m pEid) :=
  match k with
  | .wpa => inferInstanceAs (Decidable (_ ∧ _))
  | .rsn => inferInstanceAs (Decidable (_ ∧ _ ∧ _))

def Kind.countAt (pEid : Nat) : Kind → Nat
  | .wpa => pEid + 12
  | .rsn => pEid + 8

def suitesFrom (m : Nat → UInt8) (pTmp count : Nat) : List WepStatus :=
  (range count).map fun i => pairCipherOf (m (pTmp + 4 * i + 3))

def Kind.suites (m : Nat → UInt8) (pEid : Nat) (k : Kind) : List WepStatus :=
  suitesFrom m (k.countAt pEid + 2) (le16At m (k.countAt pEid))

def pairs (s : CipherSuite) : WepStatus × WepStatus := (s.pairCipher,s.pairCipherAux)

section Element
variable {m : Nat → UInt8} {pEid pTmp count : Nat} {s : CipherSuite} {pmf : Bool} {bss : BssEntry}

theorem addPairPairs (t) : pairs (s.addPair t) = step WepStatus.rank (pairs s) t := by
  unfold CipherSuite.addPair step
  split
  next more => exact (if_pos more).symm
  next less => exact (if_neg less).symm

theorem pairLoopPairs :
    pairs (pairLoop m count pTmp s).value = (suitesFrom m pTmp count).foldl (step WepStatus.rank) (pairs s) := by
  induction count generalizing pTmp s with
  | zero => rfl
  | succ count ih =>
    have later : suitesFrom m (pTmp + 4) count =
        ((range count).map Nat.succ).map fun i => pairCipherOf (m (pTmp + 4 * i + 3)) := by
      rw [suitesFrom,map_map]
      apply map_congr_left
      intro i _
      have place : pTmp + 4 + 4 * i + 3 = pTmp + 4 * i.succ + 3 := by omega
      rw [place]
      rfl
    rw [pairLoop,bindValue,ih,later,addPairPairs,suitesFrom,range_succ_eq_map]
    rfl

structure Same (before after : BssEntry) : Prop where
  adhoc : after.bssAdhoc = before.bssAdhoc
  wpa : pairs after.wpa = pairs before.wpa
  wpa2 : pairs after.wpa2 = pairs before.wpa2

theorem Same.refl : Same bss bss := ⟨rfl,rfl,rfl⟩

theorem Same.trans {a b c} (first : Same a b) (second : Same b c) : Same a c :=
  ⟨second.adhoc.trans first.adhoc,second.wpa.trans first.wpa,second.wpa2.trans first.wpa2⟩

theorem Same.summary {after} (same : Same bss after) (k : Kind) :
    pairs (k.summary after) = pairs (k.summary bss) := by
  cases k with
  | wpa => exact same.wpa
  | rsn => exact same.wpa2

theorem sameAuthMode (mode) : Same bss (bss.addAuthMode mode) := by
  unfold BssEntry.addAuthMode
  split <;> exact ⟨rfl,rfl,rfl⟩

theorem sameWpaAkm (type) : Same bss (wpaAkm type bss) := by
  unfold wpaAkm
  split
  · exact sameAuthMode _
  split
  · exact sameAuthMode _
  · exact Same.refl

theorem sameRsnAkm (type) : Same bss (rsnAkm pmf type bss) := by
  unfold rsnAkm
  split
  · exact sameAuthMode _
  split
  · exact sameAuthMode _
  split
  · exact sameAuthMode _
  split
  · have same : Same bss (bss.addAuthMode .wpa2Psk) := sameAuthMode _
    exact ⟨same.adhoc,same.wpa,same.wpa2⟩
  · exact sameAuthMode _

theorem sameAkmLoop : Same bss (akmLoop pmf m count pTmp bss).value.2 := by
  induction count generalizing pTmp bss with
  | zero => exact Same.refl
  | succ count ih =>
    unfold akmLoop
    rw [bindValue]
    split
    · exact Same.refl
    · exact (sameRsnAkm _).trans ih

theorem sameFinishWpa (infra : bss.bssAdhoc = false) : Same bss (finishWpa bss) := by
  simp only [finishWpa,infra,Bool.false_eq_true,if_false]
  split <;> exact ⟨infra.symm,rfl,rfl⟩

theorem sameFinishRsn (infra : bss.bssAdhoc = false) (capability) : Same bss (finishRsn capability bss) := by
  simp only [finishRsn,infra,Bool.false_eq_true,if_false]
  split <;> exact ⟨infra.symm,rfl,rfl⟩

variable (pmf bss)

theorem wpaElementIs (infra : bss.bssAdhoc = false) (is : load m (pEid + 2) 4 = wpaOui) :
    ∃ s, pairs s = (Kind.wpa.suites m pEid).foldl (step WepStatus.rank) (pairs bss.wpa) ∧
      Same { bss with wpa := s } (wpaElement m pEid bss).value := by
  have notSes : load m (pEid + 2) 3 ≠ sesOui := by
    intro ses
    have second := congrArg (·[1]?) ses
    have second' := congrArg (·[1]?) is
    simp [load,sesOui,wpaOui] at second second'
    rw [second] at second'
    exact absurd second' (by decide)
  unfold wpaElement
  rw [bindValue,if_neg (fun both => notSes both.1),bindValue,if_neg (not_not_intro is)]
  let group := { bss.wpa with groupCipher := groupCipherOf (m (pEid + 11)) bss.wpa.groupCipher }
  let looped := (pairLoop m (le16At m (pEid + 12)) (pEid + 14) group).value
  refine ⟨looped,pairLoopPairs (s := group),?_⟩
  let type := m (pEid + 14 + 4 * le16At m (pEid + 12) + 5)
  have akm : Same { bss with wpa := looped } (wpaAkm type { bss with wpa := looped }) := sameWpaAkm type
  exact akm.trans (sameFinishWpa (akm.adhoc.trans infra))

theorem wpaElementOther (not : load m (pEid + 2) 4 ≠ wpaOui) : Same bss (wpaElement m pEid bss).value := by
  unfold wpaElement
  rw [bindValue]
  split
  · exact ⟨rfl,rfl,rfl⟩
  · rw [bindValue]
    exact Same.refl

theorem rsnElementIs (infra : bss.bssAdhoc = false) (version : le16At m (pEid + 2) = 1)
    (oui : load m (pEid + 4) 3 = rsnOui) :
    ∃ s, pairs s = (Kind.rsn.suites m pEid).foldl (step WepStatus.rank) (pairs bss.wpa2) ∧
      Same { bss with wpa2 := s } (rsnElement pmf m pEid bss).value := by
  unfold rsnElement
  rw [bindValue,if_neg (not_not_intro version),bindValue,if_neg (not_not_intro oui)]
  let group := { bss.wpa2 with groupCipher := groupCipherOf (m (pEid + 7)) bss.wpa2.groupCipher }
  let looped := (pairLoop m (le16At m (pEid + 8)) (pEid + 10) group).value
  refine ⟨looped,pairLoopPairs (s := group),?_⟩
  let pTmp := pEid + 10 + 4 * le16At m (pEid + 8)
  have akm : Same { bss with wpa2 := looped }
      (akmLoop pmf m (le16At m pTmp) (pTmp + 2) { bss with wpa2 := looped }).value.2 := sameAkmLoop
  exact akm.trans (sameFinishRsn (akm.adhoc.trans infra) _)

theorem rsnElementOther (not : ¬ (le16At m (pEid + 2) = 1 ∧ load m (pEid + 4) 3 = rsnOui)) :
    Same bss (rsnElement pmf m pEid bss).value := by
  unfold rsnElement
  rw [bindValue]
  split
  · exact Same.refl
  next version =>
    rw [bindValue]
    split
    · exact Same.refl
    next oui => exact absurd ⟨not_not.mp version,not_not.mp oui⟩ not

theorem elementIs (infra : bss.bssAdhoc = false) (k : Kind) (is : k.Is m pEid) :
    (parseElement pmf m pEid bss).value.bssAdhoc = false ∧ pairs (k.summary (parseElement pmf m pEid bss).value) =
        (k.suites m pEid).foldl (step WepStatus.rank) (pairs (k.summary bss)) := by
  cases k with
  | wpa =>
    obtain ⟨s,folded,same⟩ := wpaElementIs bss infra is.2
    have turn : (parseElement pmf m pEid bss).value = (wpaElement m pEid bss).value := by
      simp only [parseElement,bindValue,if_pos is.1,pureValue]
    rw [turn]
    exact ⟨same.adhoc.trans infra,same.wpa.trans folded⟩
  | rsn =>
    obtain ⟨s,folded,same⟩ := rsnElementIs pmf bss infra is.2.1 is.2.2
    have other : ¬ m pEid = ieWpa := fun wpa => absurd (is.1.symm.trans wpa) (by decide)
    have turn : (parseElement pmf m pEid bss).value = (rsnElement pmf m pEid bss).value := by
      simp only [parseElement,bindValue,if_neg other,if_pos is.1,pureValue]
    rw [turn]
    exact ⟨same.adhoc.trans infra,same.wpa2.trans folded⟩

theorem elementOther (infra : bss.bssAdhoc = false) (k : Kind) (not : ¬ k.Is m pEid) :
    (parseElement pmf m pEid bss).value.bssAdhoc = false ∧
      pairs (k.summary (parseElement pmf m pEid bss).value) = pairs (k.summary bss) := by
  by_cases wpa : m pEid = ieWpa
  · have turn : (parseElement pmf m pEid bss).value = (wpaElement m pEid bss).value := by
      simp only [parseElement,bindValue,if_pos wpa,pureValue]
    rw [turn]
    by_cases oui : load m (pEid + 2) 4 = wpaOui
    · obtain ⟨s,_,same⟩ := wpaElementIs bss infra oui
      cases k with
      | wpa => exact absurd ⟨wpa,oui⟩ not
      | rsn => exact ⟨same.adhoc.trans infra,same.wpa2⟩
    · have same := wpaElementOther bss oui
      exact ⟨same.adhoc.trans infra,same.summary k⟩
  by_cases rsn : m pEid = ieRsn
  · have turn : (parseElement pmf m pEid bss).value = (rsnElement pmf m pEid bss).value := by
      simp only [parseElement,bindValue,if_neg wpa,if_pos rsn,pureValue]
    rw [turn]
    by_cases heads : le16At m (pEid + 2) = 1 ∧ load m (pEid + 4) 3 = rsnOui
    · obtain ⟨s,_,same⟩ := rsnElementIs pmf bss infra heads.1 heads.2
      cases k with
      | wpa => exact ⟨same.adhoc.trans infra,same.wpa⟩
      | rsn => exact absurd ⟨rsn,heads⟩ not
    · have same := rsnElementOther pmf bss heads
      exact ⟨same.adhoc.trans infra,same.summary k⟩
  · have turn : (parseElement pmf m pEid bss).value = bss := by
      simp only [parseElement,bindValue,if_neg wpa,if_neg rsn,pureValue]
    rw [turn]
    exact ⟨infra,rfl⟩

end Element

theorem loopSummary (pmf) {m varIELen p starts} (k : Kind)
    (chain : Chain (elementSize m) varIELen p starts) {fuel} (enough : varIELen - p ≤ fuel)
    {bss} (infra : bss.bssAdhoc = false) :
    ∃ out, (parseLoop pmf m varIELen fuel ((varIELen : Int) - p) bss).value = some out ∧
      pairs (k.summary out) = ((starts.filter fun q => k.Is m q).flatMap (fun q => k.suites m q)).foldl
        (step WepStatus.rank) (pairs (k.summary bss)) := by
  induction chain generalizing fuel bss with
  | done =>
    rw [Int.sub_self]
    exact ⟨bss,by cases fuel <;> simp [parseLoop],rfl⟩
  | @next p rest tail ih =>
    have upTo := tail.le
    have two : 2 ≤ elementSize m p := Nat.le_add_left 2 _
    obtain ⟨fuel,rfl⟩ : ∃ k, fuel = k + 1 := ⟨fuel - 1,by omega⟩
    rw [loopTurn pmf upTo,bindValue,relabelValue]
    by_cases is : k.Is m p
    · obtain ⟨infra',folded⟩ := elementIs pmf bss infra k is
      obtain ⟨out,ends,summary⟩ := ih (by omega : varIELen - (p + elementSize m p) ≤ fuel) infra'
      refine ⟨out,ends,?_⟩
      rw [summary,folded,filter_cons,if_pos (decide_eq_true is),flatMap_cons,foldl_append]
    · obtain ⟨infra',kept⟩ := elementOther pmf bss infra k is
      obtain ⟨out,ends,summary⟩ := ih (by omega : varIELen - (p + elementSize m p) ≤ fuel) infra'
      refine ⟨out,ends,?_⟩
      rw [summary,kept,filter_cons,if_neg (by simp [is])]

structure OneElement (k : Kind) (m : Nat → UInt8) (varIELen : BitVec 16) (bss : BssEntry) (pEid : Nat) : Prop where
  infra : bss.bssAdhoc = false
  elements : ∃ starts, Chain (elementSize m) varIELen.toNat 0 starts ∧ starts.filter (fun q => k.Is m q) = [pEid]

def TopTwoTaken (pmf : Bool) (k : Kind) (m : Nat → UInt8) (varIELen : BitVec 16) (bss : BssEntry) (pEid : Nat) : Prop :=
  ∃ out, (bssCipherParse pmf m varIELen bss).value = some out ∧
    IsTopTwo WepStatus.rank (k.suites m pEid ++ [.wepDisabled,.wepDisabled]) (k.summary out).pairCipher
      (k.summary out).pairCipherAux

theorem summaryFolded (pmf) {k m varIELen bss} {pEid} (one : OneElement k m varIELen bss pEid) :
    ∃ out, (bssCipherParse pmf m varIELen bss).value = some out ∧
      pairs (k.summary out) = (k.suites m pEid).foldl (step WepStatus.rank) (.wepDisabled,.wepDisabled) := by
  obtain ⟨starts,chain,only⟩ := one.elements
  have infra : (initBss bss).bssAdhoc = false := one.infra
  obtain ⟨out,ends,summary⟩ := loopSummary pmf k chain (Nat.le_of_eq (Nat.sub_zero _)) infra
  rw [Int.natCast_zero,Int.sub_zero] at ends
  have start : pairs (k.summary (initBss bss)) = (.wepDisabled,.wepDisabled) := by cases k <;> rfl
  rw [only,flatMap_singleton,start] at summary
  exact ⟨out,ends,summary⟩

theorem pairSummary (pmf : Bool) (k : Kind) (m : Nat → UInt8) (varIELen : BitVec 16) (bss : BssEntry) (pEid : Nat)
    (one : OneElement k m varIELen bss pEid) :
    TopTwoTaken pmf k m varIELen bss pEid ↔ LastIsSecond WepStatus.rank .wepDisabled (k.suites m pEid) := by
  obtain ⟨out,ends,summary⟩ := summaryFolded pmf one
  rw [← foldTopTwo,← summary]
  constructor
  · rintro ⟨out',ends',top⟩
    cases Option.some.inj (ends.symm.trans ends')
    exact top
  · intro top
    exact ⟨out,ends,top⟩

def rsnListing (types : List UInt8) : List UInt8 :=
  [48,UInt8.ofNat (16 + 4 * types.length),1,0,0x00,0x0f,0xac,2,UInt8.ofNat types.length,0] ++
    types.flatMap (fun type => [0x00,0x0f,0xac,type]) ++ [1,0,0x00,0x0f,0xac,2,0,0]

theorem pairSummaryMixed :
    TopTwoTaken false .rsn (varIEs (rsnListing [2,4])) 26 emptyBss 0 := by
  have chain : Chain (elementSize (varIEs (rsnListing [2,4]))) 26 0 [0] := .next .done
  have one : OneElement .rsn (varIEs (rsnListing [2,4])) 26 emptyBss 0 := ⟨rfl,[0],chain,by decide⟩
  exact (pairSummary false .rsn (varIEs (rsnListing [2,4])) 26 emptyBss 0 one).mpr (by decide)

theorem pairAuxForgotten :
    OneElement .rsn (varIEs (rsnListing [4,2,3])) 30 emptyBss 0 ∧
      ¬ TopTwoTaken false .rsn (varIEs (rsnListing [4,2,3])) 30 emptyBss 0 ∧
      (bssCipherParse false (varIEs (rsnListing [4,2,3])) 30 emptyBss).value.map (fun out => pairs out.wpa2) =
        some (.aesEnable,.wepDisabled) ∧
      (bssCipherParse false (varIEs (rsnListing [3,2,4])) 30 emptyBss).value.map (fun out => pairs out.wpa2) =
        some (.aesEnable,.tkipEnable) := by
  have chain : Chain (elementSize (varIEs (rsnListing [4,2,3]))) 30 0 [0] := .next .done
  have one : OneElement .rsn (varIEs (rsnListing [4,2,3])) 30 emptyBss 0 := ⟨rfl,[0],chain,by decide⟩
  refine ⟨one,fun taken => ?_,by decide,by decide⟩
  obtain ⟨out,ends,rest,perm,-,small⟩ := taken
  have summary : pairs out.wpa2 = (.aesEnable,.wepDisabled) := by
    have parsed : (bssCipherParse false (varIEs (rsnListing [4,2,3])) 30 emptyBss).value.map
        (fun out => pairs out.wpa2) = some (.aesEnable,.wepDisabled) := by decide
    rw [ends] at parsed
    exact Option.some.inj parsed
  have listed : WepStatus.tkipEnable ∈ Kind.rsn.suites (varIEs (rsnListing [4,2,3])) 0 := by decide
  have tkip := perm.mem_iff.mp (mem_append_left [.wepDisabled,.wepDisabled] listed)
  have first : (Kind.rsn.summary out).pairCipher = .aesEnable := congrArg Prod.fst summary
  have second : (Kind.rsn.summary out).pairCipherAux = .wepDisabled := congrArg Prod.snd summary
  rw [first,second] at tkip
  rw [second] at small
  have below := small .tkipEnable (by simpa using tkip)
  exact absurd below (by decide)

end RtmpDriver.CipherSummary
