import Mathlib.Data.Int.Order.Basic
import RtmpDriver.BssTable
import RtmpDriver.ExchangeSort
import RtmpDriver.VarIes

/-! BssTableSsidSort, which copies the entries of the scan table that the station may join, and BssTableSortByRssi, with
which it ends. The copies are noted by the index of the entry in the scan table. -/
namespace RtmpDriver.BssSelect
open AccessLog ArrayFront ByteMemory BssTable List
open BeaconParse (Bytes)
open RsnSuites (WepStatus AuthMode)
open CipherParse (CipherSuite)
open VarIes (wpaOrMore)

variable {w : Nat}

def goesFirst (isInverseOrder : Bool) (a b : BssEntry w) : Bool :=
  (if b.rssi.toInt < a.rssi.toInt then !isInverseOrder else isInverseOrder) && decide (a.rssi.toInt ≠ b.rssi.toInt)

def bssTableSortByRssi (allocated isInverseOrder : Bool) (tab : Table w) : Table w :=
  if allocated then { tab with bssEntry := ExchangeSort.sort (goesFirst isInverseOrder) tab.bssNr tab.bssEntry }
  else tab

def strength (isInverseOrder : Bool) (e : BssEntry w) : Int := if isInverseOrder then -e.rssi.toInt else e.rssi.toInt

theorem goesFirstIs (isInverseOrder) (a b : BssEntry w) :
    goesFirst isInverseOrder a b = true ↔ strength isInverseOrder b < strength isInverseOrder a := by
  unfold goesFirst strength
  rw [Bool.and_eq_true,decide_eq_true_eq]
  cases isInverseOrder
  · simp only [Bool.false_eq_true,if_false,Bool.not_false]
    split
    next more => simp only [true_and,more,iff_true]; omega
    next less => simp only [Bool.false_eq_true,false_and,less]
  · simp only [if_true,Bool.not_true]
    split
    next more => simp only [Bool.false_eq_true,false_and,false_iff]; omega
    next less => simp only [true_and]; omega

theorem rssiSorted (isInverseOrder : Bool) (tab : Table w) :
    (front (bssTableSortByRssi true isInverseOrder tab).bssEntry tab.bssNr).Perm (front tab.bssEntry tab.bssNr) ∧
      (front (bssTableSortByRssi true isInverseOrder tab).bssEntry tab.bssNr).Pairwise fun a b =>
        if isInverseOrder then a.rssi.toInt ≤ b.rssi.toInt else b.rssi.toInt ≤ a.rssi.toInt := by
  obtain ⟨perm,ordered⟩ := ExchangeSort.sortSorts (goesFirstIs isInverseOrder) tab.bssNr tab.bssEntry
  refine ⟨perm,ordered.imp fun {a b} le => ?_⟩
  cases isInverseOrder
  · exact le
  · exact Int.neg_le_neg_iff.mp le

/- What is read of the adapter. A channel of the list comes with its DfsReq. -/
structure Station where
  bssType : BssType
  authMode : AuthMode
  wepStatus : WepStatus
  bAutoConnectIfNoSsid : Bool
  bIEEE80211H : Bool
  mlmeAuxChannel : UInt8
  channelList : List (UInt8 × Bool)
  wpaSupplicantUP : UInt8
  ieee80211dStrict : Bool
  phyMode : UInt8

def wmodeG : UInt8 := 4
def wmodeGN : UInt8 := 8
def wmodeAN : UInt8 := 16
def wmodeAC : UInt8 := 32

def radarChannelCheck (channelList : List (UInt8 × Bool)) (ch : UInt8) : Bool :=
  match channelList.find? fun c => c.1 = ch with
  | some c => c.2
  | none => false

def htOnly (phyMode : UInt8) : Prop := phyMode &&& ~~~(wmodeGN ||| wmodeAN ||| wmodeAC) = 0

instance (phyMode : UInt8) : Decidable (htOnly phyMode) := inferInstanceAs (Decidable (_ = _))

def ssidEqual (ssid : Bytes) (e : BssEntry w) : Prop :=
  ssid.length = e.ssidLen.toNat ∧ load e.ssid 0 ssid.length = ssid

def hiddenIncluded (st : Station) (e : BssEntry w) : Prop :=
  st.bIEEE80211H = true ∧ 14 < st.mlmeAuxChannel ∧ radarChannelCheck st.channelList e.channel = true ∧ e.hidden = true

def Named (st : Station) (ssid : Bytes) (e : BssEntry w) : Prop :=
  e.bssType = st.bssType ∧ (ssidEqual ssid e ∨ hiddenIncluded st e)

def TakesAll (st : Station) : Prop := st.wpaSupplicantUP &&& 0x80 ≠ 0

def countryRefused (st : Station) (e : BssEntry w) : Prop := st.ieee80211dStrict = true ∧ e.bHasCountryIE = false

def phyRefused (st : Station) (e : BssEntry w) : Prop :=
  e.htCapabilityLen = 0 ∧ htOnly st.phyMode ∨
    st.phyMode = wmodeG ||| wmodeGN ∧ e.supRateLen.toNat + e.extRateLen.toNat < 12

def authRefused (st : Station) (e : BssEntry w) : Prop :=
  st.authMode ≠ e.security.authMode ∧ st.authMode ≠ e.security.authModeAux

def unmixedRefused (st : Station) (s : CipherSuite) : Prop := s.bMixMode = false ∧ st.wepStatus ≠ s.groupCipher

def wepGroup (c : WepStatus) : Prop := c = .groupWep40Enabled ∨ c = .groupWep104Enabled

def pairRefused (st : Station) (s : CipherSuite) : Prop :=
  st.wepStatus = .tkipEnable ∧ st.wepStatus ≠ s.pairCipher ∧ st.wepStatus ≠ s.pairCipherAux

def isWpa (st : Station) : Prop := st.authMode = .wpa ∨ st.authMode = .wpaPsk

def isWpa2 (st : Station) : Prop := st.authMode = .wpa2 ∨ st.authMode = .wpa2Psk

instance (ssid : Bytes) (e : BssEntry w) : Decidable (ssidEqual ssid e) := inferInstanceAs (Decidable (_ ∧ _))

instance (st : Station) (e : BssEntry w) : Decidable (hiddenIncluded st e) :=
  inferInstanceAs (Decidable (_ ∧ _ ∧ _ ∧ _))

instance (st : Station) (ssid : Bytes) (e : BssEntry w) : Decidable (Named st ssid e) :=
  inferInstanceAs (Decidable (_ ∧ (_ ∨ _)))

instance (st : Station) : Decidable (TakesAll st) := inferInstanceAs (Decidable (_ ≠ _))

instance (st : Station) (e : BssEntry w) : Decidable (countryRefused st e) := inferInstanceAs (Decidable (_ ∧ _))

instance (st : Station) (e : BssEntry w) : Decidable (phyRefused st e) := inferInstanceAs (Decidable (_ ∧ _ ∨ _ ∧ _))

instance (st : Station) (e : BssEntry w) : Decidable (authRefused st e) := inferInstanceAs (Decidable (_ ∧ _))

instance (st : Station) (s : CipherSuite) : Decidable (unmixedRefused st s) := inferInstanceAs (Decidable (_ ∧ _))

instance (c : WepStatus) : Decidable (wepGroup c) := inferInstanceAs (Decidable (_ ∨ _))

instance (st : Station) (s : CipherSuite) : Decidable (pairRefused st s) := inferInstanceAs (Decidable (_ ∧ _ ∧ _))

instance (st : Station) : Decidable (isWpa st) := inferInstanceAs (Decidable (_ ∨ _))

instance (st : Station) : Decidable (isWpa2 st) := inferInstanceAs (Decidable (_ ∨ _))

def suiteRefused (st : Station) (groupWpa groupWpa2 : Prop) (e : BssEntry w) : Prop :=
  authRefused st e ∨
    if isWpa st then unmixedRefused st e.security.wpa ∨ groupWpa ∨ pairRefused st e.security.wpa
    else if isWpa2 st then unmixedRefused st e.security.wpa2 ∨ groupWpa2 ∨ pairRefused st e.security.wpa2
    else False

instance (st : Station) (groupWpa groupWpa2 : Prop) [Decidable groupWpa] [Decidable groupWpa2] (e : BssEntry w) :
    Decidable (suiteRefused st groupWpa groupWpa2 e) := inferInstanceAs (Decidable (_ ∨ ite _ _ _))

-- the check for WPA2 compares with the group cipher of WPA
def namedGroupWpa2 (st : Station) (e : BssEntry w) : Prop :=
  st.wepStatus.rank < e.security.wpa.groupCipher.rank ∧ ¬ wepGroup e.security.wpa2.groupCipher

def namedGroupWpa (st : Station) (e : BssEntry w) : Prop :=
  st.wepStatus.rank < e.security.wpa.groupCipher.rank ∧ ¬ wepGroup e.security.wpa.groupCipher

instance (st : Station) (e : BssEntry w) : Decidable (namedGroupWpa2 st e) := inferInstanceAs (Decidable (_ ∧ _))

instance (st : Station) (e : BssEntry w) : Decidable (namedGroupWpa st e) := inferInstanceAs (Decidable (_ ∧ _))

def namedSecurityRefused (st : Station) (e : BssEntry w) : Prop :=
  if wpaOrMore st.authMode then suiteRefused st (namedGroupWpa st e) (namedGroupWpa2 st e) e
  else st.wepStatus ≠ e.security.wepStatus ∧ e.security.bSes = false

def anySecurityRefused (st : Station) (e : BssEntry w) : Prop :=
  if wpaOrMore st.authMode then
    suiteRefused st (st.wepStatus.rank < e.security.wpa.groupCipher.rank)
      (st.wepStatus.rank < e.security.wpa2.groupCipher.rank) e
  else st.wepStatus ≠ e.security.wepStatus

instance (st : Station) (e : BssEntry w) : Decidable (namedSecurityRefused st e) :=
  inferInstanceAs (Decidable (ite _ _ _))

instance (st : Station) (e : BssEntry w) : Decidable (anySecurityRefused st e) :=
  inferInstanceAs (Decidable (ite _ _ _))

structure Turn where
  copies : Bool
  checks : Bool
  deriving DecidableEq, Repr

def turn (st : Station) (ssid : Bytes) (e : BssEntry w) : Turn :=
  if Named st ssid e then
    if TakesAll st then ⟨true,false⟩
    else if countryRefused st e ∨ phyRefused st e ∨ namedSecurityRefused st e ∨ ssid = [] then ⟨false,false⟩
    else ⟨true,true⟩
  else if e.bssType = st.bssType ∧ ssid = [] then
    if phyRefused st e ∨ anySecurityRefused st e then ⟨false,false⟩ else ⟨true,true⟩
  else ⟨false,true⟩

def Table.add (out : Table w) (e : BssEntry w) : Table w := { out.put out.bssNr e with bssNr := out.bssNr + 1 }

def copyLoop (st : Station) (ssid : Bytes) (scan : Table w) : Nat → Nat → Table w → Logged Nat (Table w)
  | 0,_,out => pure out
  | count + 1,i,out => do
    let t := turn st ssid (scan.bssEntry i)
    let out ← if t.copies then do
        note i
        pure (Table.add out (scan.bssEntry i))
      else pure out
    if t.checks ∧ maxLenOfBssTable ≤ out.bssNr then pure out else copyLoop st ssid scan count (i + 1) out

def bssTableSsidSort (st : Station) (allocated : Bool) (ssid : Bytes) (scan : Table w) (out : Store w) :
    Logged Nat (Store w) :=
  let out := bssTableInit out
  if ssid = [] ∧ st.bAutoConnectIfNoSsid = false then pure out
  else do
    let tab ← copyLoop st ssid scan scan.bssNr 0 out.tab
    pure { out with tab := bssTableSortByRssi allocated false tab }

section Copied
variable {st : Station} {ssid : Bytes} {scan : Table w} {out : Store w} {allocated : Bool} {e : BssEntry w} {i : Nat}

theorem copyLoopLog {tab count} (room : tab.bssNr + count ≤ maxLenOfBssTable) :
    (copyLoop st ssid scan count i tab).log =
      (range' i count).filter fun k => (turn st ssid (scan.bssEntry k)).copies := by
  induction count generalizing i tab with
  | zero => rfl
  | succ count ih =>
    have rest : ∀ (t : Turn) (next : Table w), next.bssNr + count ≤ maxLenOfBssTable →
        (if t.checks ∧ maxLenOfBssTable ≤ next.bssNr then pure next
          else copyLoop st ssid scan count (i + 1) next).log =
          (range' (i + 1) count).filter fun k => (turn st ssid (scan.bssEntry k)).copies := by
      intro t next fits
      split
      next full =>
        have done : count = 0 := by omega
        rw [done]
        rfl
      next => exact ih fits
    rw [range'_succ,filter_cons,copyLoop]
    by_cases copies : (turn st ssid (scan.bssEntry i)).copies = true
    · simp only [copies,if_true]
      exact congrArg (i :: ·) (rest _ (Table.add tab (scan.bssEntry i)) (by simp only [Table.add]; omega))
    · simp only [copies]
      exact rest _ tab (by omega)

theorem memCopied (size : scan.bssNr ≤ maxLenOfBssTable) (fixed : ssid ≠ []) :
    i ∈ (bssTableSsidSort st allocated ssid scan out).log ↔
      i < scan.bssNr ∧ (turn st ssid (scan.bssEntry i)).copies = true := by
  have log : (bssTableSsidSort st allocated ssid scan out).log =
      (copyLoop st ssid scan scan.bssNr 0 (bssTableInit out).tab).log := by
    unfold bssTableSsidSort
    rw [if_neg fun both => fixed both.1]
    exact append_nil _
  rw [log,copyLoopLog (by rw [initNone,Nat.zero_add]; exact size)]
  simp

def OtherTests (st : Station) (ssid : Bytes) (e : BssEntry w) : Prop :=
  Named st ssid e ∧ (TakesAll st ∨
    ¬ countryRefused st e ∧ ¬ phyRefused st e ∧ ¬ authRefused st e ∧ ¬ unmixedRefused st e.security.wpa2 ∧
      ¬ pairRefused st e.security.wpa2)

theorem copiesIff (wpa2 : isWpa2 st) (fixed : ssid ≠ []) :
    (turn st ssid e).copies = true ↔ OtherTests st ssid e ∧ (TakesAll st ∨ ¬ namedGroupWpa2 st e) := by
  have more : wpaOrMore st.authMode := by
    rcases wpa2 with mode | mode <;> rw [mode] <;> decide
  have notWpa : ¬ isWpa st := by
    rintro (mode | mode) <;> rcases wpa2 with mode' | mode' <;> cases mode.symm.trans mode'
  have security : namedSecurityRefused st e ↔ authRefused st e ∨ unmixedRefused st e.security.wpa2 ∨
      namedGroupWpa2 st e ∨ pairRefused st e.security.wpa2 := by
    unfold namedSecurityRefused suiteRefused
    rw [if_pos more,if_neg notWpa,if_pos wpa2]
  unfold turn OtherTests
  by_cases named : Named st ssid e
  · rw [if_pos named]
    by_cases all : TakesAll st
    · simp [named,all]
    · rw [if_neg all]
      by_cases refused : countryRefused st e ∨ phyRefused st e ∨ namedSecurityRefused st e ∨ ssid = []
      · rw [if_pos refused]
        rw [security] at refused
        simp only [Bool.false_eq_true,all,false_or,false_iff]
        tauto
      · rw [if_neg refused]
        rw [security] at refused
        simp only [named,all,false_or,true_and,true_iff]
        tauto
  · rw [if_neg named,if_neg fun both => fixed both.2]
    simp [named]

def withWpa (e : BssEntry w) (s : CipherSuite) : BssEntry w := { e with security.wpa := s }

def DiffersInWpa (scan scan' : Table w) : Prop :=
  scan'.bssNr = scan.bssNr ∧ ∀ i, ∃ s, scan'.bssEntry i = withWpa (scan.bssEntry i) s

def Respects (st : Station) (allocated : Bool) (ssid : Bytes) (scan : Table w) (out : Store w) : Prop :=
  (∀ scan', DiffersInWpa scan scan' → ∀ i, i ∈ (bssTableSsidSort st allocated ssid scan' out).log ↔
      i ∈ (bssTableSsidSort st allocated ssid scan out).log) ∧
    ∀ i ∈ (bssTableSsidSort st allocated ssid scan out).log,
      ¬ wepGroup (scan.bssEntry i).security.wpa2.groupCipher →
        (scan.bssEntry i).security.wpa2.groupCipher.rank ≤ st.wepStatus.rank

def GroupHarmless (st : Station) (e : BssEntry w) : Prop :=
  wepGroup e.security.wpa2.groupCipher ∨
    if TakesAll st then e.security.wpa2.groupCipher.rank ≤ st.wepStatus.rank else st.wepStatus = .groupWep104Enabled

theorem rankBelow (c : WepStatus) : c.rank ≤ 11 := by cases c <;> decide

theorem rankGreatest {c : WepStatus} (greatest : c.rank = 11) : c = .groupWep104Enabled := by
  cases c <;> first | rfl | cases greatest

theorem harmlessCopies (wpa2 : isWpa2 st) (fixed : ssid ≠ []) (harmless : OtherTests st ssid e → GroupHarmless st e) :
    (turn st ssid e).copies = true ↔ OtherTests st ssid e := by
  rw [copiesIff wpa2 fixed]
  refine and_iff_left_of_imp fun passes => ?_
  by_cases all : TakesAll st
  · exact .inl all
  · refine .inr fun refused => ?_
    rcases harmless passes with wep | greatest
    · exact refused.2 wep
    · rw [if_neg all] at greatest
      have less := refused.1
      rw [greatest] at less
      have below := rankBelow e.security.wpa.groupCipher
      exact absurd less (Nat.not_lt.mpr below)

theorem wpaChanged (s i) : DiffersInWpa scan (scan.put i (withWpa (scan.bssEntry i) s)) := by
  refine ⟨rfl,fun k => ?_⟩
  by_cases here : k = i
  · exact ⟨s,by simp only [Table.put,here,setSame]⟩
  · exact ⟨(scan.bssEntry k).security.wpa,by simp only [Table.put,setOther here]; rfl⟩

theorem independentGreatest (wpa2 : isWpa2 st) (fixed : ssid ≠ []) (size : scan.bssNr ≤ maxLenOfBssTable)
    (independent : ∀ scan', DiffersInWpa scan scan' → ∀ i, i ∈ (bssTableSsidSort st allocated ssid scan' out).log ↔
      i ∈ (bssTableSsidSort st allocated ssid scan out).log)
    (inside : i < scan.bssNr) (passes : OtherTests st ssid (scan.bssEntry i)) (chosen : ¬ TakesAll st)
    (wep : ¬ wepGroup (scan.bssEntry i).security.wpa2.groupCipher) : st.wepStatus = .groupWep104Enabled := by
  by_contra other
  have less : st.wepStatus.rank < 11 :=
    Nat.lt_of_le_of_ne (rankBelow _) fun greatest => other (rankGreatest greatest)
  let changed (s : CipherSuite) : Table w := scan.put i (withWpa (scan.bssEntry i) s)
  have copied : ∀ s, i ∈ (bssTableSsidSort st allocated ssid (changed s) out).log ↔
      ¬ namedGroupWpa2 st (withWpa (scan.bssEntry i) s) := by
    intro s
    have size' : (changed s).bssNr ≤ maxLenOfBssTable := size
    rw [memCopied size' fixed]
    simp only [changed,Table.put,setSame]
    rw [copiesIff wpa2 fixed]
    constructor
    · rintro ⟨_,_,all | spared⟩
      · exact absurd all chosen
      · exact spared
    · intro spared
      exact ⟨inside,passes,.inr spared⟩
  have worst := (copied { zeroSuite with groupCipher := .groupWep104Enabled }).not.mpr (not_not.mpr ⟨less,wep⟩)
  have best := (copied zeroSuite).mpr fun refused => absurd refused.1 (Nat.not_lt_zero _)
  exact worst ((independent _ (wpaChanged _ i) i).mpr ((independent _ (wpaChanged _ i) i).mp best))

theorem groupRespected (st : Station) (wpa2 : isWpa2 st) (allocated : Bool) (ssid : Bytes) (fixed : ssid ≠ [])
    (scan : Table w) (size : scan.bssNr ≤ maxLenOfBssTable) (out : Store w) :
    Respects st allocated ssid scan out ↔
      ∀ i, i < scan.bssNr → OtherTests st ssid (scan.bssEntry i) → GroupHarmless st (scan.bssEntry i) := by
  constructor
  · rintro ⟨independent,below⟩ i inside passes
    by_cases wep : wepGroup (scan.bssEntry i).security.wpa2.groupCipher
    · exact .inl wep
    refine .inr ?_
    split
    next all =>
      refine below i ((memCopied size fixed).mpr ⟨inside,?_⟩) wep
      exact (copiesIff wpa2 fixed).mpr ⟨passes,.inl all⟩
    next chosen => exact independentGreatest wpa2 fixed size independent inside passes chosen wep
  · intro harmless
    refine ⟨fun scan' differs i => ?_,fun i copied notWep => ?_⟩
    · obtain ⟨number,entries⟩ := differs
      obtain ⟨s,entry⟩ := entries i
      rw [memCopied size fixed,memCopied (number ▸ size) fixed,number,entry]
      refine and_congr_right fun inside => ?_
      rw [harmlessCopies wpa2 fixed (harmless i inside)]
      exact harmlessCopies wpa2 fixed (harmless i inside)
    · obtain ⟨inside,copies⟩ := (memCopied size fixed).mp copied
      have passes := ((copiesIff wpa2 fixed).mp copies).1
      rcases harmless i inside passes with wep | bound
      · exact absurd wep notWep
      · split at bound
        · exact bound
        · rw [bound]
          exact rankBelow _

end Copied

def tkipStation : Station := ⟨.infra,.wpa2Psk,.tkipEnable,false,false,1,[],0,false,wmodeG⟩

def mixedEntry (group groupWpa : WepStatus) : BssEntry 64 :=
  { BssEntry.zero with
    bssType := .infra
    ssid := fun _ => 65
    ssidLen := 1
    security.authMode := .wpa2Psk
    security.wpa := { zeroSuite with groupCipher := groupWpa }
    security.wpa2 := ⟨group,.aesEnable,.tkipEnable,0,true⟩ }

def oneEntry (group groupWpa : WepStatus) : Table 64 := ⟨1,0,fun _ => mixedEntry group groupWpa⟩

theorem groupRespectedWep : Respects tkipStation true [65] (oneEntry .groupWep104Enabled .aesEnable) emptyStore := by
  refine (groupRespected tkipStation (.inr rfl) true [65] (cons_ne_nil _ _) _ (by decide) _).mpr ?_
  intro _ _ _
  exact .inl (.inr rfl)

theorem oneCopied (group groupWpa) :
    0 ∈ (bssTableSsidSort tkipStation true [65] (oneEntry group groupWpa) emptyStore).log ↔
      (turn tkipStation [65] (mixedEntry group groupWpa)).copies = true := by
  have size : (oneEntry group groupWpa).bssNr ≤ maxLenOfBssTable := show 1 ≤ maxLenOfBssTable by decide
  rw [memCopied size (cons_ne_nil _ _)]
  exact and_iff_right Nat.one_pos

theorem wpaGroupCompared :
    isWpa2 tkipStation ∧ ¬ Respects tkipStation true [65] (oneEntry .aesEnable .wepDisabled) emptyStore ∧
      ¬ Respects tkipStation true [65] (oneEntry .tkipEnable .aesEnable) emptyStore := by
  refine ⟨.inr rfl,fun respects => ?_,fun respects => ?_⟩
  · have copied := (oneCopied .aesEnable .wepDisabled).mpr (by decide)
    exact absurd (respects.2 0 copied (by decide)) (by decide)
  · have differs : DiffersInWpa (oneEntry .tkipEnable .aesEnable) (oneEntry .tkipEnable .wepDisabled) :=
      ⟨rfl,fun _ => ⟨{ zeroSuite with groupCipher := .wepDisabled },rfl⟩⟩
    have copied := (oneCopied .tkipEnable .wepDisabled).mpr (by decide)
    have refused := (oneCopied .tkipEnable .aesEnable).mp ((respects.1 _ differs 0).mp copied)
    exact absurd refused (by decide)

end RtmpDriver.BssSelect
