import RtmpDriver.ArrayFront
import RtmpDriver.BeaconParse
import RtmpDriver.CipherParse
import RtmpDriver.StepMachine

/-! BSS_TABLE, with BssTableInit, BssTableSearch, BssTableSetEntry and BssTableDeleteEntry. The buffers that the entries
point to are kept beside the table. -/
namespace RtmpDriver.BssTable
open AccessLog ArrayFront ByteMemory BeaconParse StepMachine List

def maxLenOfBssTable : Nat := 128
def ieCountry : UInt8 := 7

inductive BssType where
  | adhoc | infra | any | monitor
  deriving DecidableEq, Repr

/- What the functions on the table use of a BSS_ENTRY. `w` is the width of an unsigned long, arrays are memories from 0
on, `security` has the fields of BssCipherParse. A length beyond its array goes on inside the entry; only LengthVIE can
reach behind it. pVarIeFromProbRsp is `none` for NULL, and otherwise the number of a buffer. -/
structure BssEntry (w : Nat) where
  bssid : Bytes
  channel : UInt8
  bssType : BssType
  supRate : Nat → UInt8
  supRateLen : UInt8
  extRate : Nat → UInt8
  extRateLen : UInt8
  htCapabilityLen : UInt8
  vhtCapLen : UInt8
  rssi : Int8
  hidden : Bool
  ssid : Nat → UInt8
  ssidLen : UInt8
  sameRxTimeCount : UInt8
  lastBeaconRxTimeA : BitVec w
  lastBeaconRxTime : BitVec w
  security : CipherParse.BssEntry
  varIELen : BitVec 16
  varIEs : Nat → UInt8
  varIeFromProbeRspLen : BitVec 16
  pVarIeFromProbRsp : Option Nat
  bHasCountryIE : Bool

def zeroSuite : CipherParse.CipherSuite := ⟨.wepEnabled,.wepEnabled,.wepEnabled,0,false⟩

def BssEntry.zero {w : Nat} : BssEntry w where
  bssid := replicate 6 0
  channel := 0
  bssType := .adhoc
  supRate := fun _ => 0
  supRateLen := 0
  extRate := fun _ => 0
  extRateLen := 0
  htCapabilityLen := 0
  vhtCapLen := 0
  rssi := 0
  hidden := false
  ssid := fun _ => 0
  ssidLen := 0
  sameRxTimeCount := 0
  lastBeaconRxTimeA := 0
  lastBeaconRxTime := 0
  security := ⟨false,true,false,.wepEnabled,.openMode,.openMode,false,zeroSuite,zeroSuite⟩
  varIELen := 0
  varIEs := fun _ => 0
  varIeFromProbeRspLen := 0
  pVarIeFromProbRsp := none
  bHasCountryIE := false

def BssEntry.contents {w : Nat} (e : BssEntry w) : BssEntry w := { e with pVarIeFromProbRsp := none }

structure Table (w : Nat) where
  bssNr : Nat
  bssOverlapNr : Nat
  bssEntry : Nat → BssEntry w

structure Beacon (w : Nat) where
  ie : BcnIeList
  rssi : Int8
  vie : Bytes
  now : BitVec w
  ushort : vie.length < 65536

structure Wishes where
  connected : Bool
  apConnected : Bool
  mlmeBssid : Bytes
  mlmeSsid : Bytes
  cfgPendingSsid : Bytes

variable {w : Nat}

def setSsid (ssid : Bytes) (bss : BssEntry w) : BssEntry w :=
  if ssid ≠ [] then
    if ssid.all (· == 0) then { bss with hidden := true }
    else { bss with hidden := false, ssid := store (fun _ => 0) 0 ssid, ssidLen := UInt8.ofNat ssid.length }
  else if (load bss.ssid 0 bss.ssidLen.toNat).all (· == 0) then
    { bss with hidden := true, ssid := fun _ => 0, ssidLen := 0 }
  else { bss with hidden := true }

def hasCountry : Nat → Bytes → Bool
  | fuel + 1,id :: len :: rest =>
    if len.toNat ≤ rest.length then decide (id = ieCountry) || hasCountry fuel (rest.drop len.toNat) else false
  | _,_ => false

def setRates (ie : BcnIeList) (bss : BssEntry w) : BssEntry w :=
  { bss with
    supRate := store bss.supRate 0 (ie.supRate.take maxLenOfSupportedRates)
    supRateLen := UInt8.ofNat ie.supRate.length
    extRate := store bss.extRate 0 (ie.extRate.take maxLenOfSupportedRates)
    extRateLen := UInt8.ofNat (min ie.extRate.length maxLenOfSupportedRates) }

-- the length of the VHT capabilities is not reset
def setCapabilities (ie : BcnIeList) (bss : BssEntry w) : BssEntry w :=
  { bss with
    htCapabilityLen := UInt8.ofNat ie.htCapabilityLen
    vhtCapLen := if 0 < ie.htCapabilityLen ∧ ie.vhtCapIe ≠ [] then UInt8.ofNat ie.vhtCapIe.length else bss.vhtCapLen }

def setVarIEs (vie : Bytes) (bss : BssEntry w) : BssEntry w :=
  { bss with varIELen := BitVec.ofNat 16 vie.length, varIEs := store bss.varIEs 0 vie }

def parsedSecurity (pmf : Bool) (ie : BcnIeList) (bss : BssEntry w) : Option CipherParse.BssEntry :=
  (CipherParse.bssCipherParse pmf bss.varIEs bss.varIELen
    { bss.security with privacy := ie.capabilityInfo.testBit 4, bssAdhoc := !ie.bssInfra }).value

/- `none` if the move of pVIE goes on behind VarIEs, which has no room for more than MAX_VIE_LEN bytes: behind it are
the length and the pointer of the probe response, and behind the entry the next one. `pmf` as in CipherParse. -/
def bssEntrySet (pmf : Bool) (b : Beacon w) (bss : BssEntry w) : Option (BssEntry w) :=
  if b.vie.length ≤ maxVieLen then
    let bss := setVarIEs b.vie (setCapabilities b.ie (setRates b.ie (setSsid b.ie.ssid bss)))
    (parsedSecurity pmf b.ie bss).map fun security =>
      { bss with
        bssid := b.ie.bssid
        bssType := if b.ie.bssInfra then .infra else .adhoc
        lastBeaconRxTime := b.now
        channel := b.ie.channel
        rssi := b.rssi
        security := security
        bHasCountryIE := hasCountry b.vie.length b.vie }
  else none

def sameBand (a b : UInt8) : Prop := a ≤ 14 ∧ b ≤ 14 ∨ 14 < a ∧ 14 < b

instance (a b : UInt8) : Decidable (sameBand a b) := inferInstanceAs (Decidable (_ ∧ _ ∨ _ ∧ _))

def BssEntry.Matches (e : BssEntry w) (bssid : Bytes) (channel : UInt8) : Prop :=
  sameBand e.channel channel ∧ e.bssid = bssid

instance (e : BssEntry w) (bssid : Bytes) (channel : UInt8) : Decidable (e.Matches bssid channel) :=
  inferInstanceAs (Decidable (_ ∧ _))

def bssTableSearch (tab : Table w) (bssid : Bytes) (channel : UInt8) : Option Nat :=
  (range tab.bssNr).find? fun i => (tab.bssEntry i).Matches bssid channel

def Wishes.Wanted (ad : Wishes) (ie : BcnIeList) : Prop :=
  (ad.connected = false ∨ ad.apConnected = false) ∧
    (ad.mlmeBssid = ie.bssid ∨ ad.mlmeSsid = ie.ssid ∨ ad.cfgPendingSsid = ie.ssid)

instance (ad : Wishes) (ie : BcnIeList) : Decidable (ad.Wanted ie) :=
  inferInstanceAs (Decidable ((_ ∨ _) ∧ (_ ∨ _ ∨ _)))

structure SetResult (w : Nat) where
  idx : Option Nat
  tab : Table w
  ad : Wishes

def Table.put (tab : Table w) (i : Nat) (e : BssEntry w) : Table w := { tab with bssEntry := set tab.bssEntry i e }

def bssTableSetEntry (pmf : Bool) (ad : Wishes) (b : Beacon w) (tab : Table w) : Option (SetResult w) :=
  match bssTableSearch tab b.ie.bssid b.ie.channel with
  | some idx => (bssEntrySet pmf b (tab.bssEntry idx)).map fun e => ⟨some idx,tab.put idx e,ad⟩
  | none =>
    if maxLenOfBssTable ≤ tab.bssNr then
      if ad.Wanted b.ie then
        (bssEntrySet pmf b .zero).map fun e =>
          ⟨some tab.bssOverlapNr,
            { tab.put tab.bssOverlapNr e with bssOverlapNr := (tab.bssOverlapNr + 1) % maxLenOfBssTable },
            { ad with cfgPendingSsid := [] }⟩
      else some ⟨none,tab,ad⟩
    else
      (bssEntrySet pmf b (tab.bssEntry tab.bssNr)).map fun e =>
        ⟨some tab.bssNr,{ tab.put tab.bssNr e with bssNr := tab.bssNr + 1 },ad⟩

structure Store (w : Nat) where
  tab : Table w
  buffer : Nat → Nat → UInt8

def zeroBuffer (buffer : Nat → Nat → UInt8) : Option Nat → Nat → Nat → UInt8
  | none => buffer
  | some p => set buffer p (store (buffer p) 0 (replicate maxVieLen 0))

/- `none` if bytes are read at NULL. -/
def moveBuffer (buffer : Nat → Nat → UInt8) (dst : Nat) (src : Option Nat) (length : Nat) :
    Option (Nat → Nat → UInt8) :=
  if length = 0 then some buffer else src.map fun s => set buffer dst (store (buffer dst) 0 (load (buffer s) 0 length))

def initEntry (s : Store w) (i : Nat) : Store w :=
  let old := (s.tab.bssEntry i).pVarIeFromProbRsp
  ⟨s.tab.put i { BssEntry.zero with rssi := -127, pVarIeFromProbRsp := old },zeroBuffer s.buffer old⟩

def bssTableInit (s : Store w) : Store w :=
  (range maxLenOfBssTable).foldl initEntry { s with tab.bssNr := 0, tab.bssOverlapNr := 0 }

/- The next entry moved over entry `j`, which keeps its buffer if it has one and gets a copy of the next one's. -/
def shiftEntry (s : Store w) (j : Nat) : Option (Store w) :=
  let next := s.tab.bssEntry (j + 1)
  match (s.tab.bssEntry j).pVarIeFromProbRsp with
  | none => some { s with tab := s.tab.put j next }
  | some p =>
    (moveBuffer (zeroBuffer s.buffer (some p)) p next.pVarIeFromProbRsp next.varIeFromProbeRspLen.toNat).map
      fun buffer => ⟨s.tab.put j { next with pVarIeFromProbRsp := some p },buffer⟩

def shiftLoop : Nat → Nat → Store w → Option (Store w)
  | 0,_,s => some s
  | count + 1,j,s => (shiftEntry s j).bind (shiftLoop count (j + 1))

def clearEntry (restore : Bool) (i : Nat) (s : Store w) : Store w :=
  let old := (s.tab.bssEntry i).pVarIeFromProbRsp
  ⟨s.tab.put i { BssEntry.zero with pVarIeFromProbRsp := if restore then old else none },zeroBuffer s.buffer old⟩

def BssEntry.Is (e : BssEntry w) (bssid : Bytes) (channel : UInt8) : Prop := e.channel = channel ∧ e.bssid = bssid

instance (e : BssEntry w) (bssid : Bytes) (channel : UInt8) : Decidable (e.Is bssid channel) :=
  inferInstanceAs (Decidable (_ ∧ _))

def deleteAt (i : Nat) (s : Store w) : Option (Store w) :=
  (shiftLoop (s.tab.bssNr - 1 - i) i s).map fun t =>
    { clearEntry true (s.tab.bssNr - 1) t with tab.bssNr := s.tab.bssNr - 1 }

def bssTableDeleteEntry (bssid : Bytes) (channel : UInt8) (s : Store w) : Option (Store w) :=
  match (range s.tab.bssNr).find? fun i => (s.tab.bssEntry i).Is bssid channel with
  | none => some s
  | some i => deleteAt i s

def Table.Unique (tab : Table w) : Prop :=
  ∀ i j, i < tab.bssNr → j < tab.bssNr → i ≠ j →
    ¬ (tab.bssEntry i).Matches (tab.bssEntry j).bssid (tab.bssEntry j).channel

structure Table.Ok (tab : Table w) : Prop where
  bounded : tab.bssNr ≤ maxLenOfBssTable
  unique : tab.Unique

section Search
variable {tab : Table w} {bssid : Bytes} {channel : UInt8} {i : Nat}

theorem sameBandIff {a b} : sameBand a b ↔ (a ≤ 14 ↔ b ≤ 14) := by
  unfold sameBand
  rw [← UInt8.not_le,← UInt8.not_le]
  tauto

theorem matchesEach {e e' : BssEntry w} (left : e.Matches bssid channel) (right : e'.Matches bssid channel) :
    e.Matches e'.bssid e'.channel :=
  ⟨sameBandIff.mpr ((sameBandIff.mp left.1).trans (sameBandIff.mp right.1).symm),left.2.trans right.2.symm⟩

theorem searchNone : bssTableSearch tab bssid channel = none ↔
    ∀ i, i < tab.bssNr → ¬ (tab.bssEntry i).Matches bssid channel := by
  simp [bssTableSearch]

theorem searchSome (found : bssTableSearch tab bssid channel = some i) :
    i < tab.bssNr ∧ (tab.bssEntry i).Matches bssid channel :=
  ⟨mem_range.mp (mem_of_find?_eq_some found),by simpa using List.find?_some found⟩

theorem searchFinds (unique : tab.Unique) (inside : i < tab.bssNr) (is : (tab.bssEntry i).Matches bssid channel) :
    bssTableSearch tab bssid channel = some i := by
  cases found : bssTableSearch tab bssid channel with
  | none => exact absurd is (searchNone.mp found i inside)
  | some j =>
    obtain ⟨inside',is'⟩ := searchSome found
    by_cases same : j = i
    · rw [same]
    · exact absurd (matchesEach is' is) (unique j i inside' inside same)

end Search

section SetEntry
variable {pmf : Bool} {ad : Wishes} {b : Beacon w} {bss e : BssEntry w} {tab : Table w}

theorem setSsidKeeps (ssid) : (setSsid ssid bss).varIeFromProbeRspLen = bss.varIeFromProbeRspLen ∧
    (setSsid ssid bss).pVarIeFromProbRsp = bss.pVarIeFromProbRsp := by
  unfold setSsid
  split
  · split <;> exact ⟨rfl,rfl⟩
  · split <;> exact ⟨rfl,rfl⟩

theorem entrySetIs (done : bssEntrySet pmf b bss = some e) :
    e.bssid = b.ie.bssid ∧ e.channel = b.ie.channel ∧ e.varIeFromProbeRspLen = bss.varIeFromProbeRspLen ∧
      e.pVarIeFromProbRsp = bss.pVarIeFromProbRsp := by
  unfold bssEntrySet at done
  split at done
  case isFalse => cases done
  obtain ⟨security,_,rfl⟩ := Option.map_eq_some_iff.mp done
  exact ⟨rfl,rfl,setSsidKeeps b.ie.ssid⟩

theorem entrySetSome : (∃ e, bssEntrySet pmf b bss = some e) ↔ b.vie.length ≤ maxVieLen := by
  constructor
  · rintro ⟨e,done⟩
    unfold bssEntrySet at done
    split at done
    next fits => exact fits
    next => cases done
  · intro fits
    unfold bssEntrySet
    rw [if_pos fits]
    have ends : ∀ bss : BssEntry w, (parsedSecurity pmf b.ie bss).isSome = true :=
      fun bss => CipherParse.loopEnds pmf bss.varIEs _ (Int.le_refl _) _
    obtain ⟨security,parsed⟩ := Option.isSome_iff_exists.mp
      (ends (setVarIEs b.vie (setCapabilities b.ie (setRates b.ie (setSsid b.ie.ssid bss)))))
    simp only [parsed,Option.map_some]
    exact ⟨_,rfl⟩

def Stores (ad : Wishes) (b : Beacon w) (tab : Table w) : Prop :=
  (∃ i, bssTableSearch tab b.ie.bssid b.ie.channel = some i) ∨ tab.bssNr < maxLenOfBssTable ∨ ad.Wanted b.ie

structure Written (b : Beacon w) (tab : Table w) (i : Nat) (after : Table w) : Prop where
  entries : ∃ e, after.bssEntry = set tab.bssEntry i e ∧ e.bssid = b.ie.bssid ∧ e.channel = b.ie.channel ∧
    (e.varIeFromProbeRspLen = (tab.bssEntry i).varIeFromProbeRspLen ∨ e.varIeFromProbeRspLen = 0)
  inside : i < after.bssNr
  bounded : after.bssNr ≤ maxLenOfBssTable
  overlap : after.bssOverlapNr < maxLenOfBssTable
  others : ∀ k, k < after.bssNr → k ≠ i → k < tab.bssNr ∧ ¬ (tab.bssEntry k).Matches b.ie.bssid b.ie.channel

theorem setEntryCases (ok : tab.Ok) (overlap : tab.bssOverlapNr < maxLenOfBssTable) {r : SetResult w}
    (done : bssTableSetEntry pmf ad b tab = some r) :
    r.idx = none ∧ r.tab = tab ∨ ∃ i, r.idx = some i ∧ Written b tab i r.tab := by
  unfold bssTableSetEntry at done
  split at done
  next idx found =>
    obtain ⟨e,wrote,rfl⟩ := Option.map_eq_some_iff.mp done
    obtain ⟨bssid,channel,length,_⟩ := entrySetIs wrote
    obtain ⟨inside,is⟩ := searchSome found
    refine .inr ⟨idx,rfl,⟨e,rfl,bssid,channel,.inl length⟩,inside,ok.bounded,overlap,fun k low other => ⟨low,?_⟩⟩
    intro match'
    exact ok.unique k idx low inside other (matchesEach match' is)
  next missing =>
    have nobody := searchNone.mp missing
    split at done
    next full =>
      have all := Nat.le_antisymm ok.bounded full
      split at done
      next =>
        obtain ⟨e,wrote,rfl⟩ := Option.map_eq_some_iff.mp done
        obtain ⟨bssid,channel,length,_⟩ := entrySetIs wrote
        refine .inr ⟨tab.bssOverlapNr,rfl,⟨e,rfl,bssid,channel,.inr length⟩,?_,ok.bounded,?_,?_⟩
        · exact Nat.lt_of_lt_of_le overlap full
        · exact Nat.mod_lt _ (by decide)
        · exact fun k low _ => ⟨low,nobody k low⟩
      next =>
        cases Option.some.inj done
        exact .inl ⟨rfl,rfl⟩
    next free =>
      obtain ⟨e,wrote,rfl⟩ := Option.map_eq_some_iff.mp done
      obtain ⟨bssid,channel,length,_⟩ := entrySetIs wrote
      refine .inr ⟨tab.bssNr,rfl,⟨e,rfl,bssid,channel,.inl length⟩,Nat.lt_succ_self _,?_,overlap,?_⟩
      · exact Nat.not_le.mp free
      · intro k low other
        have inside : k < tab.bssNr := Nat.lt_of_le_of_ne (Nat.le_of_lt_succ low) other
        exact ⟨inside,nobody k inside⟩

theorem mapSome {α β : Type} {o : Option α} {f : α → β} : (∃ r, o.map f = some r) ↔ ∃ a, o = some a := by
  cases o <;> simp

theorem setEntrySome : (∃ r, bssTableSetEntry pmf ad b tab = some r) ↔
    (Stores ad b tab → b.vie.length ≤ maxVieLen) := by
  unfold bssTableSetEntry Stores
  split
  next idx found =>
    rw [mapSome,entrySetSome]
    exact ⟨fun fits _ => fits,fun fits => fits (.inl ⟨idx,found⟩)⟩
  next missing =>
    split
    next full =>
      split
      next wanted =>
        rw [mapSome,entrySetSome]
        exact ⟨fun fits _ => fits,fun fits => fits (.inr (.inr wanted))⟩
      next unwanted =>
        refine ⟨fun _ stores => ?_,fun _ => ⟨_,rfl⟩⟩
        rcases stores with ⟨i,found⟩ | free | wanted
        · cases missing.symm.trans found
        · exact absurd free (Nat.not_lt.mpr full)
        · exact absurd wanted unwanted
    next free =>
      rw [mapSome,entrySetSome]
      exact ⟨fun fits _ => fits,fun fits => fits (.inr (.inl (Nat.not_le.mp free)))⟩

variable {i : Nat} {after : Table w}

theorem Written.ok (written : Written b tab i after) (ok : tab.Ok) : after.Ok := by
  obtain ⟨e,entries,bssid,channel,_⟩ := written.entries
  refine ⟨written.bounded,fun j k low low' other both => ?_⟩
  rw [entries] at both
  by_cases first : j = i
  · have second : k ≠ i := fun same => other (first.trans same.symm)
    rw [first,setSame,setOther second] at both
    obtain ⟨band,address⟩ := both
    refine (written.others k low' second).2 ⟨?_,address.symm.trans bssid⟩
    rw [← channel]
    exact sameBandIff.mpr (sameBandIff.mp band).symm
  · rw [setOther first] at both
    by_cases second : k = i
    · rw [second,setSame,bssid,channel] at both
      exact (written.others j low first).2 both
    · rw [setOther second] at both
      exact ok.unique j k (written.others j low first).1 (written.others k low' second).1 other both

theorem Written.found (written : Written b tab i after) (ok : tab.Ok) :
    bssTableSearch after b.ie.bssid b.ie.channel = some i := by
  obtain ⟨e,entries,bssid,channel,_⟩ := written.entries
  refine searchFinds (written.ok ok).unique written.inside ?_
  rw [entries,setSame]
  exact ⟨channel ▸ sameBandIff.mpr Iff.rfl,bssid⟩

theorem Written.frame (written : Written b tab i after) {k} (other : k ≠ i) :
    after.bssEntry k = tab.bssEntry k := by
  obtain ⟨e,entries,_⟩ := written.entries
  rw [entries,setOther other]

end SetEntry

section DeleteEntry
variable {s t : Store w} {i j k count : Nat}

def shifted (old next : BssEntry w) : BssEntry w :=
  { next with pVarIeFromProbRsp := old.pVarIeFromProbRsp.or next.pVarIeFromProbRsp }

theorem shiftEntryIs (done : shiftEntry s j = some t) :
    t.tab = s.tab.put j (shifted (s.tab.bssEntry j) (s.tab.bssEntry (j + 1))) := by
  unfold shiftEntry at done
  unfold shifted
  split at done
  next null =>
    cases Option.some.inj done
    rw [null]
    rfl
  next p pointer =>
    obtain ⟨buffer,_,rfl⟩ := Option.map_eq_some_iff.mp done
    rw [pointer]
    rfl

theorem shiftLoopIs (done : shiftLoop count j s = some t) :
    t.tab.bssNr = s.tab.bssNr ∧ t.tab.bssOverlapNr = s.tab.bssOverlapNr ∧
      ∀ k, t.tab.bssEntry k = if j ≤ k ∧ k < j + count then shifted (s.tab.bssEntry k) (s.tab.bssEntry (k + 1))
        else s.tab.bssEntry k := by
  induction count generalizing j s with
  | zero =>
    cases Option.some.inj done
    exact ⟨rfl,rfl,fun k => (if_neg (by omega)).symm⟩
  | succ count ih =>
    obtain ⟨u,one,rest⟩ := Option.bind_eq_some_iff.mp done
    obtain ⟨number,overlap,entries⟩ := ih rest
    have table := shiftEntryIs one
    rw [table] at number overlap entries
    refine ⟨number,overlap,fun k => ?_⟩
    rw [entries k]
    simp only [Table.put]
    by_cases here : k = j
    · rw [here,if_neg (by omega),setSame,if_pos (by omega)]
    · rw [setOther here]
      by_cases range : j + 1 ≤ k ∧ k < j + 1 + count
      · rw [if_pos range,if_pos (by omega),setOther (by omega)]
      · rw [if_neg range,if_neg (by omega)]

def Movable (s : Store w) (k : Nat) : Prop :=
  (s.tab.bssEntry k).pVarIeFromProbRsp ≠ none → (s.tab.bssEntry (k + 1)).pVarIeFromProbRsp ≠ none ∨
    (s.tab.bssEntry (k + 1)).varIeFromProbeRspLen = 0

theorem shiftEntrySome (movable : Movable s j) : ∃ t, shiftEntry s j = some t := by
  unfold shiftEntry
  split
  next => exact ⟨_,rfl⟩
  next p pointer =>
    rw [mapSome]
    unfold moveBuffer
    split
    · exact ⟨_,rfl⟩
    next some' =>
      rcases movable (by simp [pointer]) with next' | empty
      · obtain ⟨q,pointer'⟩ := Option.ne_none_iff_exists'.mp next'
        rw [pointer']
        exact ⟨_,rfl⟩
      · rw [empty] at some'
        exact absurd rfl some'

theorem shiftLoopSome (movable : ∀ k, j ≤ k → k < j + count → Movable s k) : ∃ t, shiftLoop count j s = some t := by
  induction count generalizing j s with
  | zero => exact ⟨s,rfl⟩
  | succ count ih =>
    obtain ⟨u,one⟩ := shiftEntrySome (movable j (Nat.le_refl j) (by omega))
    have later : ∀ k, j + 1 ≤ k → k < j + 1 + count → Movable u k := by
      intro k low high
      have was := movable k (by omega) (by omega)
      unfold Movable at was ⊢
      rw [shiftEntryIs one]
      simp only [Table.put,setOther (show k ≠ j by omega),setOther (show k + 1 ≠ j by omega)]
      exact was
    obtain ⟨t,rest⟩ := ih later
    exact ⟨t,Option.bind_eq_some_iff.mpr ⟨u,one,rest⟩⟩

theorem deleteAtIs (inside : i < s.tab.bssNr) (done : deleteAt i s = some t) :
    t.tab.bssNr = s.tab.bssNr - 1 ∧ t.tab.bssOverlapNr = s.tab.bssOverlapNr ∧
      (∀ k, k < i → t.tab.bssEntry k = s.tab.bssEntry k) ∧
      (∀ k, i ≤ k → k + 1 < s.tab.bssNr → t.tab.bssEntry k = shifted (s.tab.bssEntry k) (s.tab.bssEntry (k + 1))) ∧
      t.tab.bssEntry (s.tab.bssNr - 1) =
        { BssEntry.zero with pVarIeFromProbRsp := (s.tab.bssEntry (s.tab.bssNr - 1)).pVarIeFromProbRsp } ∧
      ∀ k, s.tab.bssNr ≤ k → t.tab.bssEntry k = s.tab.bssEntry k := by
  obtain ⟨u,moved,rfl⟩ := Option.map_eq_some_iff.mp done
  obtain ⟨_,overlap,entries⟩ := shiftLoopIs moved
  refine ⟨rfl,overlap,fun k low => ?_,fun k low high => ?_,?_,fun k high => ?_⟩
  · simp only [clearEntry,Table.put,setOther (show k ≠ s.tab.bssNr - 1 by omega)]
    rw [entries k,if_neg (by omega)]
  · simp only [clearEntry,Table.put,setOther (show k ≠ s.tab.bssNr - 1 by omega)]
    rw [entries k,if_pos (by omega)]
  · simp only [clearEntry,Table.put,setSame,if_true]
    rw [entries,if_neg (by omega)]
  · simp only [clearEntry,Table.put,setOther (show k ≠ s.tab.bssNr - 1 by omega)]
    rw [entries k,if_neg (by omega)]

theorem deleteAtSome (movable : ∀ k, k + 1 < s.tab.bssNr → Movable s k) (i) : ∃ t, deleteAt i s = some t := by
  have moves : ∀ k, i ≤ k → k < i + (s.tab.bssNr - 1 - i) → Movable s k := fun k _ high => movable k (by omega)
  obtain ⟨u,moved⟩ := shiftLoopSome moves
  exact ⟨_,Option.map_eq_some_iff.mpr ⟨u,moved,rfl⟩⟩

theorem deletedEntry (inside : i < s.tab.bssNr) (done : deleteAt i s = some t) (k) :
    t.tab.bssEntry k = s.tab.bssEntry k ∨
      k + 1 < s.tab.bssNr ∧ t.tab.bssEntry k = shifted (s.tab.bssEntry k) (s.tab.bssEntry (k + 1)) ∨
      t.tab.bssEntry k = { BssEntry.zero with pVarIeFromProbRsp := (s.tab.bssEntry k).pVarIeFromProbRsp } := by
  obtain ⟨_,_,before,behind,last,rest⟩ := deleteAtIs inside done
  by_cases early : k < i
  · exact .inl (before k early)
  by_cases out : s.tab.bssNr ≤ k
  · exact .inl (rest k out)
  by_cases final : k = s.tab.bssNr - 1
  · rw [final]
    exact .inr (.inr last)
  · exact .inr (.inl ⟨by omega,behind k (by omega) (by omega)⟩)

def Table.contents (tab : Table w) : List (BssEntry w) := front (fun k => (tab.bssEntry k).contents) tab.bssNr

theorem deleteContents (inside : i < s.tab.bssNr) (done : deleteAt i s = some t) :
    t.tab.contents = s.tab.contents.eraseIdx i := by
  obtain ⟨number,_,before,behind,_⟩ := deleteAtIs inside done
  rw [Table.contents,number]
  apply frontErase inside
  · intro k low
    exact congrArg BssEntry.contents (before k low)
  · intro k low high
    rw [behind k low high]
    rfl

theorem deleteOk (ok : s.tab.Ok) (inside : i < s.tab.bssNr) (done : deleteAt i s = some t) : t.tab.Ok := by
  obtain ⟨number,_,before,behind,_⟩ := deleteAtIs inside done
  have source : ∀ k, k < t.tab.bssNr → ∃ k', k' < s.tab.bssNr ∧ (k' = if k < i then k else k + 1) ∧
      (t.tab.bssEntry k).bssid = (s.tab.bssEntry k').bssid ∧
      (t.tab.bssEntry k).channel = (s.tab.bssEntry k').channel := by
    intro k low
    by_cases early : k < i
    · exact ⟨k,by omega,(if_pos early).symm,by rw [before k early],by rw [before k early]⟩
    · rw [behind k (by omega) (by omega)]
      exact ⟨k + 1,by omega,(if_neg early).symm,rfl,rfl⟩
  refine ⟨by rw [number]; exact Nat.le_trans (Nat.sub_le _ _) ok.bounded,fun j k low low' other both => ?_⟩
  obtain ⟨j',inside',place,bssid,channel⟩ := source j low
  obtain ⟨k',inside'',place',bssid',channel'⟩ := source k low'
  refine ok.unique j' k' inside' inside'' ?_ ?_
  · split at place <;> split at place' <;> omega
  · unfold BssEntry.Matches at both ⊢
    rwa [← bssid,← channel,← bssid',← channel']

end DeleteEntry

section Init
variable {s : Store w}

theorem initLoopIs (s : Store w) (n) :
    ((range n).foldl initEntry s).tab.bssNr = s.tab.bssNr ∧
      ((range n).foldl initEntry s).tab.bssOverlapNr = s.tab.bssOverlapNr ∧
      ∀ k, ((range n).foldl initEntry s).tab.bssEntry k =
        if k < n then
          { BssEntry.zero with rssi := -127, pVarIeFromProbRsp := (s.tab.bssEntry k).pVarIeFromProbRsp }
        else s.tab.bssEntry k := by
  induction n with
  | zero => exact ⟨rfl,rfl,fun k => (if_neg (Nat.not_lt_zero k)).symm⟩
  | succ n ih =>
    obtain ⟨number,overlap,entries⟩ := ih
    rw [range_succ,foldl_append,foldl_cons,foldl_nil]
    refine ⟨number,overlap,fun k => ?_⟩
    simp only [initEntry,Table.put]
    by_cases here : k = n
    · rw [here,setSame,entries,if_neg (Nat.lt_irrefl n),if_pos (Nat.lt_succ_self n)]
    · rw [setOther here,entries]
      by_cases early : k < n
      · rw [if_pos early,if_pos (by omega)]
      · rw [if_neg early,if_neg (by omega)]

theorem initNone : (bssTableInit s).tab.bssNr = 0 := (initLoopIs _ _).1

end Init

inductive Call (w : Nat) where
  | setEntry (ad : Wishes) (b : Beacon w)
  | deleteEntry (bssid : Bytes) (channel : UInt8)

def Call.run (pmf : Bool) (s : Store w) : Call w → Option (Store w)
  | .setEntry ad b => (bssTableSetEntry pmf ad b s.tab).map fun r => { s with tab := r.tab }
  | .deleteEntry bssid channel => bssTableDeleteEntry bssid channel s

def step (pmf : Bool) (s : Option (Store w)) (c : Call w) : Option (Store w) := s.bind fun s => c.run pmf s

def SetRight (pmf : Bool) (ad : Wishes) (b : Beacon w) (s t : Store w) : Prop :=
  ∃ r, bssTableSetEntry pmf ad b s.tab = some r ∧ t.tab = r.tab ∧
    (∀ i, r.idx = some i → bssTableSearch t.tab b.ie.bssid b.ie.channel = some i) ∧
    ∀ k, r.idx ≠ some k → t.tab.bssEntry k = s.tab.bssEntry k

def DeleteRight (bssid : Bytes) (channel : UInt8) (s t : Store w) : Prop :=
  (∀ i, i < s.tab.bssNr → ¬ (s.tab.bssEntry i).Is bssid channel) ∧ t = s ∨
    ∃ i, i < s.tab.bssNr ∧ (s.tab.bssEntry i).Is bssid channel ∧
      (∀ j, j < s.tab.bssNr → (s.tab.bssEntry j).Is bssid channel → j = i) ∧
      t.tab.contents = s.tab.contents.eraseIdx i

def Call.Right (pmf : Bool) (s t : Store w) : Call w → Prop
  | .setEntry ad b => SetRight pmf ad b s t
  | .deleteEntry bssid channel => DeleteRight bssid channel s t

def StepRight (pmf : Bool) (s : Option (Store w)) (c : Call w) : Prop :=
  ∃ before after, s = some before ∧ step pmf s c = some after ∧ after.tab.Ok ∧ c.Right pmf before after

def Fits (s : Option (Store w)) : Call w → Prop
  | .setEntry ad b => ∀ before, s = some before → Stores ad b before.tab → b.vie.length ≤ maxVieLen
  | .deleteEntry _ _ => True

structure Inv (s : Store w) : Prop where
  ok : s.tab.Ok
  overlap : s.tab.bssOverlapNr < maxLenOfBssTable
  empty : ∀ k, k < maxLenOfBssTable → (s.tab.bssEntry k).varIeFromProbeRspLen = 0

section Run
variable {pmf : Bool} {s t : Store w}

theorem initInv (s : Store w) : Inv (bssTableInit s) := by
  obtain ⟨_,overlap,entries⟩ := initLoopIs { s with tab.bssNr := 0, tab.bssOverlapNr := 0 } maxLenOfBssTable
  have first : (bssTableInit s).tab.bssOverlapNr = 0 := overlap
  refine ⟨⟨?_,?_⟩,?_,?_⟩
  · rw [initNone]
    exact Nat.zero_le _
  · intro i j low
    rw [initNone] at low
    exact absurd low (Nat.not_lt_zero i)
  · rw [first]
    decide
  · intro k low
    rw [bssTableInit,entries k,if_pos low]
    rfl

theorem setEntryRight (inv : Inv s) {ad b r} (done : bssTableSetEntry pmf ad b s.tab = some r) :
    Inv { s with tab := r.tab } ∧ SetRight pmf ad b s { s with tab := r.tab } := by
  rcases setEntryCases inv.ok inv.overlap done with ⟨none',same⟩ | ⟨i,idx,written⟩
  · have keep : ({ s with tab := r.tab } : Store w) = s := by rw [same]
    rw [keep]
    refine ⟨inv,r,done,same.symm,fun i found => ?_,fun _ _ => rfl⟩
    cases none'.symm.trans found
  · refine ⟨⟨written.ok inv.ok,written.overlap,fun k low => ?_⟩,r,done,rfl,fun j found => ?_,fun k other => ?_⟩
    · obtain ⟨e,entries,_,_,length⟩ := written.entries
      change (r.tab.bssEntry k).varIeFromProbeRspLen = 0
      rw [entries]
      by_cases here : k = i
      · rw [here,setSame]
        exact length.elim (fun kept => kept.trans (inv.empty i (here ▸ low))) id
      · rw [setOther here]
        exact inv.empty k low
    · cases idx.symm.trans found
      exact written.found inv.ok
    · exact written.frame fun here => other (here ▸ idx)

theorem deleteEntryRight (inv : Inv s) (bssid channel) :
    ∃ t, bssTableDeleteEntry bssid channel s = some t ∧ Inv t ∧ DeleteRight bssid channel s t := by
  unfold bssTableDeleteEntry
  split
  next missing => exact ⟨s,rfl,inv,.inl ⟨by simpa using missing,rfl⟩⟩
  next i found =>
    have inside : i < s.tab.bssNr := mem_range.mp (mem_of_find?_eq_some found)
    have is : (s.tab.bssEntry i).Is bssid channel := by simpa using List.find?_some found
    have small := inv.ok.bounded
    have movable : ∀ k, k + 1 < s.tab.bssNr → Movable s k := fun k inside _ => .inr (inv.empty (k + 1) (by omega))
    obtain ⟨t,done⟩ := deleteAtSome movable i
    obtain ⟨_,overlap,_⟩ := deleteAtIs inside done
    refine ⟨t,done,⟨deleteOk inv.ok inside done,overlap ▸ inv.overlap,fun k low => ?_⟩,
      .inr ⟨i,inside,is,fun j inside' is' => ?_,deleteContents inside done⟩⟩
    · rcases deletedEntry inside done k with same | ⟨inside',moved⟩ | zero
      · rw [same]
        exact inv.empty k low
      · rw [moved]
        exact inv.empty (k + 1) (by omega)
      · rw [zero]
        rfl
    · by_contra other
      refine inv.ok.unique j i inside' inside other ⟨sameBandIff.mpr ?_,is'.2.trans is.2.symm⟩
      rw [is'.1,is.1]

theorem stepRight (inv : Inv s) (c) : (StepRight pmf (some s) c ↔ Fits (some s) c) ∧
      (Fits (some s) c → ∃ t, step pmf (some s) c = some t ∧ Inv t) := by
  cases c with
  | setEntry ad b =>
    have defined : Fits (some s) (.setEntry ad b) ↔ ∃ r, bssTableSetEntry pmf ad b s.tab = some r := by
      rw [setEntrySome]
      exact ⟨fun fits => fits s rfl,fun fits before same => Option.some.inj same ▸ fits⟩
    have onward : ∀ r, bssTableSetEntry pmf ad b s.tab = some r →
        step pmf (some s) (.setEntry ad b) = some { s with tab := r.tab } := by
      intro r done
      exact Option.map_eq_some_iff.mpr ⟨r,done,rfl⟩
    rw [defined]
    refine ⟨⟨?_,?_⟩,?_⟩
    · rintro ⟨before,after,same,_,_,r,done,_⟩
      cases Option.some.inj same
      exact ⟨r,done⟩
    · rintro ⟨r,done⟩
      obtain ⟨inv',right⟩ := setEntryRight inv done
      exact ⟨s,_,rfl,onward r done,inv'.ok,right⟩
    · rintro ⟨r,done⟩
      exact ⟨_,onward r done,(setEntryRight inv done).1⟩
  | deleteEntry bssid channel =>
    obtain ⟨t,done,inv',right⟩ := deleteEntryRight inv bssid channel
    exact ⟨⟨fun _ => trivial,fun _ => ⟨s,t,rfl,done,inv'.ok,right⟩⟩,fun _ => ⟨t,done,inv'⟩⟩

end Run

def emptyStore : Store 64 := ⟨⟨0,0,fun _ => .zero⟩,fun _ _ => 0⟩

def noWishes : Wishes := ⟨false,false,[],[],[]⟩

def overlongBeacon : Beacon 64 := ⟨default,0,replicate 1200 0,0,by rw [List.length_replicate]; decide⟩

end RtmpDriver.BssTable
