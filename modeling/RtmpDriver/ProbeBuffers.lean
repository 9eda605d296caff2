import RtmpDriver.BssAging
import RtmpDriver.BssSelect

/-! The buffers for the elements of probe responses, which the entries of ScanTab point to. Entries are moved, zeroed
and copied with their pointer, also to the table that BssTableSsidSort fills. -/
namespace RtmpDriver.ProbeBuffers
open ArrayFront ByteMemory StepMachine BssTable BssAging BssSelect List
open BeaconParse (Bytes maxVieLen)

variable {w : Nat}

structure Tables (w : Nat) where
  scanTab : Table w
  outTab : Table w
  buffer : Nat → Nat → UInt8

def Tables.scan (t : Tables w) : Store w := ⟨t.scanTab,t.buffer⟩

def Tables.withScan (t : Tables w) (s : Store w) : Tables w := { t with scanTab := s.tab, buffer := s.buffer }

def zeroed : Table w := ⟨0,0,fun _ => .zero⟩

def giveBuffers (tab : Table w) : Table w :=
  { tab with
    bssEntry := fun i =>
      if i < maxLenOfBssTable then { tab.bssEntry i with pVarIeFromProbRsp := some i } else tab.bssEntry i }

def start (outTab : Table w) (buffer : Nat → Nat → UInt8) : Tables w := ⟨giveBuffers zeroed,outTab,buffer⟩

/- What PeerBeaconAtScanAction does with the elements of a probe response after BssTableSetEntry. -/
def keepProbeRsp (vie : Bytes) (i : Nat) (s : Store w) : Store w :=
  if vie = [] then s
  else
    match (s.tab.bssEntry i).pVarIeFromProbRsp with
    | none => { s with tab := s.tab.put i { s.tab.bssEntry i with varIeFromProbeRspLen := 0 } }
    | some p =>
      let buffer := zeroBuffer s.buffer (some p)
      ⟨s.tab.put i { s.tab.bssEntry i with varIeFromProbeRspLen := BitVec.ofNat 16 vie.length },
        set buffer p (store (buffer p) 0 vie)⟩

def peerBeaconAtScan (pmf : Bool) (ad : Wishes) (b : Beacon w) (probeRsp : Bool) (s : Store w) : Option (Store w) :=
  (bssTableSetEntry pmf ad b s.tab).map fun r =>
    match r.idx with
    | some i => if probeRsp then keepProbeRsp b.vie i { s with tab := r.tab } else { s with tab := r.tab }
    | none => { s with tab := r.tab }

inductive Call (w : Nat) where
  | setEntry (ad : Wishes) (b : Beacon w) (probeRsp : Bool)
  | deleteEntry (bssid : Bytes) (channel : UInt8)
  | init
  | maintain (p : Limits w)
  | ssidSort (st : Station) (allocated : Bool) (ssid : Bytes)

def ssidSort (st : Station) (allocated : Bool) (ssid : Bytes) (t : Tables w) : Tables w :=
  let s := (bssTableSsidSort st allocated ssid t.scanTab ⟨t.outTab,t.buffer⟩).value
  { t with outTab := s.tab, buffer := s.buffer }

def Call.run (pmf : Bool) (t : Tables w) : Call w → Option (Tables w)
  | .setEntry ad b probeRsp => (peerBeaconAtScan pmf ad b probeRsp t.scan).map t.withScan
  | .deleteEntry bssid channel => (bssTableDeleteEntry bssid channel t.scan).map t.withScan
  | .init => some (t.withScan (bssTableInit t.scan))
  | .maintain p => (maintainBssTable p t.scan).map t.withScan
  | .ssidSort st allocated ssid => some (ProbeBuffers.ssidSort st allocated ssid t)

def step (pmf : Bool) (t : Option (Tables w)) (c : Call w) : Option (Tables w) := t.bind fun t => c.run pmf t

def pointer (tab : Table w) (i : Nat) : Option Nat := (tab.bssEntry i).pVarIeFromProbRsp

structure Owned (tab : Table w) : Prop where
  given : ∀ i, i < maxLenOfBssTable → pointer tab i ≠ none
  apart : ∀ i j, i < maxLenOfBssTable → j < maxLenOfBssTable → i ≠ j → pointer tab i ≠ pointer tab j
  kept : ∀ p, p < maxLenOfBssTable → ∃! i, i < maxLenOfBssTable ∧ pointer tab i = some p

def SameContents (before after : Tables w) : Prop :=
  ∀ i p, i < maxLenOfBssTable → pointer before.scanTab i = some p →
    ∀ k, k < maxVieLen → after.buffer p k = before.buffer p k

def Call.Leaves (before after : Tables w) : Call w → Prop
  | .ssidSort _ _ _ => SameContents before after
  | _ => True

def StepRight (pmf : Bool) (t : Option (Tables w)) (c : Call w) : Prop :=
  ∃ before after, t = some before ∧ step pmf t c = some after ∧ Owned after.scanTab ∧ c.Leaves before after

def Overwrites (ad : Wishes) (b : Beacon w) (tab : Table w) : Prop :=
  bssTableSearch tab b.ie.bssid b.ie.channel = none ∧ maxLenOfBssTable ≤ tab.bssNr ∧ ad.Wanted b.ie

def SharedEmpty (t : Tables w) : Prop :=
  ∀ i j p, i < maxLenOfBssTable → j < maxLenOfBssTable → pointer t.outTab i = some p → pointer t.scanTab j = some p →
    ∀ k, k < maxVieLen → t.buffer p k = 0

def Call.Spares (t : Tables w) : Call w → Prop
  | .setEntry ad b _ => (Stores ad b t.scanTab → b.vie.length ≤ maxVieLen) ∧ ¬ Overwrites ad b t.scanTab
  | .maintain p => ∀ i, i < t.scanTab.bssNr → ¬ Doomed p (touch (t.scanTab.bssEntry i))
  | .ssidSort _ _ _ => SharedEmpty t
  | _ => True

def Spares (t : Option (Tables w)) (c : Call w) : Prop := ∀ before, t = some before → c.Spares before

structure Inv (tab : Table w) : Prop where
  bounded : tab.bssNr ≤ maxLenOfBssTable
  overlap : tab.bssOverlapNr < maxLenOfBssTable
  own : ∀ i, i < maxLenOfBssTable → pointer tab i = some i

section Pointers
variable {tab tab' : Table w} {i k : Nat} {e : BssEntry w}

theorem Inv.owned (inv : Inv tab) : Owned tab := by
  refine ⟨fun i low => ?_,fun i j low low' other same => ?_,fun p low => ⟨p,⟨low,inv.own p low⟩,?_⟩⟩
  · rw [inv.own i low]
    exact Option.some_ne_none i
  · rw [inv.own i low,inv.own j low'] at same
    exact other (Option.some.inj same)
  · rintro i ⟨inside,same⟩
    rw [inv.own i inside] at same
    exact Option.some.inj same

theorem Inv.of (inv : Inv tab) (bounded : tab'.bssNr ≤ maxLenOfBssTable)
    (overlap : tab'.bssOverlapNr = tab.bssOverlapNr)
    (same : ∀ k, k < maxLenOfBssTable → pointer tab' k = pointer tab k) : Inv tab' :=
  ⟨bounded,overlap ▸ inv.overlap,fun i low => (same i low).trans (inv.own i low)⟩

theorem pointerPut (same : e.pVarIeFromProbRsp = pointer tab i) : pointer (tab.put i e) k = pointer tab k := by
  by_cases here : k = i
  · simp only [here,pointer,Table.put,setSame]
    exact same
  · simp only [pointer,Table.put,setOther here]

theorem startInv (outTab : Table w) (buffer : Nat → Nat → UInt8) : Inv (start outTab buffer).scanTab := by
  refine ⟨Nat.zero_le _,show 0 < maxLenOfBssTable by decide,fun i low => ?_⟩
  simp only [start,giveBuffers,pointer]
  rw [if_pos low]

end Pointers

section SetEntry
variable {pmf : Bool} {ad : Wishes} {b : Beacon w} {s t : Store w} {tab : Table w} {r : SetResult w}

theorem setEntryKeeps (inv : Inv tab) (done : bssTableSetEntry pmf ad b tab = some r) (spared : ¬ Overwrites ad b tab) :
    Inv r.tab := by
  unfold bssTableSetEntry at done
  split at done
  next idx found =>
    obtain ⟨e,wrote,rfl⟩ := Option.map_eq_some_iff.mp done
    exact inv.of inv.bounded rfl fun k _ => pointerPut (entrySetIs wrote).2.2.2
  next missing =>
    split at done
    next full =>
      split at done
      next wanted => exact absurd ⟨missing,full,wanted⟩ spared
      next =>
        cases Option.some.inj done
        exact inv
    next free =>
      obtain ⟨e,wrote,rfl⟩ := Option.map_eq_some_iff.mp done
      exact inv.of (Nat.not_le.mp free) rfl fun k _ => pointerPut (entrySetIs wrote).2.2.2

theorem setEntryLoses (done : bssTableSetEntry pmf ad b tab = some r) (lost : Overwrites ad b tab) :
    pointer r.tab tab.bssOverlapNr = none := by
  obtain ⟨missing,full,wanted⟩ := lost
  unfold bssTableSetEntry at done
  rw [missing] at done
  simp only [if_pos full,if_pos wanted] at done
  obtain ⟨e,wrote,rfl⟩ := Option.map_eq_some_iff.mp done
  simp only [pointer,Table.put,setSame]
  exact (entrySetIs wrote).2.2.2

theorem keepProbeRspKeeps (vie i) (s : Store w) :
    (keepProbeRsp vie i s).tab.bssNr = s.tab.bssNr ∧ (keepProbeRsp vie i s).tab.bssOverlapNr = s.tab.bssOverlapNr ∧
      ∀ k, pointer (keepProbeRsp vie i s).tab k = pointer s.tab k := by
  unfold keepProbeRsp
  split
  · exact ⟨rfl,rfl,fun _ => rfl⟩
  split
  next null => exact ⟨rfl,rfl,fun k => pointerPut rfl⟩
  next p some' => exact ⟨rfl,rfl,fun k => pointerPut rfl⟩

theorem peerBeaconIs {probeRsp} (done : peerBeaconAtScan pmf ad b probeRsp s = some t) :
    ∃ r, bssTableSetEntry pmf ad b s.tab = some r ∧ t.tab.bssNr = r.tab.bssNr ∧
      t.tab.bssOverlapNr = r.tab.bssOverlapNr ∧ ∀ k, pointer t.tab k = pointer r.tab k := by
  obtain ⟨r,wrote,rfl⟩ := Option.map_eq_some_iff.mp done
  refine ⟨r,wrote,?_⟩
  split
  next i _ =>
    split
    · exact keepProbeRspKeeps b.vie i { s with tab := r.tab }
    · exact ⟨rfl,rfl,fun _ => rfl⟩
  next => exact ⟨rfl,rfl,fun _ => rfl⟩

theorem setEntryOwned (pmf ad b probeRsp) (inv : Inv s.tab) :
    ((∃ t, peerBeaconAtScan pmf ad b probeRsp s = some t ∧ Owned t.tab) ↔
        (Stores ad b s.tab → b.vie.length ≤ maxVieLen) ∧ ¬ Overwrites ad b s.tab) ∧
      ∀ t, peerBeaconAtScan pmf ad b probeRsp s = some t → ¬ Overwrites ad b s.tab → Inv t.tab := by
  have keeps : ∀ t, peerBeaconAtScan pmf ad b probeRsp s = some t → ¬ Overwrites ad b s.tab → Inv t.tab := by
    intro t done spared
    obtain ⟨r,wrote,number,overlap,same⟩ := peerBeaconIs done
    have inv' := setEntryKeeps inv wrote spared
    exact inv'.of (number ▸ inv'.bounded) overlap fun k _ => same k
  refine ⟨⟨?_,?_⟩,keeps⟩
  · rintro ⟨t,done,owned⟩
    obtain ⟨r,wrote,_,_,same⟩ := peerBeaconIs done
    refine ⟨setEntrySome.mp ⟨r,wrote⟩,fun lost => ?_⟩
    exact owned.given _ inv.overlap ((same _).trans (setEntryLoses wrote lost))
  · rintro ⟨fits,spared⟩
    obtain ⟨r,wrote⟩ := setEntrySome.mpr fits
    obtain ⟨t,done⟩ : ∃ t, peerBeaconAtScan pmf ad b probeRsp s = some t :=
      ⟨_,Option.map_eq_some_iff.mpr ⟨r,wrote,rfl⟩⟩
    exact ⟨t,done,(keeps t done spared).owned⟩

end SetEntry

section Delete
variable {s t : Store w} {i : Nat}

theorem deleteAtKeeps (inv : Inv s.tab) (inside : i < s.tab.bssNr) (done : deleteAt i s = some t) : Inv t.tab := by
  obtain ⟨number,overlap,_⟩ := deleteAtIs inside done
  refine inv.of (by rw [number]; exact Nat.le_trans (Nat.sub_le _ _) inv.bounded) overlap fun k low => ?_
  unfold pointer
  rcases deletedEntry inside done k with same | ⟨_,moved⟩ | zero
  · rw [same]
  · have own : (s.tab.bssEntry k).pVarIeFromProbRsp = some k := inv.own k low
    rw [moved,shifted,own]
    rfl
  · rw [zero]

theorem deleteKeeps (inv : Inv s.tab) (bssid channel) :
    ∃ t, bssTableDeleteEntry bssid channel s = some t ∧ Inv t.tab := by
  unfold bssTableDeleteEntry
  split
  next => exact ⟨s,rfl,inv⟩
  next i found =>
    have inside : i < s.tab.bssNr := mem_range.mp (mem_of_find?_eq_some found)
    have small := inv.bounded
    have movable : ∀ k, k + 1 < s.tab.bssNr → Movable s k :=
      fun k inside _ => .inl (inv.owned.given (k + 1) (by omega))
    obtain ⟨t,done⟩ := deleteAtSome movable i
    exact ⟨t,done,deleteAtKeeps inv inside done⟩

theorem initKeeps (inv : Inv s.tab) : Inv (bssTableInit s).tab := by
  obtain ⟨_,overlap,entries⟩ := initLoopIs { s with tab.bssNr := 0, tab.bssOverlapNr := 0 } maxLenOfBssTable
  have first : (bssTableInit s).tab.bssOverlapNr = 0 := overlap
  refine ⟨by rw [initNone]; exact Nat.zero_le _,by rw [first]; decide,fun i low => ?_⟩
  rw [pointer,bssTableInit,entries i,if_pos low]
  exact inv.own i low

end Delete

section Maintain
variable {p : Limits w} {s t : Store w} {fuel i total total' : Nat}

theorem touchPointer (e : BssEntry w) : (touch e).pVarIeFromProbRsp = e.pVarIeFromProbRsp := by
  unfold touch
  split <;> rfl

theorem maintainSpares (fuel) (spared : ∀ k, i ≤ k → k < total → ¬ Doomed p (touch (s.tab.bssEntry k))) :
    ∃ t, maintainLoop p fuel i total s = some (total,t) ∧ t.tab.bssOverlapNr = s.tab.bssOverlapNr ∧
      ∀ k, pointer t.tab k = pointer s.tab k := by
  induction fuel generalizing i s with
  | zero => exact ⟨s,rfl,rfl,fun _ => rfl⟩
  | succ fuel ih =>
    rw [maintainLoop]
    split
    next inside =>
      dsimp only
      rw [if_neg (spared i (Nat.le_refl i) inside)]
      have later : ∀ k, i + 1 ≤ k → k < total →
          ¬ Doomed p (touch ((s.tab.put i (touch (s.tab.bssEntry i))).bssEntry k)) := by
        intro k low high
        simp only [Table.put,setOther (show k ≠ i by omega)]
        exact spared k (by omega) high
      obtain ⟨t,done,overlap,same⟩ := ih (s := { s with tab := s.tab.put i (touch (s.tab.bssEntry i)) }) later
      exact ⟨t,done,overlap,fun k => (same k).trans (pointerPut (touchPointer _))⟩
    next => exact ⟨s,rfl,rfl,fun _ => rfl⟩

theorem clearShiftFrame {j} (inside : j < total) (moved : shiftLoop (total - 1 - j) j s = some t) :
    pointer (clearEntry false (total - 1) t).tab (total - 1) = none ∧
      ∀ k, total ≤ k → (clearEntry false (total - 1) t).tab.bssEntry k = s.tab.bssEntry k := by
  obtain ⟨_,_,entries⟩ := shiftLoopIs moved
  refine ⟨?_,fun k past => ?_⟩
  · simp only [pointer,clearEntry,Table.put,setSame]
    rfl
  · simp only [clearEntry,Table.put,setOther (show k ≠ total - 1 by omega)]
    rw [entries k,if_neg (by omega)]

theorem maintainFrame (done : maintainLoop p fuel i total s = some (total',t)) :
    ∀ k, total ≤ k → t.tab.bssEntry k = s.tab.bssEntry k := by
  induction fuel generalizing i total s with
  | zero =>
    cases Option.some.inj done
    exact fun _ _ => rfl
  | succ fuel ih =>
    rw [maintainLoop] at done
    split at done
    next inside =>
      intro k past
      have touched : (s.tab.put i (touch (s.tab.bssEntry i))).bssEntry k = s.tab.bssEntry k := setOther (by omega)
      dsimp only at done
      split at done
      · obtain ⟨u,moved,later⟩ := Option.bind_eq_some_iff.mp done
        rwa [ih later k (by omega),(clearShiftFrame inside moved).2 k past]
      · rwa [ih done k past]
    next =>
      cases Option.some.inj done
      exact fun _ _ => rfl

theorem maintainLoses (enough : total ≤ i + fuel) (done : maintainLoop p fuel i total s = some (total',t)) {k}
    (low : i ≤ k) (high : k < total) (doomed : Doomed p (touch (s.tab.bssEntry k))) :
    ∃ q, q < total ∧ pointer t.tab q = none := by
  induction fuel generalizing i s with
  | zero => omega
  | succ fuel ih =>
    have inside : i < total := by omega
    rw [maintainLoop,if_pos inside] at done
    dsimp only at done
    split at done
    next =>
      obtain ⟨u,moved,later⟩ := Option.bind_eq_some_iff.mp done
      refine ⟨total - 1,by omega,?_⟩
      rw [pointer,maintainFrame later (total - 1) (Nat.le_refl _)]
      exact (clearShiftFrame inside moved).1
    next stays =>
      have other : k ≠ i := fun same => stays (same ▸ doomed)
      refine ih (by omega) done (by omega) ?_
      simp only [Table.put,setOther other]
      exact doomed

theorem maintainOwned (inv : Inv s.tab) : ((∃ t, maintainBssTable p s = some t ∧ Owned t.tab) ↔
        ∀ i, i < s.tab.bssNr → ¬ Doomed p (touch (s.tab.bssEntry i))) ∧
      ((∀ i, i < s.tab.bssNr → ¬ Doomed p (touch (s.tab.bssEntry i))) →
        ∃ t, maintainBssTable p s = some t ∧ Inv t.tab) := by
  have keeps : (∀ i, i < s.tab.bssNr → ¬ Doomed p (touch (s.tab.bssEntry i))) →
      ∃ t, maintainBssTable p s = some t ∧ Inv t.tab := by
    intro spared
    obtain ⟨t,done,overlap,same⟩ := maintainSpares (i := 0) s.tab.bssNr fun k _ => spared k
    refine ⟨_,Option.map_eq_some_iff.mpr ⟨_,done,rfl⟩,?_⟩
    exact inv.of inv.bounded overlap fun k _ => same k
  refine ⟨⟨?_,fun spared => ?_⟩,keeps⟩
  · rintro ⟨t,done,owned⟩ i inside doomed
    obtain ⟨⟨total,u⟩,loop,rfl⟩ := Option.map_eq_some_iff.mp done
    obtain ⟨q,small,lost⟩ := maintainLoses (by omega) loop (Nat.zero_le i) inside doomed
    exact owned.given q (Nat.lt_of_lt_of_le small inv.bounded) lost
  · obtain ⟨t,done,inv'⟩ := keeps spared
    exact ⟨t,done,inv'.owned⟩

end Maintain

section SortInto
variable {s : Store w} {t : Tables w} {buffer : Nat → Nat → UInt8} {p k : Nat}

theorem zeroBufferIs (old) :
    zeroBuffer buffer old p k = if old = some p ∧ k < maxVieLen then 0 else buffer p k := by
  cases old with
  | none => rfl
  | some q =>
    rw [zeroBuffer]
    by_cases here : p = q
    · subst here
      rw [setSame]
      by_cases inside : k < maxVieLen
      · rw [if_pos ⟨rfl,inside⟩]
        have cell := storeIn (m := buffer p) (p := 0) (b := replicate maxVieLen (0 : UInt8)) (k := k)
          (by rw [length_replicate]; exact inside)
        rw [List.getElem?_replicate,if_pos inside,Nat.zero_add] at cell
        exact Option.some.inj cell
      · rw [if_neg fun both => inside both.2]
        exact storeOut (.inr (by rw [length_replicate,Nat.zero_add]; exact Nat.not_lt.mp inside))
    · rw [setOther here,if_neg fun both => here (Option.some.inj both.1).symm]

theorem initLoopBuffer (s : Store w) (n) :
    ((range n).foldl initEntry s).buffer p k =
      if (∃ i, i < n ∧ pointer s.tab i = some p) ∧ k < maxVieLen then 0 else s.buffer p k := by
  induction n with
  | zero => rw [if_neg fun both => both.1.elim fun i low => Nat.not_lt_zero i low.1]; rfl
  | succ n ih =>
    have here : (((range n).foldl initEntry s).tab.bssEntry n).pVarIeFromProbRsp = pointer s.tab n := by
      rw [(initLoopIs s n).2.2 n,if_neg (Nat.lt_irrefl n)]
      rfl
    rw [range_succ,foldl_append,foldl_cons,foldl_nil]
    simp only [initEntry]
    rw [zeroBufferIs,here,ih]
    have cases' : (∃ i, i < n + 1 ∧ pointer s.tab i = some p) ↔
        pointer s.tab n = some p ∨ ∃ i, i < n ∧ pointer s.tab i = some p := by
      simp only [Nat.lt_succ_iff_lt_or_eq,or_and_right,exists_or,exists_eq_left]
      exact or_comm
    simp only [cases']
    by_cases last : pointer s.tab n = some p <;> by_cases inside : k < maxVieLen <;> simp [last,inside]

theorem sortBuffer (st allocated ssid) (t : Tables w) :
    (ssidSort st allocated ssid t).buffer = (bssTableInit ⟨t.outTab,t.buffer⟩).buffer := by
  unfold ssidSort bssTableSsidSort
  dsimp only
  split <;> rfl

theorem sortLeaves (st allocated ssid) (t : Tables w) :
    SameContents t (ssidSort st allocated ssid t) ↔ SharedEmpty t := by
  have after : ∀ p k, (ssidSort st allocated ssid t).buffer p k =
      if (∃ i, i < maxLenOfBssTable ∧ pointer t.outTab i = some p) ∧ k < maxVieLen then 0 else t.buffer p k := by
    intro p k
    rw [sortBuffer]
    exact initLoopBuffer _ _
  constructor
  · intro same i j p low low' points points' k inside
    rw [← same j p low' points' k inside,after,if_pos ⟨⟨i,low,points⟩,inside⟩]
  · intro empty j p low' points' k inside
    rw [after]
    split
    next shared =>
      obtain ⟨⟨i,low,points⟩,_⟩ := shared
      exact (empty i j p low low' points points' k inside).symm
    next => rfl

end SortInto

theorem stepRight {pmf t} (inv : Inv t.scanTab) (c : Call w) : (StepRight pmf (some t) c ↔ Spares (some t) c) ∧
      (Spares (some t) c → ∃ t', step pmf (some t) c = some t' ∧ Inv t'.scanTab) := by
  have spares : Spares (some t) c ↔ c.Spares t :=
    ⟨fun all => all t rfl,fun one before same => Option.some.inj same ▸ one⟩
  have onScan : ∀ o : Option (Store w), c.run pmf t = o.map t.withScan → (∀ t', c.Leaves t t') →
      (StepRight pmf (some t) c ↔ ∃ s, o = some s ∧ Owned s.tab) := by
    intro o run leaves
    constructor
    · rintro ⟨before,after,same,done,owned,_⟩
      cases Option.some.inj same
      obtain ⟨s,here,rfl⟩ := Option.map_eq_some_iff.mp (run.symm.trans done)
      exact ⟨s,here,owned⟩
    · rintro ⟨s,here,owned⟩
      exact ⟨t,_,rfl,run.trans (Option.map_eq_some_iff.mpr ⟨s,here,rfl⟩),owned,leaves _⟩
  have onward : ∀ (o : Option (Store w)) (s : Store w), c.run pmf t = o.map t.withScan → o = some s → Inv s.tab →
      ∃ t', step pmf (some t) c = some t' ∧ Inv t'.scanTab :=
    fun o s run here inv' => ⟨_,run.trans (Option.map_eq_some_iff.mpr ⟨s,here,rfl⟩),inv'⟩
  rw [spares]
  cases c with
  | setEntry ad b probeRsp =>
    obtain ⟨same,keeps⟩ := setEntryOwned (s := t.scan) pmf ad b probeRsp inv
    refine ⟨(onScan _ rfl fun _ => trivial).trans same,fun spared => ?_⟩
    obtain ⟨s,done,_⟩ := same.mpr spared
    exact onward _ s rfl done (keeps s done spared.2)
  | deleteEntry bssid channel =>
    obtain ⟨s,done,inv'⟩ := deleteKeeps (s := t.scan) inv bssid channel
    have here := (onScan _ rfl fun _ => trivial).mpr ⟨s,done,inv'.owned⟩
    exact ⟨⟨fun _ => trivial,fun _ => here⟩,fun _ => onward _ s rfl done inv'⟩
  | init =>
    have inv' := initKeeps (s := t.scan) inv
    have here := (onScan (some (bssTableInit t.scan)) rfl fun _ => trivial).mpr ⟨_,rfl,inv'.owned⟩
    exact ⟨⟨fun _ => trivial,fun _ => here⟩,fun _ => onward (some _) _ rfl rfl inv'⟩
  | maintain p =>
    obtain ⟨same,keeps⟩ := maintainOwned (p := p) (s := t.scan) inv
    refine ⟨(onScan _ rfl fun _ => trivial).trans same,fun spared => ?_⟩
    obtain ⟨s,done,inv'⟩ := keeps spared
    exact onward _ s rfl done inv'
  | ssidSort st allocated ssid =>
    refine ⟨⟨?_,fun empty => ?_⟩,fun _ => ⟨_,rfl,inv⟩⟩
    · rintro ⟨before,after,same,done,_,leaves⟩
      cases Option.some.inj same
      cases Option.some.inj done
      exact (sortLeaves st allocated ssid t).mp leaves
    · exact ⟨t,_,rfl,rfl,inv.owned,(sortLeaves st allocated ssid t).mpr empty⟩

theorem buffersOwned (pmf : Bool) (outTab : Table w) (buffer : Nat → Nat → UInt8) (calls : List (Call w)) :
    (Owned (start outTab buffer).scanTab ∧ Meets (step pmf) (StepRight pmf) (some (start outTab buffer)) calls) ↔
      Meets (step pmf) Spares (some (start outTab buffer)) calls := by
  have inv := startInv outTab buffer
  rw [and_iff_right inv.owned]
  exact meetsIffMeetsSome (fun _ c inv => stepRight inv c) inv

def fresh : Option (Tables 64) := some (start zeroed fun _ _ => 0)

def openStation : Station := ⟨.infra,.openMode,.wepDisabled,false,false,1,[],0,false,wmodeG⟩

def seen : Beacon 64 :=
  ⟨{ (default : BeaconParse.BcnIeList) with ssid := [65], bssInfra := true },0,[0,1,65],0,by decide⟩

def looking : Wishes := { noWishes with mlmeSsid := [65] }

def full : Tables 64 :=
  ⟨⟨maxLenOfBssTable,0,fun i => { BssEntry.zero with bssid := [1,0,0,0,0,UInt8.ofNat i], pVarIeFromProbRsp := some i }⟩,
    zeroed,fun _ _ => 0⟩

theorem buffersLost :
    ¬ Meets (step false) (StepRight false) fresh [.setEntry looking seen true,.maintain twoMinutes] ∧
      ¬ Meets (step false) (StepRight false) fresh
          [.setEntry looking seen true,.ssidSort openStation true [65],.ssidSort openStation true [65]] ∧
      Owned full.scanTab ∧ ¬ StepRight false (some full) (.setEntry looking seen true) := by
  have small : 0 < maxLenOfBssTable := by decide
  refine ⟨?_,?_,Inv.owned ⟨Nat.le_refl _,small,fun _ _ => rfl⟩,?_⟩
  · rintro ⟨_,⟨_,after,_,done,owned,_⟩,_⟩
    have lost : (step false (step false fresh (.setEntry looking seen true)) (.maintain twoMinutes)).map
        (fun t => pointer t.scanTab 0) = some none := by decide +kernel
    rw [done] at lost
    exact owned.given 0 small (Option.some.inj lost)
  · rintro ⟨_,_,⟨before,after,sorted,done,_,same⟩,_⟩
    have filled : (step false (step false fresh (.setEntry looking seen true)) (.ssidSort openStation true [65])).map
        (fun t => (pointer t.scanTab 0,t.buffer 0 2)) = some (some 0,65) := by decide +kernel
    have zero : (step false (step false (step false fresh (.setEntry looking seen true))
        (.ssidSort openStation true [65])) (.ssidSort openStation true [65])).map (fun t => t.buffer 0 2) = some 0 := by
      decide +kernel
    rw [sorted] at filled
    rw [done] at zero
    obtain ⟨points,byte⟩ := Prod.mk.inj (Option.some.inj filled)
    have kept := same 0 0 small points 2 (by decide)
    have equal : (0 : UInt8) = 65 := (Option.some.inj zero).symm.trans (kept.trans byte)
    exact absurd equal (by decide)
  · rintro ⟨_,after,_,done,owned,_⟩
    have lost : (step false (some full) (.setEntry looking seen true)).map (fun t => pointer t.scanTab 0) =
        some none := by decide +kernel
    rw [done] at lost
    exact owned.given 0 small (Option.some.inj lost)

end RtmpDriver.ProbeBuffers
