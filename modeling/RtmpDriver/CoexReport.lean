import Mathlib.Algebra.GroupWithZero.Nat
import Mathlib.Data.List.Induction
import RtmpDriver.ArrayFront
import RtmpDriver.DistinctList
import RtmpDriver.ElementList

/-! The 20/40 coexistence report: TriEventInit, TriEventTableSetEntry and BuildIntolerantChannelRep. -/
namespace RtmpDriver.CoexReport
open ArrayFront ByteMemory DistinctList ElementList List

def maxTriggerEvent : Nat := 64

structure TriggerEventA where
  bValid : Bool
  bssid : List UInt8
  regClass : UInt8
  channel : UInt16
  deriving DecidableEq, Repr

def TriggerEventA.invalid (e : TriggerEventA) : TriggerEventA := { e with bValid := false }

structure TriggerEventTab where
  eventANo : Nat
  eventA : Nat → TriggerEventA
  eventBCountDown : Nat

def triEventInit (tab : TriggerEventTab) : TriggerEventTab where
  eventANo := 0
  eventA i := if i < maxTriggerEvent then (tab.eventA i).invalid else tab.eventA i
  eventBCountDown := 0

structure SetEntry where
  bssid : List UInt8
  fortyMhzIntolerant : Bool
  htCapabilityLen : UInt8
  regClass : UInt8
  channelNo : UInt8
  deriving DecidableEq, Repr

def SetEntry.pair (call : SetEntry) : UInt8 × UInt8 := (call.regClass,call.channelNo)

def alreadySet (tab : TriggerEventTab) (call : SetEntry) : Bool :=
  (range maxTriggerEvent).any fun index =>
    (tab.eventA index).bValid && decide ((tab.eventA index).channel = call.channelNo.toUInt16) &&
      decide ((tab.eventA index).regClass = call.regClass)

-- the two branches on RegClass store the same
def entryOf (call : SetEntry) : TriggerEventA :=
  ⟨true,call.bssid.take 6,if call.regClass ≠ 0 then call.regClass else 0,call.channelNo.toUInt16⟩

def triEventTableSetEntry (dot11BssWidthChanTranDelay : Nat) (tab : TriggerEventTab) (call : SetEntry) :
    TriggerEventTab :=
  if call.htCapabilityLen = 0 then
    if alreadySet tab call then tab
    else if tab.eventANo < maxTriggerEvent then
      { tab with eventA := ArrayFront.set tab.eventA tab.eventANo (entryOf call), eventANo := tab.eventANo + 1 }
    else tab
  else if call.fortyMhzIntolerant then { tab with eventBCountDown := dot11BssWidthChanTranDelay }
  else tab

def regClassArray : List UInt8 := [0,11,12,32,33,54,55]

def reported (tmpRegClass : UInt8) (e : TriggerEventA) : Bool := e.bValid && decide (e.regClass = tmpRegClass)

/- One turn of the loop over the table; the list is the first `idx` elements of ChannelList. -/
def collectOne (tmpRegClass : UInt8) (s : (Nat → TriggerEventA) × List UInt8) (i : Nat) :
    (Nat → TriggerEventA) × List UInt8 :=
  if reported tmpRegClass (s.1 i) then
    (ArrayFront.set s.1 i (s.1 i).invalid,addNew s.2 (s.1 i).channel.toUInt8)
  else s

def collect (eventA : Nat → TriggerEventA) (eventANo : Nat) (tmpRegClass : UInt8) :
    (Nat → TriggerEventA) × List UInt8 :=
  (range eventANo).foldl (collectOne tmpRegClass) (eventA,[])

structure Report where
  eventA : Nat → TriggerEventA
  mem : Nat → UInt8
  frameLen : Nat
  readOffset : Nat

def reportClass (eventANo pDest : Nat) (r : Report) (tmpRegClass : UInt8) : Report :=
  let (eventA,channelList) := collect r.eventA eventANo tmpRegClass
  let idx := channelList.length
  if 0 < idx then
    let mem := store r.mem (pDest + r.readOffset) [73]
    let mem := store mem (pDest + r.readOffset + 1) [UInt8.ofNat (1 + idx)]
    let mem := store mem (pDest + r.readOffset + 2) [tmpRegClass]
    let mem := store mem (pDest + r.readOffset + 3) channelList
    ⟨eventA,mem,r.frameLen + (3 + idx),r.readOffset + (3 + idx)⟩
  else { r with eventA := eventA }

def buildIntolerantChannelRep (tab : TriggerEventTab) (mem : Nat → UInt8) (pDest : Nat) : Report :=
  regClassArray.foldl (reportClass tab.eventANo pDest) ⟨tab.eventA,mem,0,0⟩

def Report.table (tab : TriggerEventTab) (r : Report) : TriggerEventTab := { tab with eventA := r.eventA }

def pending (eventA : Nat → TriggerEventA) (eventANo : Nat) (regClass : UInt8) : List UInt8 :=
  ((front eventA eventANo).filter (reported regClass)).map fun e => e.channel.toUInt8

section Collect
variable {eventA : Nat → TriggerEventA} {n k : Nat} {cls other : UInt8}

def cleared (eventA : Nat → TriggerEventA) (n : Nat) (cls : UInt8) : Nat → TriggerEventA :=
  fun k => if k < n ∧ reported cls (eventA k) = true then (eventA k).invalid else eventA k

theorem clearedZero : cleared eventA 0 cls = eventA := funext fun k => if_neg fun both => Nat.not_lt_zero k both.1

theorem clearedAt : cleared eventA n cls n = eventA n := if_neg fun both => Nat.lt_irrefl n both.1

theorem clearedSucc : cleared eventA (n + 1) cls =
    if reported cls (eventA n) then ArrayFront.set (cleared eventA n cls) n (eventA n).invalid
    else cleared eventA n cls := by
  funext k
  by_cases last : k = n
  · subst last
    split
    next yes =>
      rw [setSame]
      exact if_pos ⟨Nat.lt_succ_self k,yes⟩
    next no => exact (if_neg fun both => no both.2).trans clearedAt.symm
  · have same : k < n + 1 ↔ k < n := by omega
    have earlier : cleared eventA (n + 1) cls k = cleared eventA n cls k := by simp only [cleared,same]
    split
    · rw [setOther last,earlier]
    · exact earlier

theorem pendingSucc : pending eventA (n + 1) cls =
    if reported cls (eventA n) then pending eventA n cls ++ [(eventA n).channel.toUInt8]
    else pending eventA n cls := by
  unfold pending
  rw [frontSucc,filter_append,map_append,filter_singleton]
  split
  next yes => simp only [yes,cond_true,map_cons,map_nil]
  next no => simp only [no,cond_false,map_nil,append_nil]

theorem collectEq : collect eventA n cls = (cleared eventA n cls,distinct (pending eventA n cls)) := by
  induction n with
  | zero => rw [clearedZero]; rfl
  | succ n ih =>
    have turn : collect eventA (n + 1) cls = collectOne cls (collect eventA n cls) n := by
      unfold collect
      rw [range_succ,foldl_concat]
    rw [turn,ih,collectOne,clearedSucc,pendingSucc]
    simp only [clearedAt]
    split
    · rw [snoc]
    · rfl

theorem frontCleared : front (cleared eventA n cls) n =
    (front eventA n).map fun e => if reported cls e then e.invalid else e := by
  unfold front
  rw [map_map]
  refine map_congr_left fun k mem => ?_
  simp only [cleared,mem_range.mp mem,true_and,Function.comp_apply]

theorem reportedCleared (e) :
    reported other (if reported cls e then e.invalid else e) = (reported other e && decide (other ≠ cls)) := by
  split
  next yes =>
    have same : e.regClass = cls := of_decide_eq_true (Bool.and_eq_true_iff.mp yes).2
    simp only [reported,TriggerEventA.invalid,Bool.false_and,same]
    by_cases equal : other = cls
    · simp only [equal,ne_eq,not_true,decide_false,Bool.and_false]
    · simp only [Ne.symm equal,decide_false,Bool.and_false,Bool.false_and]
  next no =>
    by_cases equal : other = cls
    · simp only [equal,ne_eq,not_true,decide_false,Bool.and_false,Bool.eq_false_iff.mpr no]
    · simp only [equal,ne_eq,not_false_iff,decide_true,Bool.and_true]

theorem pendingCleared : pending (cleared eventA n cls) n other =
    if other = cls then [] else pending eventA n other := by
  have channel : ∀ e : TriggerEventA, (if reported cls e then e.invalid else e).channel = e.channel := by
    intro e
    split <;> rfl
  unfold pending
  rw [frontCleared,filter_map,map_map]
  simp only [Function.comp_def,reportedCleared,channel]
  split
  next equal => simp only [equal,ne_eq,not_true,decide_false,Bool.and_false,filter_false,map_nil]
  next differ => simp only [differ,ne_eq,not_false_iff,decide_true,Bool.and_true]

end Collect

section Reports
variable {n pDest : Nat} {r : Report} {cls : UInt8} {classes : List UInt8}

def classElement (eventA : Nat → TriggerEventA) (n : Nat) (cls : UInt8) : List UInt8 :=
  if pending eventA n cls = [] then [] else element 73 (cls :: distinct (pending eventA n cls))

theorem storeElement {mem p} (channels) :
    store (store (store (store mem p [73]) (p + 1) [UInt8.ofNat (1 + channels.length)]) (p + 2) [cls]) (p + 3)
      channels = store mem p (element 73 (cls :: channels)) := by
  have parts : element 73 (cls :: channels) =
      [73] ++ ([UInt8.ofNat (1 + channels.length)] ++ ([cls] ++ channels)) := by
    rw [Nat.add_comm]
    rfl
  rw [parts,storeAppend,storeAppend,storeAppend]
  rfl

theorem reportClassEq (r) (same : r.frameLen = r.readOffset) : reportClass n pDest r cls = ⟨cleared r.eventA n cls,
      store r.mem (pDest + r.readOffset) (classElement r.eventA n cls),
      r.readOffset + (classElement r.eventA n cls).length,r.readOffset + (classElement r.eventA n cls).length⟩ := by
  unfold reportClass classElement
  simp only [collectEq,length_pos_iff,ne_eq,DistinctList.eqNil,ite_not]
  split
  next none =>
    rw [length_nil,Nat.add_zero,storeNil,same]
  next some =>
    rw [storeElement,elementLength,length_cons,same]
    congr 2 <;> omega

theorem reportAll (n pDest) (nodup : classes.Nodup) (r) (same : r.frameLen = r.readOffset) :
    classes.foldl (reportClass n pDest) r = ⟨classes.foldl (fun e c => cleared e n c) r.eventA,
      store r.mem (pDest + r.readOffset) (classes.flatMap (classElement r.eventA n)),
      r.readOffset + (classes.flatMap (classElement r.eventA n)).length,
      r.readOffset + (classes.flatMap (classElement r.eventA n)).length⟩ := by
  induction classes generalizing r with
  | nil =>
    obtain ⟨eventA,mem,frameLen,readOffset⟩ := r
    dsimp only at same
    subst same
    simp only [foldl_nil,flatMap_nil,length_nil,Nat.add_zero,storeNil]
  | cons cls classes ih =>
    have fresh := nodup_cons.mp nodup
    have later : classes.flatMap (classElement (cleared r.eventA n cls) n) =
        classes.flatMap (classElement r.eventA n) := by
      refine flatMap_congr fun c mem => ?_
      have differ : ¬ c = cls := fun equal => fresh.1 (equal ▸ mem)
      unfold classElement
      rw [pendingCleared,if_neg differ]
    rw [foldl_cons,reportClassEq r same,ih fresh.2 _ rfl]
    simp only [later,foldl_cons,flatMap_cons,length_append,storeAppend,Nat.add_assoc]

theorem pendingAll (eventA) (classes : List UInt8) :
    pending (classes.foldl (fun e c => cleared e n c) eventA) n cls =
      if cls ∈ classes then [] else pending eventA n cls := by
  induction classes generalizing eventA with
  | nil => exact (if_neg not_mem_nil).symm
  | cons c classes ih =>
    rw [foldl_cons,ih,pendingCleared]
    simp only [mem_cons]
    by_cases later : cls ∈ classes
    · rw [if_pos later,if_pos (.inr later)]
    · simp only [later,if_false,or_false]

end Reports

section Recording
variable {tab : TriggerEventTab} {pairs : List (UInt8 × UInt8)} {call : SetEntry} {delay : Nat}

def view (e : TriggerEventA) : Bool × UInt8 × UInt16 := (e.bValid,e.regClass,e.channel)

structure Recorded (tab : TriggerEventTab) (pairs : List (UInt8 × UInt8)) : Prop where
  count : tab.eventANo = pairs.length
  room : pairs.length ≤ maxTriggerEvent
  entries : (front tab.eventA tab.eventANo).map view = pairs.map fun p => (true,p.1,p.2.toUInt16)
  free : ∀ k, tab.eventANo ≤ k → k < maxTriggerEvent → (tab.eventA k).bValid = false

theorem recordedInit (tab) : Recorded (triEventInit tab) [] where
  count := rfl
  room := Nat.zero_le _
  entries := rfl
  free k _ inside := by
    simp only [triEventInit,if_pos inside]
    rfl

theorem channelBack (channel : UInt8) : channel.toUInt16.toUInt8 = channel := by simp

theorem recordedMem (recorded : Recorded tab pairs) (cls channel : UInt8) :
    (∃ k, k < tab.eventANo ∧ view (tab.eventA k) = (true,cls,channel.toUInt16)) ↔ (cls,channel) ∈ pairs := by
  have images : (true,cls,channel.toUInt16) ∈ (front tab.eventA tab.eventANo).map view ↔ (cls,channel) ∈ pairs := by
    rw [recorded.entries,mem_map]
    constructor
    · rintro ⟨⟨c,ch⟩,mem,same⟩
      simp only [Prod.mk.injEq,true_and] at same
      have equal := congrArg UInt16.toUInt8 same.2
      rw [channelBack,channelBack] at equal
      rwa [← same.1,← equal]
    · exact fun mem => ⟨_,mem,rfl⟩
  rw [← images,front,map_map,mem_map]
  simp only [mem_range,Function.comp_apply]

theorem alreadySetIff (recorded : Recorded tab pairs) : alreadySet tab call = true ↔ call.pair ∈ pairs := by
  have limit : tab.eventANo ≤ maxTriggerEvent := recorded.count ▸ recorded.room
  unfold alreadySet SetEntry.pair
  rw [← recordedMem recorded,any_eq_true]
  simp only [mem_range,Bool.and_eq_true,decide_eq_true_eq,view,Prod.mk.injEq]
  constructor
  · rintro ⟨k,inside,⟨valid,channel⟩,cls⟩
    refine ⟨k,?_,valid,cls,channel⟩
    by_contra behind
    have invalid := recorded.free k (by omega) inside
    exact absurd (valid.symm.trans invalid) (by decide)
  · rintro ⟨k,inside,valid,cls,channel⟩
    exact ⟨k,by omega,⟨valid,channel⟩,cls⟩

theorem entryView (call) : view (entryOf call) = (true,call.regClass,call.channelNo.toUInt16) := by
  unfold view entryOf
  split
  next => rfl
  next zero => rw [Decidable.not_not.mp zero]

theorem recordedSet (recorded : Recorded tab pairs) (legacy : call.htCapabilityLen = 0)
    (few : (addNew pairs call.pair).length ≤ maxTriggerEvent) :
    Recorded (triEventTableSetEntry delay tab call) (addNew pairs call.pair) := by
  unfold triEventTableSetEntry
  unfold addNew at few ⊢
  rw [if_pos legacy]
  by_cases old : call.pair ∈ pairs
  · rwa [if_pos ((alreadySetIff recorded).mpr old),if_pos old]
  · rw [if_neg old,length_append,length_singleton,← recorded.count] at few
    rw [if_neg (mt (alreadySetIff recorded).mp old),if_neg old,if_pos (Nat.lt_of_succ_le few)]
    refine ⟨?_,?_,?_,?_⟩
    · rw [length_append,length_singleton,recorded.count]
    · rwa [length_append,length_singleton,← recorded.count]
    · have before : front (ArrayFront.set tab.eventA tab.eventANo (entryOf call)) tab.eventANo =
          front tab.eventA tab.eventANo := frontCongr fun k inside => setOther (Nat.ne_of_lt inside)
      dsimp only
      rw [frontSucc,before,setSame,map_append,map_append,recorded.entries,map_singleton,entryView]
      rfl
    · intro k behind inside
      have other : k ≠ tab.eventANo := Nat.ne_of_gt behind
      dsimp only
      rw [setOther other]
      exact recorded.free k (Nat.le_of_lt behind) inside

theorem recordedRun (tab) (calls : List SetEntry) (legacy : ∀ c ∈ calls, c.htCapabilityLen = 0)
    (few : (distinct (calls.map SetEntry.pair)).length ≤ maxTriggerEvent) :
    Recorded (calls.foldl (triEventTableSetEntry delay) (triEventInit tab)) (distinct (calls.map SetEntry.pair)) := by
  induction calls using reverseRecOn with
  | nil => exact recordedInit tab
  | append_singleton calls call ih =>
    rw [map_append,map_singleton] at few ⊢
    have before := ih (fun c mem => legacy c (mem_append_left _ mem)) (Nat.le_trans (lengthMono _ _) few)
    rw [DistinctList.snoc] at few ⊢
    rw [foldl_concat]
    exact recordedSet before (legacy call (mem_append_right _ (mem_singleton.mpr rfl))) few

theorem recordedPending (recorded : Recorded tab pairs) (cls) :
    pending tab.eventA tab.eventANo cls = (pairs.filter fun p => decide (p.1 = cls)).map (·.2) := by
  have views : pending tab.eventA tab.eventANo cls =
      (((front tab.eventA tab.eventANo).map view).filter fun v => v.1 && decide (v.2.1 = cls)).map
        fun v => v.2.2.toUInt8 := by
    rw [filter_map,map_map]
    rfl
  rw [views,recorded.entries,filter_map,map_map]
  simp only [Function.comp_def,channelBack,Bool.true_and]

end Recording

theorem flatMapFilter {xs : List UInt8} {p : UInt8 → Bool} {f : UInt8 → List UInt8} :
    (xs.filter p).flatMap f = xs.flatMap fun x => if p x = true then f x else [] := by
  induction xs with
  | nil => rfl
  | cons x xs ih =>
    rw [filter_cons,flatMap_cons,← ih]
    split
    · rw [flatMap_cons]
    · rfl

section Whole
variable (tab₀ : TriggerEventTab) (delay : Nat) (calls : List SetEntry)

def afterCalls : TriggerEventTab := calls.foldl (triEventTableSetEntry delay) (triEventInit tab₀)

def channelsOf (cls : UInt8) : List UInt8 :=
  distinct (pending (afterCalls tab₀ delay calls).eventA (afterCalls tab₀ delay calls).eventANo cls)

def occurring : List UInt8 := regClassArray.filter fun cls => decide (cls ∈ calls.map SetEntry.regClass)

variable {tab₀ delay calls} (legacy : ∀ c ∈ calls, c.htCapabilityLen = 0)
  (few : (calls.map SetEntry.pair).dedup.length ≤ maxTriggerEvent)
include legacy few

theorem afterRecorded : Recorded (afterCalls tab₀ delay calls) (distinct (calls.map SetEntry.pair)) :=
  recordedRun tab₀ calls legacy (Nat.le_trans (Nat.le_of_eq (lengthDedup _)) few)

theorem channelsMem (cls channel) :
    channel ∈ channelsOf tab₀ delay calls cls ↔ (cls,channel) ∈ calls.map SetEntry.pair := by
  rw [channelsOf,DistinctList.mem,recordedPending (afterRecorded legacy few),mem_map]
  constructor
  · rintro ⟨⟨c,ch⟩,inside,rfl⟩
    obtain ⟨old,same⟩ := mem_filter.mp inside
    rw [← of_decide_eq_true same]
    exact DistinctList.mem.mp old
  · exact fun old => ⟨(cls,channel),mem_filter.mpr ⟨DistinctList.mem.mpr old,decide_eq_true rfl⟩,rfl⟩

theorem channelsShort (cls) : (channelsOf tab₀ delay calls cls).length ≤ maxTriggerEvent := by
  have recorded : Recorded (afterCalls tab₀ delay calls) _ := afterRecorded legacy few
  refine Nat.le_trans (lengthLe _) ?_
  rw [recordedPending recorded,length_map]
  exact Nat.le_trans (length_filter_le _ _) recorded.room

theorem channelsNil (cls) : channelsOf tab₀ delay calls cls = [] ↔ cls ∉ calls.map SetEntry.regClass := by
  simp only [eq_nil_iff_forall_not_mem,channelsMem legacy few,mem_map,SetEntry.pair,Prod.mk.injEq]
  constructor
  · rintro none ⟨call,mem,rfl⟩
    exact none call.channelNo ⟨call,mem,rfl,rfl⟩
  · rintro none channel ⟨call,mem,same,_⟩
    exact none ⟨call,mem,same⟩

theorem elementsOccurring :
    regClassArray.flatMap (classElement (afterCalls tab₀ delay calls).eventA (afterCalls tab₀ delay calls).eventANo) =
      (occurring calls).flatMap fun cls => element 73 (cls :: channelsOf tab₀ delay calls cls) := by
  rw [occurring,flatMapFilter]
  refine flatMap_congr fun cls _ => ?_
  have absent : channelsOf tab₀ delay calls cls = [] ↔ _ := channelsNil legacy few cls
  unfold channelsOf at absent
  rw [DistinctList.eqNil] at absent
  simp only [classElement,absent,decide_eq_true_eq,ite_not]
  rfl

end Whole

theorem intolerantReportExact (tab₀ : TriggerEventTab) (delay : Nat) (calls : List SetEntry)
    (legacy : ∀ c ∈ calls, c.htCapabilityLen = 0) (known : ∀ c ∈ calls, c.regClass ∈ regClassArray)
    (few : (calls.map SetEntry.pair).dedup.length ≤ maxTriggerEvent) (mem : Nat → UInt8) (pDest : Nat) :
    let tab := afterCalls tab₀ delay calls
    let report := buildIntolerantChannelRep tab mem pDest
    let again := buildIntolerantChannelRep (report.table tab)
    ∃ (classes : List UInt8) (channels : UInt8 → List UInt8),
      classes.Nodup ∧ (∀ cls, cls ∈ classes ↔ cls ∈ calls.map SetEntry.regClass) ∧
      (∀ cls, (channels cls).Nodup ∧ (channels cls).length ≤ maxTriggerEvent ∧
        ∀ channel, channel ∈ channels cls ↔ (cls,channel) ∈ calls.map SetEntry.pair) ∧
      report.mem = store mem pDest (classes.flatMap fun cls => element 73 (cls :: channels cls)) ∧
      report.frameLen = (classes.flatMap fun cls => element 73 (cls :: channels cls)).length ∧
      report.frameLen = (classes.map fun cls => 3 + (channels cls).length).sum ∧
      ∀ mem' pDest', (again mem' pDest').mem = mem' ∧ (again mem' pDest').frameLen = 0 := by
  intro tab report again
  have nodup : regClassArray.Nodup := by decide
  have whole : report = _ := reportAll tab.eventANo pDest nodup ⟨tab.eventA,mem,0,0⟩ rfl
  have second (mem' pDest') : again mem' pDest' = _ :=
    reportAll tab.eventANo pDest' nodup ⟨report.eventA,mem',0,0⟩ rfl
  have nothing : regClassArray.flatMap (classElement report.eventA tab.eventANo) = [] := by
    rw [flatMap_eq_nil_iff]
    intro cls inside
    rw [classElement,if_pos]
    rw [whole,pendingAll,if_pos inside]
  have elements : regClassArray.flatMap (classElement tab.eventA tab.eventANo) = _ := elementsOccurring legacy few
  refine ⟨occurring calls,channelsOf tab₀ delay calls,nodup.filter _,?_,?_,?_,?_,?_,fun mem' pDest' => ⟨?_,?_⟩⟩
  · intro cls
    rw [occurring,mem_filter,decide_eq_true_eq]
    refine and_iff_right_of_imp fun inside => ?_
    obtain ⟨call,mem,rfl⟩ := mem_map.mp inside
    exact known call mem
  · exact fun cls => ⟨DistinctList.nodup _,channelsShort legacy few cls,channelsMem legacy few cls⟩
  · rw [whole,← elements,Nat.add_zero]
  · rw [whole,← elements,Nat.zero_add]
  · rw [whole,elements,Nat.zero_add,length_flatMap]
    refine congrArg sum (map_congr_left fun cls _ => ?_)
    rw [elementLength,length_cons]
    omega
  · rw [second,nothing,storeNil]
  · rw [second,nothing]
    rfl

def beacon (regClass channelNo : UInt8) : SetEntry := ⟨[2,0,0,0,0,channelNo],false,0,regClass,channelNo⟩

def noEvents : TriggerEventTab := ⟨0,fun _ => ⟨false,[],0,0⟩,0⟩

def fourBeacons : List SetEntry := [beacon 0 6,beacon 32 1,beacon 0 6,beacon 0 11]

theorem intolerantReportExactTwo :
    ∃ (classes : List UInt8) (channels : UInt8 → List UInt8),
      (∀ cls, cls ∈ classes ↔ cls ∈ fourBeacons.map SetEntry.regClass) ∧
      (∀ channel, channel ∈ channels 0 ↔ ((0 : UInt8),channel) ∈ fourBeacons.map SetEntry.pair) ∧
      (buildIntolerantChannelRep (afterCalls noEvents 5 fourBeacons) (fun _ => 0) 0).frameLen =
        (classes.map fun cls => 3 + (channels cls).length).sum := by
  obtain ⟨classes,channels,_,which,lists,_,_,size,_⟩ :=
    intolerantReportExact noEvents 5 fourBeacons (by decide) (by decide) (by decide) (fun _ => 0) 0
  exact ⟨classes,channels,which,(lists 0).2.2,size⟩

end RtmpDriver.CoexReport
