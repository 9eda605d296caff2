import RtmpDriver.ArrayFront
import RtmpDriver.ChannelGroup
import Mathlib.Data.List.Forall2
import Mathlib.Logic.Function.Basic

/-! `BuildChannelListEx`: the channel list of a country. Nothing is cleared first: the flags of an entry are added to
those an earlier list left there, and the 40 MHz check looks through the old list. The tables of countries and of their
descriptors are parameters. -/
namespace RtmpDriver.CountryList
open ArrayFront ChannelGroup List

inductive Geography where
  | odor
  | idor
  | both
  deriving DecidableEq, Repr

structure ChDesp where
  firstChannel : Nat
  numOfCh : Nat
  maxTxPwr : UInt8
  geography : Geography
  dfsReq : Nat
  deriving DecidableEq, Repr

/- Country codes are the two letters that `strncmp` compares. -/
structure ChRegion (ι : Type) where
  countReg : Char × Char
  dfsType : Nat
  pChDesp : ι

/- The driver's tables: `desp p` are the descriptors at `p` before the one with channel 0 that ends them. A country that
is not listed gets the row of the world, and no array has more channels than the list holds. -/
structure Tables (ι : Type) where
  chRegion : List (ChRegion ι)
  world : ChRegion ι
  worldListed : chRegion.find? (fun row => row.countReg == ('W','O')) = some world
  desp : ι → List ChDesp
  fits : ∀ p, ((desp p).map ChDesp.numOfCh).foldr (· + ·) 0 ≤ maxNumOfChannels

structure Config (ι : Type) where
  countryCode : Char × Char
  geography : Geography
  phyMode : Nat
  dfsType : Nat
  rdDurRegion : Nat
  txPower : List ChannelTxPower
  pChDesp : Option ι

structure Adapter (ι : Type) where
  chans : ChannelState
  desp : ι → List ChDesp

def maxRdRegion : Nat := 5
def band5G : Nat := 1
def band24G : Nat := 2

def getChRegion {ι : Type} (T : Tables ι) (cntryCode : Char × Char) : ChRegion ι :=
  (T.chRegion.find? fun row => row.countReg == cntryCode).getD T.world

def chBandCheck (phyMode : Nat) : Nat :=
  let chType := (if wmodeCap5G phyMode then band5G else 0) ||| (if wmodeCap2G phyMode then band24G else 0)
  if chType = 0 then band24G else chType

section Build
variable {ι : Type} (cfg : Config ι)

def jpCut (channel : Nat) : Bool :=
  cfg.countryCode == ('J','P') && channel == 14 && cfg.phyMode != wmodeB

/- Entry `j` is written over whatever it held: the time, the mark of an affected channel and the flags stay. -/
def writeEntry (d : ChDesp) (regulatoryDomain channel : Nat) (p : ChannelTxPower) (j : Nat) (s : ChannelState) :
    ChannelState :=
  let e := { s.channelList j with
    power := p.power, power2 := p.power2, channel := channel, maxTxPwr := d.maxTxPwr, dfsReq := d.dfsReq,
    regulatoryDomain := regulatoryDomain }
  let s : ChannelState := { s with channelList := ArrayFront.set s.channelList j e }
  let e := { e with flags := groupFlags cfg.rdDurRegion s e.channel e.flags }
  { s with channelList := ArrayFront.set s.channelList j e }

def channelsOf (d : ChDesp) (increment : Nat) : List Nat :=
  (range d.numOfCh).map fun i => (d.firstChannel + i * increment) % 256

def fillLoop (d : ChDesp) (regulatoryDomain : Nat) : List Nat → Nat → ChannelState → Nat × ChannelState × Bool
  | [], j, s => (j,s,false)
  | channel :: rest, j, s =>
    if jpCut cfg channel then (j,s,true)
    else match cfg.txPower.find? fun p => channel == p.channel with
      | none => fillLoop d regulatoryDomain rest j s
      | some p => fillLoop d regulatoryDomain rest (j + 1) (writeEntry cfg d regulatoryDomain channel p j s)

def fillChList (d : ChDesp) (offset increment regulatoryDomain : Nat) (s : ChannelState) :
    ChDesp × Nat × ChannelState :=
  match fillLoop cfg d regulatoryDomain (channelsOf d increment) offset s with
  | (j,s,cut) => ({ d with numOfCh := if cut then d.numOfCh - 1 else d.numOfCh },j,{ s with channelListNum := j })

def bandSkips (chType : Nat) (d : ChDesp) : Bool :=
  if chType = band5G then decide (d.firstChannel ≤ 14)
  else if chType = band24G then decide (d.firstChannel > 14)
  else false

def inUse (d : ChDesp) : Bool :=
  !bandSkips (chBandCheck cfg.phyMode) d &&
    (d.geography == .both || cfg.geography == .both || d.geography == cfg.geography)

def increment (d : ChDesp) : Nat := if d.firstChannel > 14 then 4 else 1

def createLoop (regulatoryDomain : Nat) : List ChDesp → Nat → ChannelState → List ChDesp × ChannelState
  | [], _, s => ([],s)
  | d :: ds, offset, s =>
    if inUse cfg d then
      let filled := fillChList cfg d offset (increment d) regulatoryDomain s
      let rest := createLoop regulatoryDomain ds filled.2.1 filled.2.2
      (filled.1 :: rest.1,rest.2)
    else
      let rest := createLoop regulatoryDomain ds offset s
      (d :: rest.1,rest.2)

variable [DecidableEq ι]

def regulatoryDomain (row : ChRegion ι) : Nat := if cfg.dfsType ≠ maxRdRegion then cfg.dfsType else row.dfsType

def despInUse (row : ChRegion ι) : ι := cfg.pChDesp.getD row.pChDesp

def createChList (row : ChRegion ι) (a : Adapter ι) : Adapter ι :=
  let p := despInUse cfg row
  let done := createLoop cfg (regulatoryDomain cfg row) (a.desp p) 0 a.chans
  ⟨done.2,Function.update a.desp p done.1⟩

def buildChannelListEx (T : Tables ι) (a : Adapter ι) : Adapter ι :=
  createChList cfg (getChRegion T cfg.countryCode) a

end Build

def start {ι : Type} (T : Tables ι) : Adapter ι := ⟨⟨fun _ => zeroed,0⟩,T.desp⟩

def after {ι : Type} [DecidableEq ι] (T : Tables ι) (history : List (Config ι)) : Adapter ι :=
  history.foldl (fun a cfg => buildChannelListEx cfg T a) (start T)

/-! What the two checks read of the list: the channels in front, up to `ChannelListNum`. -/

def seen (s : ChannelState) : List Nat := front (fun k => (s.channelList k).channel) s.channelListNum

def ofChannels (channels : List Nat) : ChannelState :=
  ⟨fun k => { zeroed with channel := channels.getD k 0 },channels.length⟩

def capsOf (rdDurRegion : Nat) (channels : List Nat) (c : Nat) : UInt8 :=
  groupFlags rdDurRegion (ofChannels channels) c 0

def Near (c x : Nat) : Prop := c ≤ 13 ∧ (x = c + 4 ∨ x = c - 4)

def Paired (channels : List Nat) (c : Nat) : Prop := ∃ x ∈ channels, Near c x

section Caps
variable {s s' : ChannelState} {c rd : Nat} {channels : List Nat} {flags : UInt8}

theorem memSeen {x} : x ∈ seen s ↔ ∃ k, k < s.channelListNum ∧ (s.channelList k).channel = x := memFront

theorem seenOfChannels : seen (ofChannels channels) = channels := by
  apply ext_getElem?
  intro k
  by_cases inside : k < channels.length
  · have entry : (seen (ofChannels channels))[k]? = some (channels.getD k 0) := frontGet inside
    rw [entry,getD_eq_getElem?_getD,List.getElem?_eq_getElem inside]
    rfl
  · rw [List.getElem?_eq_none (Nat.not_lt.mp inside),List.getElem?_eq_none]
    rw [seen,frontLength]
    exact Nat.not_lt.mp inside

theorem groupCheckPaired (low : c ≤ 13) : nChannelGroupCheck s c = true ↔ Paired (seen s) c := by
  rw [groupCheckLow low]
  constructor
  · rintro ⟨k,inside,here⟩
    exact ⟨_,memSeen.mpr ⟨k,inside,rfl⟩,low,here⟩
  · rintro ⟨x,mem,_,here⟩
    obtain ⟨k,inside,rfl⟩ := memSeen.mp mem
    exact ⟨k,inside,here⟩

theorem groupCheckSeen (same : seen s = seen s') : nChannelGroupCheck s c = nChannelGroupCheck s' c := by
  rcases Nat.lt_trichotomy c 14 with low | rfl | high
  · rw [Bool.eq_iff_iff,groupCheckPaired (by omega),groupCheckPaired (by omega),same]
  · rfl
  · exact groupCheckHigh high

theorem groupFlagsCaps : groupFlags rd s c flags = flags ||| capsOf rd (seen s) c := by
  have same : nChannelGroupCheck s c = nChannelGroupCheck (ofChannels (seen s)) c := groupCheckSeen seenOfChannels.symm
  rw [capsOf,groupFlags,groupFlags,same]
  cases nChannelGroupCheck (ofChannels (seen s)) c <;> cases vht80ChannelGroup rd c <;>
    simp [UInt8.or_assoc]

theorem capsHigh (high : 14 < c) : capsOf rd channels c = capsOf rd [] c := by
  have same : nChannelGroupCheck (ofChannels channels) c = nChannelGroupCheck (ofChannels []) c := groupCheckHigh high
  rw [capsOf,capsOf,groupFlags,groupFlags,same]

theorem capsPaired (paired : Paired channels c) : capsOf rd channels c = channel40MCap := by
  have low : c ≤ 13 := paired.elim fun _ here => here.2.1
  have check : nChannelGroupCheck (ofChannels channels) c = true := by
    rwa [groupCheckPaired low,seenOfChannels]
  rw [capsOf,groupFlags,check,vht80Low (Nat.le_succ_of_le low)]
  rfl

theorem capsUnpaired (low : c ≤ 14) (unpaired : ¬Paired channels c) : capsOf rd channels c = 0 := by
  have check : nChannelGroupCheck (ofChannels channels) c = false := by
    rcases Nat.eq_or_lt_of_le low with rfl | less
    · rfl
    · rwa [Bool.eq_false_iff,ne_eq,groupCheckPaired (Nat.le_of_lt_succ less),seenOfChannels]
  rw [capsOf,groupFlags,check,vht80Low low]
  rfl

theorem unpairedNil : ¬Paired [] c := by simp [Paired]

theorem capsAbsorb : flags ||| capsOf rd channels c = capsOf rd [] c ↔
    flags ||| capsOf rd [] c = capsOf rd [] c ∧ ¬Paired channels c := by
  by_cases high : 14 < c
  · rw [capsHigh high]
    exact ⟨fun same => ⟨same,fun ⟨_,_,low,_⟩ => absurd low (by omega)⟩,And.left⟩
  · have low : c ≤ 14 := Nat.not_lt.mp high
    rw [capsUnpaired low unpairedNil]
    by_cases paired : Paired channels c
    · rw [capsPaired paired]
      refine iff_of_false (fun same => ?_) (fun both => both.2 paired)
      exact absurd (UInt8.or_eq_zero_iff.mp same).2 (by decide)
    · rw [capsUnpaired low paired]
      exact ⟨fun same => ⟨same,paired⟩,And.left⟩

end Caps

/-! The entries a descriptor offers under a configuration, as they stand in a list that held nothing before. -/

section Rows
variable {ι : Type} (cfg : Config ι)

def rowFor (d : ChDesp) (regulatoryDomain channel : Nat) (p : ChannelTxPower) : ChannelTxPower :=
  ⟨0,channel,false,p.power,p.power2,d.maxTxPwr,d.dfsReq,regulatoryDomain,0⟩

def poweredRow (d : ChDesp) (regulatoryDomain channel : Nat) : Option ChannelTxPower :=
  (cfg.txPower.find? fun p => channel == p.channel).map (rowFor d regulatoryDomain channel)

def rowsIn (d : ChDesp) (regulatoryDomain : Nat) (channels : List Nat) : List ChannelTxPower :=
  (channels.takeWhile fun c => !jpCut cfg c).filterMap (poweredRow cfg d regulatoryDomain)

def rowsOf (regulatoryDomain : Nat) (d : ChDesp) : List ChannelTxPower :=
  rowsIn cfg d regulatoryDomain (channelsOf d (increment d))

def blocks (regulatoryDomain : Nat) (ds : List ChDesp) : List (List ChannelTxPower) :=
  (ds.filter (inUse cfg)).map (rowsOf cfg regulatoryDomain)

end Rows

def putRow (rd j : Nat) (s : ChannelState) (r : ChannelTxPower) : ChannelState :=
  let old := s.channelList j
  let e := { r with
    remainingTimeForUse := old.remainingTimeForUse, bEffectedChannel := old.bEffectedChannel, flags := old.flags }
  let s : ChannelState := { s with channelList := ArrayFront.set s.channelList j e }
  let e := { e with flags := groupFlags rd s e.channel e.flags }
  { s with channelList := ArrayFront.set s.channelList j e }

def placeRows (rd : Nat) : List ChannelTxPower → Nat → ChannelState → ChannelState
  | [], _, s => s
  | r :: rows, j, s => placeRows rd rows (j + 1) (putRow rd j s r)

def placeBlocks (rd : Nat) : List (List ChannelTxPower) → Nat → ChannelState → ChannelState
  | [], _, s => s
  | b :: bs, j, s =>
    placeBlocks rd bs (j + b.length) { placeRows rd b j s with channelListNum := j + b.length }

section Writes
variable {ι : Type} {cfg : Config ι} {d : ChDesp} {dom j : Nat} {s : ChannelState} {channels : List Nat}

theorem fillLoopRows : fillLoop cfg d dom channels j s =
    (j + (rowsIn cfg d dom channels).length,placeRows cfg.rdDurRegion (rowsIn cfg d dom channels) j s,
      channels.any (jpCut cfg)) := by
  induction channels generalizing j s with
  | nil => rfl
  | cons c channels ih =>
    rw [fillLoop,rowsIn,any_cons]
    cases cut : jpCut cfg c with
    | true => simp [cut,placeRows]
    | false =>
      rw [if_neg (by simp),takeWhile_cons_of_pos (by simp [cut]),filterMap_cons,poweredRow]
      cases found : cfg.txPower.find? fun p => c == p.channel with
      | none =>
        rw [Bool.false_or]
        exact ih
      | some p =>
        have next := @ih (j + 1) (writeEntry cfg d dom c p j s)
        dsimp only [Option.map]
        rw [next,placeRows,length_cons,Bool.false_or,Nat.add_assoc,Nat.add_comm 1]
        rfl

theorem createLoopBlocks {ds} :
    (createLoop cfg dom ds j s).2 = placeBlocks cfg.rdDurRegion (blocks cfg dom ds) j s := by
  induction ds generalizing j s with
  | nil => rfl
  | cons d ds ih =>
    rw [createLoop,blocks]
    split
    next used =>
      dsimp only
      rw [filter_cons_of_pos used,map_cons,placeBlocks,ih,fillChList,fillLoopRows]
      rfl
    next unused =>
      dsimp only
      rw [filter_cons_of_neg unused,ih]
      rfl

end Writes

end RtmpDriver.CountryList
