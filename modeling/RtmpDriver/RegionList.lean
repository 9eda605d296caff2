import RtmpDriver.ArrayFront
import RtmpDriver.ChannelGroup
import Mathlib.Tactic.IntervalCases

/-! `BuildChannelList`: the channel list of a country region. The array is cleared, but not `ChannelListNum`, and each
entry's 40 MHz flag is decided as soon as the entry is written. -/
namespace RtmpDriver.RegionList
open ArrayFront ChannelGroup List

structure ChDesc where
  firstChannel : Nat
  numOfCh : Nat
  channelProp : UInt8
  deriving DecidableEq, Repr

def countryRegionChDesc2GHZ : List (Nat × List ChDesc) :=
  [(0,[⟨1,11,channelDefaultProp⟩]),
   (1,[⟨1,13,channelDefaultProp⟩]),
   (2,[⟨10,2,channelDefaultProp⟩]),
   (3,[⟨10,4,channelDefaultProp⟩]),
   (4,[⟨14,1,channelDefaultProp⟩]),
   (5,[⟨1,14,channelDefaultProp⟩]),
   (6,[⟨3,7,channelDefaultProp⟩]),
   (7,[⟨5,9,channelDefaultProp⟩]),
   (31,[⟨1,11,channelDefaultProp⟩,⟨12,3,channelPassiveScan⟩]),
   (32,[⟨1,11,channelDefaultProp⟩,⟨12,2,channelPassiveScan⟩]),
   (33,[⟨1,14,channelDefaultProp⟩])]

def countryRegionChDesc5GHZ : List (Nat × List ChDesc) :=
  [(0,[⟨36,8,channelDefaultProp⟩,⟨149,5,channelDefaultProp⟩]),
   (1,[⟨36,8,channelDefaultProp⟩,⟨100,11,channelDefaultProp⟩]),
   (2,[⟨36,8,channelDefaultProp⟩]),
   (3,[⟨52,4,channelDefaultProp⟩,⟨149,4,channelDefaultProp⟩]),
   (4,[⟨149,5,channelDefaultProp⟩]),
   (5,[⟨149,4,channelDefaultProp⟩]),
   (6,[⟨36,4,channelDefaultProp⟩]),
   (7,[⟨36,8,channelDefaultProp⟩,⟨100,11,channelDefaultProp⟩,⟨149,7,channelDefaultProp⟩]),
   (8,[⟨52,4,channelDefaultProp⟩]),
   (9,[⟨36,8,channelDefaultProp⟩,⟨100,5,channelDefaultProp⟩,⟨132,3,channelDefaultProp⟩,⟨149,5,channelDefaultProp⟩]),
   (10,[⟨36,4,channelDefaultProp⟩,⟨149,5,channelDefaultProp⟩]),
   (11,[⟨36,8,channelDefaultProp⟩,⟨100,6,channelDefaultProp⟩,⟨149,4,channelDefaultProp⟩]),
   (12,[⟨36,8,channelDefaultProp⟩,⟨100,11,channelDefaultProp⟩]),
   (13,[⟨52,4,channelDefaultProp⟩,⟨100,11,channelDefaultProp⟩,⟨149,4,channelDefaultProp⟩]),
   (14,[⟨36,8,channelDefaultProp⟩,⟨100,5,channelDefaultProp⟩,⟨136,2,channelDefaultProp⟩,⟨149,5,channelDefaultProp⟩]),
   (15,[⟨149,7,channelDefaultProp⟩]),
   (16,[⟨52,4,channelDefaultProp⟩,⟨149,5,channelDefaultProp⟩]),
   (17,[⟨36,4,channelDefaultProp⟩,⟨149,4,channelDefaultProp⟩]),
   (18,[⟨36,8,channelDefaultProp⟩,⟨100,5,channelDefaultProp⟩,⟨132,3,channelDefaultProp⟩]),
   (19,[⟨56,3,channelDefaultProp⟩,⟨100,11,channelDefaultProp⟩,⟨149,5,channelDefaultProp⟩]),
   (20,[⟨36,8,channelDefaultProp⟩,⟨100,7,channelDefaultProp⟩,⟨149,4,channelDefaultProp⟩]),
   (21,[⟨36,8,channelDefaultProp⟩,⟨100,11,channelDefaultProp⟩,⟨149,4,channelDefaultProp⟩]),
   (22,[⟨100,11,channelDefaultProp⟩])]

def totalChNum (pChDesc : List ChDesc) : Nat := (pChDesc.map ChDesc.numOfCh).foldr (· + ·) 0

def descAt {α : Type} (take : ChDesc → Nat → α) (other : α) : List ChDesc → Nat → α
  | [], _ => other
  | d :: ds, index => if index < d.numOfCh then take d index else descAt take other ds (index - d.numOfCh)

def getChannel5GHZ : List ChDesc → Nat → Nat := descAt (fun d index => d.firstChannel + index * 4) 0

def getChannel2GHZ : List ChDesc → Nat → Nat := descAt (fun d index => d.firstChannel + index) 0

def getChannelFlag : List ChDesc → Nat → UInt8 := descAt (fun d _ => d.channelProp) 0

def bandChannels (getChannel : List ChDesc → Nat → Nat) (pChDesc : List ChDesc) : List (Nat × UInt8) :=
  (range (totalChNum pChDesc)).map fun i => (getChannel pChDesc i,getChannelFlag pChDesc i)

structure Config where
  phyMode : Nat
  countryRegion : Nat
  countryRegionForABand : Nat
  rdDurRegion : Nat
  txPower : List ChannelTxPower

def regionDesc (table : List (Nat × List ChDesc)) (region : Nat) : Option (List ChDesc) :=
  (table.find? fun row => region % 128 == row.1).map Prod.snd

def copyTxPower (channel : Nat) (prop : UInt8) : List ChannelTxPower → ChannelTxPower → ChannelTxPower
  | [], e => e
  | p :: txPower, e => copyTxPower channel prop txPower { (if channel = p.channel then p else e) with flags := prop }

def radarCh : List Nat := [52,56,60,64,100,104,108,112,116,120,124,128,132,136,140]

def fillEntry (cfg : Config) (radar : List Nat) (pos : Nat) (s : ChannelState) (channel : Nat) (prop : UInt8) :
    ChannelState :=
  let e := copyTxPower channel prop cfg.txPower (s.channelList pos)
  let s : ChannelState := { s with channelList := ArrayFront.set s.channelList pos e }
  let e := { e with flags := groupFlags cfg.rdDurRegion s e.channel e.flags
                    dfsReq := if channel ∈ radar then 1 else e.dfsReq
                    maxTxPwr := 20 }
  { s with channelList := ArrayFront.set s.channelList pos e }

def fillBand (cfg : Config) (radar : List Nat) : List (Nat × UInt8) → Nat → ChannelState → ChannelState
  | [], _, s => s
  | (channel,prop) :: rest, pos, s => fillBand cfg radar rest (pos + 1) (fillEntry cfg radar pos s channel prop)

def clearList (s : ChannelState) : ChannelState :=
  { s with channelList := fun k => if k < maxNumOfChannels then zeroed else s.channelList k }

/- The channels of a band the mode has no part in are none; `none` stands for a region the table does not have. -/
def lowBand (cfg : Config) : Option (List (Nat × UInt8)) :=
  if wmode5GOnly cfg.phyMode then some []
  else (regionDesc countryRegionChDesc2GHZ cfg.countryRegion).map (bandChannels getChannel2GHZ)

def highBand (cfg : Config) : Option (List (Nat × UInt8)) :=
  if wmodeCap5G cfg.phyMode then
    (regionDesc countryRegionChDesc5GHZ cfg.countryRegionForABand).map (bandChannels getChannel5GHZ)
  else some []

/- A region that is not supported makes the function return where it is, with `ChannelListNum` as it was. -/
def buildChannelList (cfg : Config) (s : ChannelState) : ChannelState :=
  let s := clearList s
  match lowBand cfg with
  | none => s
  | some low =>
    let s := fillBand cfg [] low 0 s
    match highBand cfg with
    | none => s
    | some high => { fillBand cfg radarCh high low.length s with channelListNum := low.length + high.length }

variable {cfg : Config} {radar : List Nat} {s : ChannelState} {xs ys : List (Nat × UInt8)} {pos k c : Nat}
  {prop : UInt8}

def Powered (txPower : List ChannelTxPower) (c : Nat) : Prop := ∃ p ∈ txPower, p.channel = c

theorem copyKeeps {txPower e} (here : e.channel = c) (flags : e.flags = prop) :
    (copyTxPower c prop txPower e).channel = c ∧ (copyTxPower c prop txPower e).flags = prop := by
  induction txPower generalizing e with
  | nil => exact ⟨here,flags⟩
  | cons p txPower ih =>
    rw [copyTxPower]
    refine ih ?_ rfl
    dsimp only
    split
    next same => exact same.symm
    next => exact here

theorem copySpec {txPower e} (powered : Powered txPower c) :
    (copyTxPower c prop txPower e).channel = c ∧ (copyTxPower c prop txPower e).flags = prop := by
  induction txPower generalizing e with
  | nil => exact absurd powered (by simp [Powered])
  | cons p txPower ih =>
    rw [copyTxPower]
    by_cases same : c = p.channel
    · refine copyKeeps ?_ rfl
      dsimp only
      rw [if_pos same]
      exact same.symm
    · obtain ⟨q,mem,holds⟩ := powered
      rcases mem_cons.mp mem with rfl | later
      · exact absurd holds.symm same
      · exact ih ⟨q,later,holds⟩

def checked (cfg : Config) (pos : Nat) (s : ChannelState) (c : Nat) (prop : UInt8) : ChannelState :=
  { s with channelList := ArrayFront.set s.channelList pos (copyTxPower c prop cfg.txPower (s.channelList pos)) }

theorem fillEntryOther (other : k ≠ pos) : (fillEntry cfg radar pos s c prop).channelList k = s.channelList k := by
  rw [fillEntry]
  dsimp only
  rw [setOther other,setOther other]

theorem fillEntryChannel (powered : Powered cfg.txPower c) :
    ((fillEntry cfg radar pos s c prop).channelList pos).channel = c := by
  rw [fillEntry]
  dsimp only
  rw [setSame]
  exact (copySpec powered).1

theorem fillEntryFlags (powered : Powered cfg.txPower c) :
    ((fillEntry cfg radar pos s c prop).channelList pos).flags =
      groupFlags cfg.rdDurRegion (checked cfg pos s c prop) c prop := by
  rw [fillEntry]
  dsimp only
  rw [setSame]
  dsimp only
  rw [(copySpec powered).1,(copySpec powered).2]
  rfl

theorem fillBandNum : (fillBand cfg radar xs pos s).channelListNum = s.channelListNum := by
  induction xs generalizing pos s with
  | nil => rfl
  | cons x xs ih => exact ih

theorem fillBandBelow (below : k < pos) : (fillBand cfg radar xs pos s).channelList k = s.channelList k := by
  induction xs generalizing pos s with
  | nil => rfl
  | cons x xs ih =>
    rw [fillBand,ih (Nat.lt_succ_of_lt below)]
    exact fillEntryOther (Nat.ne_of_lt below)

theorem fillBandAppend :
    fillBand cfg radar (xs ++ ys) pos s = fillBand cfg radar ys (pos + xs.length) (fillBand cfg radar xs pos s) := by
  induction xs generalizing pos s with
  | nil => rfl
  | cons x xs ih =>
    rw [cons_append,fillBand,ih,fillBand,length_cons]
    congr 1
    omega

theorem fillBandChannel (powered : ∀ x ∈ xs, Powered cfg.txPower x.1) (from' : pos ≤ k) :
    ((fillBand cfg radar xs pos s).channelList k).channel =
      ((xs[k - pos]?).map Prod.fst).getD (s.channelList k).channel := by
  induction xs generalizing pos s with
  | nil => rfl
  | cons x xs ih =>
    rw [fillBand]
    rcases Nat.eq_or_lt_of_le from' with rfl | later
    · rw [fillBandBelow (Nat.lt_succ_self pos),fillEntryChannel (powered x (mem_cons_self ..)),Nat.sub_self]
      rfl
    · have there : (x :: xs)[k - pos]? = xs[k - (pos + 1)]? := by
        rw [show k - pos = (k - (pos + 1)) + 1 by omega,getElem?_cons_succ]
      rw [ih (fun y mem => powered y (mem_cons_of_mem _ mem)) later,there,
        fillEntryOther (Nat.ne_of_gt later)]

theorem fillBandFlags (powered : Powered cfg.txPower c) :
    ((fillBand cfg radar (xs ++ (c,prop) :: ys) pos s).channelList (pos + xs.length)).flags =
      groupFlags cfg.rdDurRegion (checked cfg (pos + xs.length) (fillBand cfg radar xs pos s) c prop) c prop := by
  rw [fillBandAppend,fillBand,fillBandBelow (Nat.lt_succ_self _)]
  exact fillEntryFlags powered

def HasCap40 (e : ChannelTxPower) : Prop := e.flags &&& channel40MCap ≠ 0

theorem groupFlagsCap {r t} (plain : prop = channelDefaultProp ∨ prop = channelPassiveScan) :
    groupFlags r t c prop &&& channel40MCap ≠ 0 ↔ nChannelGroupCheck t c = true := by
  rw [groupFlags]
  rcases plain with rfl | rfl <;> cases nChannelGroupCheck t c <;> cases vht80ChannelGroup r c <;> decide

def Behind (s : ChannelState) (x : Nat) : Prop :=
  ∃ k, maxNumOfChannels ≤ k ∧ k < s.channelListNum ∧ (s.channelList k).channel = x

section Low
variable {f n i : Nat}

theorem consecutive (names : xs.map Prod.fst = range' f n) (inside : k < n) :
    (xs[k]?).map Prod.fst = some (f + k) := by
  rw [← getElem?_map,names,getElem?_range' inside,Nat.one_mul]

theorem consecutiveEnd (names : xs.map Prod.fst = range' f n) (outside : n ≤ k) :
    (xs[k]?).map Prod.fst = none := by
  rw [← getElem?_map,names,getElem?_eq_none (by simpa using outside)]

theorem checkedChannel (names : xs.map Prod.fst = range' f i) (powered : ∀ x ∈ xs, Powered cfg.txPower x.1)
    (here : Powered cfg.txPower (f + i)) (k) :
    ((checked cfg i (fillBand cfg radar xs 0 (clearList s)) (f + i) prop).channelList k).channel =
      if k ≤ i then f + k else if k < maxNumOfChannels then 0 else (s.channelList k).channel := by
  rw [checked]
  dsimp only
  rcases Nat.lt_trichotomy k i with before | rfl | behind
  · rw [setOther (Nat.ne_of_lt before),fillBandChannel powered (Nat.zero_le k),Nat.sub_zero,consecutive names before,
      if_pos (Nat.le_of_lt before)]
    rfl
  · rw [setSame,(copySpec here).1,if_pos (Nat.le_refl k)]
  · rw [setOther (Nat.ne_of_gt behind),fillBandChannel powered (Nat.zero_le k),Nat.sub_zero,
      consecutiveEnd names (Nat.le_of_lt behind),if_neg (Nat.not_le.mpr behind),clearList]
    dsimp only [Option.getD]
    split <;> rfl

def Sees (s : ChannelState) (f i : Nat) : Prop :=
  Behind s (f + i + 4) ∨
    if 4 < f + i then (4 ≤ i ∧ i - 4 < s.channelListNum) ∨ Behind s (f + i - 4) else i + 1 < s.channelListNum

theorem seesIff (first : 1 ≤ f) (last : f + i ≤ 13) :
    (∃ k, k < s.channelListNum ∧
      ((if k ≤ i then f + k else if k < maxNumOfChannels then 0 else (s.channelList k).channel) = f + i + 4 ∨
        (if k ≤ i then f + k else if k < maxNumOfChannels then 0 else (s.channelList k).channel) = f + i - 4)) ↔
      Sees s f i := by
  have size : maxNumOfChannels = 59 := rfl
  constructor
  · rintro ⟨k,inside,found⟩
    by_cases low : k ≤ i
    · rw [if_pos low] at found
      refine .inr ?_
      rw [if_pos (by omega)]
      exact .inl (by omega)
    · rw [if_neg low] at found
      by_cases within : k < maxNumOfChannels
      · rw [if_pos within] at found
        refine .inr ?_
        rw [if_neg (by omega)]
        omega
      · rw [if_neg within] at found
        rcases found with above | below
        · exact .inl ⟨k,by omega,inside,above⟩
        · refine .inr ?_
          split
          · exact .inr ⟨k,by omega,inside,below⟩
          · omega
  · rintro (⟨k,outside,inside,above⟩ | below)
    · refine ⟨k,inside,.inl ?_⟩
      rwa [if_neg (by omega),if_neg (by omega)]
    · split at below
      next high =>
        rcases below with ⟨enough,inside⟩ | ⟨k,outside,inside,below⟩
        · refine ⟨i - 4,inside,.inr ?_⟩
          rw [if_pos (by omega)]
          omega
        · refine ⟨k,inside,.inr ?_⟩
          rwa [if_neg (by omega),if_neg (by omega)]
      next low =>
        refine ⟨i + 1,below,.inr ?_⟩
        rw [if_neg (by omega),if_pos (by omega)]
        omega

theorem lowFlag (names : xs.map Prod.fst = range' f n) (powered : ∀ x ∈ xs, Powered cfg.txPower x.1)
    (plain : ∀ x ∈ xs, x.2 = channelDefaultProp ∨ x.2 = channelPassiveScan)
    (first : 1 ≤ f) (inside : i < n) (last : f + i ≤ 13) :
    HasCap40 ((fillBand cfg radar xs 0 (clearList s)).channelList i) ↔ Sees s f i := by
  have size : xs.length = n := by simpa using congrArg length names
  have within : i < xs.length := by omega
  have parts : xs = xs.take i ++ xs[i] :: xs.drop (i + 1) := by simp
  have name : xs[i].1 = f + i := by
    have there := consecutive names inside
    rw [getElem?_eq_getElem within] at there
    exact Option.some.inj there
  have mem : xs[i] ∈ xs := getElem_mem within
  have entry : xs[i] = (f + i,xs[i].2) := Prod.ext name rfl
  generalize xs[i].2 = prop at entry
  rw [entry] at parts mem
  have taken : (xs.take i).map Prod.fst = range' f i := by
    have cut : range' f i ++ range' (f + i) (n - i) = range' f n := by
      rw [range'_append_1,Nat.add_sub_cancel' (Nat.le_of_lt inside)]
    rw [map_take,names,← cut]
    exact take_left' length_range'
  have earlier : ∀ x ∈ xs.take i, Powered cfg.txPower x.1 := fun x mem => powered x (mem_of_mem_take mem)
  have here : Powered cfg.txPower (f + i) := powered _ mem
  have flags : ((fillBand cfg radar (xs.take i ++ (f + i,prop) :: xs.drop (i + 1)) 0 (clearList s)).channelList
      (0 + (xs.take i).length)).flags = _ := fillBandFlags here
  rw [← parts,length_take,Nat.min_eq_left (Nat.le_of_lt within),Nat.zero_add] at flags
  have num : (checked cfg i (fillBand cfg radar (xs.take i) 0 (clearList s)) (f + i) prop).channelListNum =
      s.channelListNum := fillBandNum
  rw [HasCap40,flags,groupFlagsCap (plain _ mem),groupCheckLow last,← seesIff first last,num]
  simp only [checkedChannel taken earlier here]

def filled (cfg : Config) (s : ChannelState) (xs hs : List (Nat × UInt8)) : ChannelState :=
  { fillBand cfg radarCh hs xs.length (fillBand cfg [] xs 0 (clearList s)) with
    channelListNum := xs.length + hs.length }

def CapMatches (t : ChannelState) : Prop :=
  ∀ k, k < t.channelListNum → 1 ≤ (t.channelList k).channel → (t.channelList k).channel ≤ 13 →
    (HasCap40 (t.channelList k) ↔
      (∃ m, m < t.channelListNum ∧ (t.channelList m).channel = (t.channelList k).channel + 4) ∨
      (4 < (t.channelList k).channel ∧
        ∃ m, m < t.channelListNum ∧ (t.channelList m).channel = (t.channelList k).channel - 4))

variable {hs : List (Nat × UInt8)}

theorem filledLow (names : xs.map Prod.fst = range' f n) (powered : ∀ x ∈ xs, Powered cfg.txPower x.1)
    (inside : i < n) : ((filled cfg s xs hs).channelList i).channel = f + i := by
  have size : xs.length = n := by simpa using congrArg length names
  rw [filled]
  dsimp only
  rw [fillBandBelow (by omega),fillBandChannel powered (Nat.zero_le i),Nat.sub_zero,consecutive names inside]
  rfl

theorem filledHigh (powered : ∀ x ∈ hs, Powered cfg.txPower x.1) (high : ∀ x ∈ hs, 36 ≤ x.1)
    (from' : xs.length ≤ i) (inside : i < xs.length + hs.length) :
    36 ≤ ((filled cfg s xs hs).channelList i).channel := by
  have within : i - xs.length < hs.length := by omega
  rw [filled]
  dsimp only
  rw [fillBandChannel powered from',getElem?_eq_getElem within]
  exact high _ (getElem_mem within)

theorem filledAt (names : xs.map Prod.fst = range' f n) (powered : ∀ x ∈ xs, Powered cfg.txPower x.1)
    (powered' : ∀ x ∈ hs, Powered cfg.txPower x.1) (high : ∀ x ∈ hs, 36 ≤ x.1) {x} (low : x < 36) :
    (∃ m, m < xs.length + hs.length ∧ ((filled cfg s xs hs).channelList m).channel = x) ↔ f ≤ x ∧ x < f + n := by
  have size : xs.length = n := by simpa using congrArg length names
  constructor
  · rintro ⟨m,inside,rfl⟩
    by_cases first : m < n
    · rw [filledLow names powered first]
      omega
    · have := filledHigh (s := s) powered' high (Nat.le_trans (Nat.le_of_eq size) (Nat.not_lt.mp first)) inside
      omega
  · rintro ⟨from',inside⟩
    refine ⟨x - f,by omega,?_⟩
    rw [filledLow names powered (by omega)]
    omega

theorem capMatchesIff (names : xs.map Prod.fst = range' f n) (powered : ∀ x ∈ xs, Powered cfg.txPower x.1)
    (plain : ∀ x ∈ xs, x.2 = channelDefaultProp ∨ x.2 = channelPassiveScan) (first : 1 ≤ f)
    (powered' : ∀ x ∈ hs, Powered cfg.txPower x.1) (high : ∀ x ∈ hs, 36 ≤ x.1) :
    CapMatches (filled cfg s xs hs) ↔ ∀ i, i < n → f + i ≤ 13 → (Sees s f i ↔ i + 4 < n ∨ 4 ≤ i) := by
  have size : xs.length = n := by simpa using congrArg length names
  have atEntry : ∀ i, i < n → f + i ≤ 13 →
      ((HasCap40 ((filled cfg s xs hs).channelList i) ↔
        (∃ m, m < (filled cfg s xs hs).channelListNum ∧ ((filled cfg s xs hs).channelList m).channel = f + i + 4) ∨
        (4 < f + i ∧
          ∃ m, m < (filled cfg s xs hs).channelListNum ∧ ((filled cfg s xs hs).channelList m).channel = f + i - 4)) ↔
      (Sees s f i ↔ i + 4 < n ∨ 4 ≤ i)) := by
    intro i inside last
    have flag : HasCap40 ((filled cfg s xs hs).channelList i) ↔ Sees s f i := by
      have written : HasCap40 ((fillBand cfg [] xs 0 (clearList s)).channelList i) ↔ Sees s f i :=
        lowFlag names powered plain first inside last
      rw [← written,filled]
      dsimp only
      rw [fillBandBelow (by omega)]
    have above := filledAt (s := s) names powered powered' high (show f + i + 4 < 36 by omega)
    have below := filledAt (s := s) names powered powered' high (show f + i - 4 < 36 by omega)
    have num : (filled cfg s xs hs).channelListNum = xs.length + hs.length := rfl
    rw [flag,num,above,below]
    have listed : (f ≤ f + i + 4 ∧ f + i + 4 < f + n ∨ 4 < f + i ∧ f ≤ f + i - 4 ∧ f + i - 4 < f + n) ↔
        i + 4 < n ∨ 4 ≤ i := by omega
    rw [listed]
  constructor
  · intro matches' i inside last
    have here := matches' i (Nat.lt_of_lt_of_le (by omega) (Nat.le_add_right xs.length hs.length))
    rw [filledLow names powered inside] at here
    exact (atEntry i inside last).mp (here (by omega) last)
  · intro each k inside positive last
    by_cases low : k < n
    · rw [filledLow names powered low] at last ⊢
      exact (atEntry k low last).mpr (each k low last)
    · have := filledHigh (s := s) powered' high (Nat.le_trans (Nat.le_of_eq size) (Nat.not_lt.mp low)) inside
      omega

theorem behindLong {x} (behind : Behind s x) : 59 < s.channelListNum := by
  obtain ⟨k,outside,inside,_⟩ := behind
  exact Nat.lt_of_le_of_lt outside inside

theorem agreesFromOne (wide : 9 ≤ n) :
    (∀ i, i < n → 1 + i ≤ 13 → (Sees s 1 i ↔ i + 4 < n ∨ 4 ≤ i)) ↔ min n 13 ≤ s.channelListNum + 4 := by
  constructor
  · intro each
    have last := (each (min n 13 - 1) (by omega) (by omega)).mpr (by omega)
    rcases last with behind | below
    · have := behindLong behind
      omega
    · rw [if_pos (by omega)] at below
      rcases below with inside | behind
      · omega
      · have := behindLong behind
        omega
  · intro enough i inside last
    refine iff_of_true (.inr ?_) (by omega)
    split
    next => exact .inl (by omega)
    next => omega

theorem agreesIsolated (above : 4 < f) (narrow : n ≤ 4) (end' : f + n ≤ 14) :
    (∀ i, i < n → f + i ≤ 13 → (Sees s f i ↔ i + 4 < n ∨ 4 ≤ i)) ↔
      ∀ i, i < n → ¬Behind s (f + i + 4) ∧ ¬Behind s (f + i - 4) := by
  have sees : ∀ i, i < n → (Sees s f i ↔ Behind s (f + i + 4) ∨ Behind s (f + i - 4)) := by
    intro i inside
    rw [Sees,if_pos (by omega)]
    have early : ¬(4 ≤ i ∧ i - 4 < s.channelListNum) := by omega
    simp only [early,false_or]
  constructor
  · intro each i inside
    have here := each i inside (by omega)
    rw [sees i inside] at here
    exact ⟨fun behind => absurd (here.mp (.inl behind)) (by omega),
      fun behind => absurd (here.mp (.inr behind)) (by omega)⟩
  · intro clean i inside last
    rw [sees i inside]
    obtain ⟨noneAbove,noneBelow⟩ := clean i inside
    exact iff_of_false (fun behind => behind.elim noneAbove noneBelow) (by omega)

theorem agreesThreeToNine : (∀ i, i < 7 → 3 + i ≤ 13 → (Sees s 3 i ↔ i + 4 < 7 ∨ 4 ≤ i)) ↔
      (Behind s 1 ∨ Behind s 9) ∧ ¬Behind s 2 ∧ ¬Behind s 10 := by
  constructor
  · intro each
    have five := each 2 (by omega) (by omega)
    have six := each 3 (by omega) (by omega)
    simp [Sees] at five six
    exact ⟨five.symm,six.2,six.1⟩
  · rintro ⟨five,noTwo,noTen⟩ i inside last
    have long : 59 < s.channelListNum := five.elim behindLong behindLong
    interval_cases i <;> simp [Sees,noTwo,noTen,five.symm] <;> omega

theorem agreesFiveToThirteen : (∀ i, i < 9 → 5 + i ≤ 13 → (Sees s 5 i ↔ i + 4 < 9 ∨ 4 ≤ i)) ↔
      ∀ x, 1 ≤ x → x ≤ 4 → Behind s x ∨ Behind s (x + 8) := by
  constructor
  · intro each x from' upTo
    have here := (each (x - 1) (by omega) (by omega)).mpr (by omega)
    rcases here with above | below
    · exact .inr ((show 5 + (x - 1) + 4 = x + 8 by omega) ▸ above)
    · rw [if_pos (by omega)] at below
      rcases below with early | below
      · omega
      · exact .inl ((show 5 + (x - 1) - 4 = x by omega) ▸ below)
  · intro each i inside last
    have long : 59 < s.channelListNum := (each 1 (by omega) (by omega)).elim behindLong behindLong
    refine iff_of_true ?_ (by omega)
    by_cases early : i < 4
    · rcases each (i + 1) (by omega) (by omega) with below | above
      · refine .inr ?_
        rw [if_pos (by omega),show 5 + i - 4 = i + 1 by omega]
        exact .inr below
      · exact .inl ((show i + 1 + 8 = 5 + i + 4 by omega) ▸ above)
    · refine .inr ?_
      rw [if_pos (by omega)]
      exact .inl (by omega)

end Low

theorem descAtMem {α : Type} {take : ChDesc → Nat → α} {other ds} {index : Nat}
    (inside : index < totalChNum ds) : ∃ d ∈ ds, ∃ i, descAt take other ds index = take d i := by
  induction ds generalizing index with
  | nil => exact absurd inside (Nat.not_lt_zero index)
  | cons d ds ih =>
    have total : totalChNum (d :: ds) = d.numOfCh + totalChNum ds := rfl
    rw [descAt]
    split
    next => exact ⟨d,mem_cons_self ..,index,rfl⟩
    next later =>
      obtain ⟨e,mem,i,value⟩ := ih (show index - d.numOfCh < totalChNum ds by omega)
      exact ⟨e,mem_cons_of_mem _ mem,i,value⟩

theorem bandPlain {getChannel : List ChDesc → Nat → Nat} {ds : List ChDesc}
    (plain : ∀ d ∈ ds, d.channelProp = channelDefaultProp ∨ d.channelProp = channelPassiveScan) :
    ∀ x ∈ bandChannels getChannel ds, x.2 = channelDefaultProp ∨ x.2 = channelPassiveScan := by
  intro x mem
  obtain ⟨i,inside,rfl⟩ := mem_map.mp mem
  obtain ⟨d,there,_,value⟩ := descAtMem (mem_range.mp inside)
  dsimp only [getChannelFlag]
  rw [value]
  exact plain d there

theorem bandHigh {ds : List ChDesc} (high : ∀ d ∈ ds, 36 ≤ d.firstChannel) :
    ∀ x ∈ bandChannels getChannel5GHZ ds, 36 ≤ x.1 := by
  intro x mem
  obtain ⟨i,inside,rfl⟩ := mem_map.mp mem
  obtain ⟨d,there,_,value⟩ := descAtMem (mem_range.mp inside)
  dsimp only [getChannel5GHZ]
  rw [value]
  exact Nat.le_trans (high d there) (Nat.le_add_right ..)

theorem regionRow {table region ds} (found : regionDesc table region = some ds) : (region % 128,ds) ∈ table := by
  obtain ⟨row,there,rfl⟩ := Option.map_eq_some_iff.mp found
  have same : region % 128 = row.1 := by simpa using find?_some there
  rw [same]
  exact mem_of_find?_eq_some there

def Agrees (s : ChannelState) : Nat → Prop
  | 0 => 7 ≤ s.channelListNum
  | 2 => ∀ i, i < 2 → ¬Behind s (10 + i + 4) ∧ ¬Behind s (10 + i - 4)
  | 3 => ∀ i, i < 4 → ¬Behind s (10 + i + 4) ∧ ¬Behind s (10 + i - 4)
  | 4 => True
  | 6 => (Behind s 1 ∨ Behind s 9) ∧ ¬Behind s 2 ∧ ¬Behind s 10
  | 7 => ∀ x, 1 ≤ x → x ≤ 4 → Behind s x ∨ Behind s (x + 8)
  | _ => 9 ≤ s.channelListNum

theorem regionAgrees {region ds hs} (row : (region,ds) ∈ countryRegionChDesc2GHZ)
    (powered : ∀ x ∈ bandChannels getChannel2GHZ ds, Powered cfg.txPower x.1)
    (powered' : ∀ x ∈ hs, Powered cfg.txPower x.1) (high : ∀ x ∈ hs, 36 ≤ x.1) :
    CapMatches (filled cfg s (bandChannels getChannel2GHZ ds) hs) ↔ Agrees s region := by
  have reduced : ∀ f n, (bandChannels getChannel2GHZ ds).map Prod.fst = range' f n → 1 ≤ f →
      (∀ d ∈ ds, d.channelProp = channelDefaultProp ∨ d.channelProp = channelPassiveScan) →
      (CapMatches (filled cfg s (bandChannels getChannel2GHZ ds) hs) ↔
        ∀ i, i < n → f + i ≤ 13 → (Sees s f i ↔ i + 4 < n ∨ 4 ≤ i)) :=
    fun f n names first plain => capMatchesIff names powered (bandPlain plain) first powered' high
  have fromOne : ∀ n, (bandChannels getChannel2GHZ ds).map Prod.fst = range' 1 n → 9 ≤ n →
      (∀ d ∈ ds, d.channelProp = channelDefaultProp ∨ d.channelProp = channelPassiveScan) →
      (CapMatches (filled cfg s (bandChannels getChannel2GHZ ds) hs) ↔ min n 13 - 4 ≤ s.channelListNum) :=
    fun n names wide plain =>
      ((reduced 1 n names (Nat.le_refl 1) plain).trans (agreesFromOne wide)).trans Nat.sub_le_iff_le_add.symm
  simp only [countryRegionChDesc2GHZ,mem_cons,Prod.mk.injEq,not_mem_nil,or_false] at row
  rcases row with ⟨rfl,rfl⟩ | ⟨rfl,rfl⟩ | ⟨rfl,rfl⟩ | ⟨rfl,rfl⟩ | ⟨rfl,rfl⟩ | ⟨rfl,rfl⟩ | ⟨rfl,rfl⟩ | ⟨rfl,rfl⟩ |
    ⟨rfl,rfl⟩ | ⟨rfl,rfl⟩ | ⟨rfl,rfl⟩
  · exact fromOne 11 rfl (by omega) (by simp)
  · exact fromOne 13 rfl (by omega) (by simp)
  · rw [reduced 10 2 rfl (by omega) (by simp)]
    exact agreesIsolated (by omega) (by omega) (by omega)
  · rw [reduced 10 4 rfl (by omega) (by simp)]
    exact agreesIsolated (by omega) (by omega) (by omega)
  · rw [reduced 14 1 rfl (by omega) (by simp)]
    exact iff_of_true (fun i _ last => absurd last (by omega)) trivial
  · exact fromOne 14 rfl (by omega) (by simp)
  · rw [reduced 3 7 rfl (by omega) (by simp)]
    exact agreesThreeToNine
  · rw [reduced 5 9 rfl (by omega) (by simp)]
    exact agreesFiveToThirteen
  · exact fromOne 14 rfl (by omega) (by simp)
  · exact fromOne 13 rfl (by omega) (by simp)
  · exact fromOne 14 rfl (by omega) (by simp)

def Supplied (cfg : Config) (table : List (Nat × List ChDesc)) (getChannel : List ChDesc → Nat → Nat)
    (region : Nat) : Prop :=
  ∃ ds, regionDesc table region = some ds ∧ ∀ x ∈ bandChannels getChannel ds, Powered cfg.txPower x.1

theorem buildFilled {xs hs} (low : lowBand cfg = some xs) (high : highBand cfg = some hs) :
    buildChannelList cfg s = filled cfg s xs hs := by
  rw [buildChannelList,low]
  dsimp only
  rw [high]
  rfl

theorem highBandSome (high : wmodeCap5G cfg.phyMode = true →
      Supplied cfg countryRegionChDesc5GHZ getChannel5GHZ cfg.countryRegionForABand) :
    ∃ hs, highBand cfg = some hs ∧ (∀ x ∈ hs, Powered cfg.txPower x.1) ∧ ∀ x ∈ hs, 36 ≤ x.1 := by
  rw [highBand]
  split
  next mode =>
    obtain ⟨ds,found,powered⟩ := high mode
    have firsts : ∀ row ∈ countryRegionChDesc5GHZ, ∀ d ∈ row.2, 36 ≤ d.firstChannel := by decide
    rw [found]
    exact ⟨_,rfl,powered,bandHigh (firsts _ (regionRow found))⟩
  next => exact ⟨[],rfl,by simp,by simp⟩

theorem capMatchesNeighbours (cfg : Config) (s : ChannelState)
    (low : wmode5GOnly cfg.phyMode = false →
      Supplied cfg countryRegionChDesc2GHZ getChannel2GHZ cfg.countryRegion)
    (high : wmodeCap5G cfg.phyMode = true →
      Supplied cfg countryRegionChDesc5GHZ getChannel5GHZ cfg.countryRegionForABand) :
    CapMatches (buildChannelList cfg s) ↔
      wmode5GOnly cfg.phyMode = true ∨ Agrees s (cfg.countryRegion % 128) := by
  obtain ⟨hs,highs,powered',above⟩ := highBandSome high
  cases mode : wmode5GOnly cfg.phyMode with
  | true =>
    have none' : lowBand cfg = some [] := if_pos mode
    rw [buildFilled none' highs,capMatchesIff (f := 1) (n := 0) rfl (by simp) (by simp) (Nat.le_refl 1) powered' above]
    exact iff_of_true (fun i inside => absurd inside (Nat.not_lt_zero i)) (.inl rfl)
  | false =>
    obtain ⟨ds,found,powered⟩ := low mode
    have lows : lowBand cfg = some (bandChannels getChannel2GHZ ds) := by
      rw [lowBand,if_neg (by simp [mode]),found]
      rfl
    rw [buildFilled lows highs,regionAgrees (regionRow found) powered powered' above]
    simp

def plainConfig : Config :=
  ⟨wmodeB ||| wmodeG,0,0,0,(range' 1 11).map fun c => { zeroed with channel := c }⟩

theorem plainSupplied : Supplied plainConfig countryRegionChDesc2GHZ getChannel2GHZ plainConfig.countryRegion := by
  refine ⟨[⟨1,11,channelDefaultProp⟩],rfl,?_⟩
  rw [show bandChannels getChannel2GHZ [⟨1,11,channelDefaultProp⟩] = (range' 1 11).map fun c => (c,0) from rfl]
  intro x mem
  obtain ⟨c,inside,rfl⟩ := mem_map.mp mem
  exact ⟨{ zeroed with channel := c },mem_map.mpr ⟨c,inside,rfl⟩,rfl⟩

theorem capMatchesRebuilt : CapMatches (buildChannelList plainConfig ⟨fun _ => zeroed,11⟩) :=
  (capMatchesNeighbours plainConfig ⟨fun _ => zeroed,11⟩ (fun _ => plainSupplied)
    (fun mode => absurd mode (by decide))).mpr (.inr (by decide : (7 : Nat) ≤ 11))

theorem capMissesFirstBuild :
    wmodeCap5G plainConfig.phyMode = false ∧
    Supplied plainConfig countryRegionChDesc2GHZ getChannel2GHZ plainConfig.countryRegion ∧
    ¬CapMatches (buildChannelList plainConfig ⟨fun _ => zeroed,0⟩) := by
  refine ⟨by decide,plainSupplied,fun matches' => ?_⟩
  have first := matches' 0 (by decide) (by decide) (by decide)
  exact absurd (first.mpr (.inl ⟨4,by decide,by decide⟩)) (by simp only [HasCap40]; decide)

end RtmpDriver.RegionList
