import RtmpDriver.CountryList
import Mathlib.Data.List.TakeWhile

/-! What `BuildChannelListEx` makes of a list that earlier calls have left. -/
namespace RtmpDriver.CountryHistory
open ArrayFront ChannelGroup CountryList List

section Place
variable {rd j k pos i : Nat} {s : ChannelState} {r : ChannelTxPower} {rows : List ChannelTxPower}
  {bs : List (List ChannelTxPower)}

def chanAt (rows : List ChannelTxPower) (m : Nat) : Nat := ((rows[m]?).map ChannelTxPower.channel).getD 0

def mixed (s : ChannelState) (rows : List ChannelTxPower) (pos i : Nat) : List Nat :=
  front (fun m => if pos ≤ m ∧ m ≤ pos + i then chanAt rows (m - pos) else (s.channelList m).channel) s.channelListNum

def overwritten (old r : ChannelTxPower) (caps : UInt8) : ChannelTxPower :=
  { r with
    remainingTimeForUse := old.remainingTimeForUse, bEffectedChannel := old.bEffectedChannel,
    flags := old.flags ||| caps }

theorem putRowOther (other : k ≠ j) : (putRow rd j s r).channelList k = s.channelList k := by
  rw [putRow]
  dsimp only
  rw [setOther other,setOther other]

theorem putRowHere : (putRow rd j s r).channelList j =
    overwritten (s.channelList j) r
      (capsOf rd (front (fun m => if m = j then r.channel else (s.channelList m).channel) s.channelListNum)
        r.channel) := by
  rw [putRow]
  dsimp only
  rw [setSame,groupFlagsCaps,overwritten]
  have visible : ∀ e : ChannelTxPower, e.channel = r.channel →
      seen ⟨ArrayFront.set s.channelList j e,s.channelListNum⟩ =
        front (fun m => if m = j then r.channel else (s.channelList m).channel) s.channelListNum := by
    intro e same
    refine frontCongr fun m _ => ?_
    dsimp only
    split
    next here => rw [here,setSame,same]
    next other => rw [setOther other]
  rw [visible { r with
    remainingTimeForUse := (s.channelList j).remainingTimeForUse,
    bEffectedChannel := (s.channelList j).bEffectedChannel, flags := (s.channelList j).flags } rfl]

theorem placeRowsBelow (below : k < pos) : (placeRows rd rows pos s).channelList k = s.channelList k := by
  induction rows generalizing pos s with
  | nil => rfl
  | cons r rows ih =>
    rw [placeRows,ih (Nat.lt_succ_of_lt below)]
    exact putRowOther (Nat.ne_of_lt below)

theorem placeRowsAbove (above : pos + rows.length ≤ k) : (placeRows rd rows pos s).channelList k = s.channelList k := by
  induction rows generalizing pos s with
  | nil => rfl
  | cons r rows ih =>
    rw [length_cons] at above
    rw [placeRows,ih (by omega)]
    exact putRowOther (by omega)

theorem placeRowsAt (entry : rows[i]? = some r) : (placeRows rd rows pos s).channelList (pos + i) =
    overwritten (s.channelList (pos + i)) r (capsOf rd (mixed s rows pos i) r.channel) := by
  induction rows generalizing pos s i with
  | nil => exact absurd entry (by simp)
  | cons q rows ih =>
    rw [placeRows]
    cases i with
    | zero =>
      have same : q = r := Option.some.inj entry
      subst same
      show (placeRows rd rows (pos + 1) (putRow rd pos s q)).channelList pos =
        overwritten (s.channelList pos) q (capsOf rd (mixed s (q :: rows) pos 0) q.channel)
      rw [placeRowsBelow (Nat.lt_succ_self pos),putRowHere]
      congr 2
      refine frontCongr fun m _ => ?_
      by_cases here : m = pos
      · rw [if_pos here,if_pos (by omega),here,Nat.sub_self]
        rfl
      · rw [if_neg here,if_neg (by omega)]
    | succ i =>
      have later : rows[i]? = some r := entry
      have there := @ih (pos + 1) i (putRow rd pos s q) later
      rw [show pos + (i + 1) = pos + 1 + i by omega,there,putRowOther (by omega)]
      congr 2
      refine frontCongr fun m _ => ?_
      by_cases first : m = pos
      · rw [if_neg (by omega),if_pos (by omega),first,putRowHere,Nat.sub_self]
        rfl
      · rw [putRowOther first]
        by_cases inside : pos + 1 ≤ m ∧ m ≤ pos + 1 + i
        · rw [if_pos inside,if_pos (by omega),show m - pos = m - (pos + 1) + 1 by omega]
          rfl
        · rw [if_neg inside,if_neg (by omega)]

theorem placeBlocksBelow (below : k < pos) : (placeBlocks rd bs pos s).channelList k = s.channelList k := by
  induction bs generalizing pos s with
  | nil => rfl
  | cons b bs ih =>
    rw [placeBlocks,ih (by omega)]
    exact placeRowsBelow below

theorem placeBlocksAbove (above : pos + bs.flatten.length ≤ k) :
    (placeBlocks rd bs pos s).channelList k = s.channelList k := by
  induction bs generalizing pos s with
  | nil => rfl
  | cons b bs ih =>
    rw [flatten_cons,length_append] at above
    rw [placeBlocks,ih (by omega)]
    exact placeRowsAbove (by omega)

theorem placeBlocksNum (number : s.channelListNum = pos) :
    (placeBlocks rd bs pos s).channelListNum = pos + bs.flatten.length := by
  induction bs generalizing pos s with
  | nil => exact number
  | cons b bs ih =>
    rw [placeBlocks,flatten_cons,length_append,← Nat.add_assoc]
    exact ih rfl

def capList (rd : Nat) : List Nat → List (List ChannelTxPower) → List UInt8
  | _, [] => []
  | earlier, b :: bs =>
    b.map (fun r => capsOf rd earlier r.channel) ++ capList rd (earlier ++ b.map ChannelTxPower.channel) bs

theorem capListLength {earlier} : (capList rd earlier bs).length = bs.flatten.length := by
  induction bs generalizing earlier with
  | nil => rfl
  | cons b bs ih => simp [capList,ih]

theorem frontRows : front (chanAt rows) rows.length = rows.map ChannelTxPower.channel := by
  apply ext_getElem?
  intro m
  rw [List.getElem?_map]
  by_cases inside : m < rows.length
  · rw [frontGet inside,chanAt,List.getElem?_eq_getElem inside]
    rfl
  · have outside : rows.length ≤ m := Nat.not_lt.mp inside
    rw [List.getElem?_eq_none (by simpa using outside),List.getElem?_eq_none outside]
    rfl

theorem mixedSettled (number : s.channelListNum = pos) : mixed s rows pos i = seen s := by
  refine frontCongr fun m inside => ?_
  rw [if_neg (by omega)]

theorem seenPlaced : seen { placeRows rd rows pos s with channelListNum := pos + rows.length } =
    front (fun m => (s.channelList m).channel) pos ++ rows.map ChannelTxPower.channel := by
  have split : ∀ e : Nat → Nat,
      front e (pos + rows.length) = front e pos ++ front (fun m => e (pos + m)) rows.length := by
    intro e
    rw [front,range_add,map_append,map_map]
    rfl
  rw [seen,split,← frontRows]
  congr 1
  · refine frontCongr fun m inside => ?_
    dsimp only
    rw [placeRowsBelow inside]
  · refine frontCongr fun m inside => ?_
    dsimp only
    rw [placeRowsAt (List.getElem?_eq_getElem inside),chanAt,List.getElem?_eq_getElem inside]
    rfl

theorem placeBlocksAt {caps earlier} (number : s.channelListNum = pos) (visible : seen s = earlier)
    (entry : bs.flatten[i]? = some r) (flag : (capList rd earlier bs)[i]? = some caps) :
    (placeBlocks rd bs pos s).channelList (pos + i) = overwritten (s.channelList (pos + i)) r caps := by
  induction bs generalizing pos s i earlier with
  | nil => exact absurd entry (by simp)
  | cons b bs ih =>
    rw [placeBlocks]
    rw [flatten_cons] at entry
    rw [capList] at flag
    by_cases inside : i < b.length
    · rw [List.getElem?_append_left inside] at entry
      rw [List.getElem?_append_left (by simpa using inside),List.getElem?_map,entry] at flag
      have same : capsOf rd earlier r.channel = caps := Option.some.inj flag
      rw [placeBlocksBelow (by omega),← same,← visible]
      dsimp only
      rw [placeRowsAt entry,mixedSettled number]
    · have behind : b.length ≤ i := Nat.not_lt.mp inside
      rw [List.getElem?_append_right behind] at entry
      rw [List.getElem?_append_right (by simpa using behind),length_map] at flag
      have counted : seen { placeRows rd b pos s with channelListNum := pos + b.length } =
          earlier ++ b.map ChannelTxPower.channel := by
        rw [seenPlaced,← number,← visible,seen]
      have there := ih rfl counted entry flag
      rw [show pos + b.length + (i - b.length) = pos + i by omega] at there
      rw [there]
      dsimp only
      rw [placeRowsAbove (by omega)]

end Place

/-! One call on any list. -/

section Build
variable {rd k : Nat} {s : ChannelState} {r : ChannelTxPower} {b : List ChannelTxPower}
  {bs : List (List ChannelTxPower)}

def ownCaps (rd : Nat) (bs : List (List ChannelTxPower)) (k : Nat) : UInt8 := ((capList rd [] bs)[k]?).getD 0

def capsFrom (rd : Nat) (s : ChannelState) (b : List ChannelTxPower) (bs : List (List ChannelTxPower)) (k : Nat) :
    UInt8 :=
  if k < b.length then capsOf rd (mixed s b 0 k) (chanAt b k) else ownCaps rd (b :: bs) k

theorem ownCapsFirst (inside : k < b.length) : ownCaps rd (b :: bs) k = capsOf rd [] (chanAt b k) := by
  rw [ownCaps,capList,List.getElem?_append_left (by simpa using inside),List.getElem?_map,chanAt,
    List.getElem?_eq_getElem inside]
  rfl

theorem placedNum : (placeBlocks rd (b :: bs) 0 s).channelListNum = (b :: bs).flatten.length := by
  rw [placeBlocks,flatten_cons,length_append,Nat.zero_add]
  exact placeBlocksNum rfl

theorem placedAt (entry : (b :: bs).flatten[k]? = some r) :
    (placeBlocks rd (b :: bs) 0 s).channelList k = overwritten (s.channelList k) r (capsFrom rd s b bs k) := by
  rw [flatten_cons] at entry
  rw [placeBlocks,Nat.zero_add,capsFrom]
  by_cases inside : k < b.length
  · rw [List.getElem?_append_left inside] at entry
    have there : (placeRows rd b 0 s).channelList (0 + k) = _ := placeRowsAt entry
    rw [Nat.zero_add] at there
    rw [if_pos inside,placeBlocksBelow inside]
    dsimp only
    rw [there,chanAt,entry]
    rfl
  · have behind : b.length ≤ k := Nat.not_lt.mp inside
    rw [List.getElem?_append_right behind] at entry
    have within : k - b.length < (capList rd (b.map ChannelTxPower.channel) bs).length := by
      rw [capListLength]
      exact (List.getElem?_eq_some_iff.mp entry).1
    have flag : (capList rd (b.map ChannelTxPower.channel) bs)[k - b.length]? = some (ownCaps rd (b :: bs) k) := by
      rw [ownCaps,capList,List.getElem?_append_right (by simpa using behind),length_map,nil_append,
        List.getElem?_eq_getElem within]
      rfl
    have visible : seen { placeRows rd b 0 s with channelListNum := 0 + b.length } = b.map ChannelTxPower.channel :=
      seenPlaced
    rw [Nat.zero_add] at visible
    have there := placeBlocksAt rfl visible entry flag
    dsimp only at there
    rw [Nat.add_sub_cancel' behind,placeRowsAbove (by omega)] at there
    rwa [if_neg inside]

def Idle (s : ChannelState) : Prop :=
  ∀ k, (s.channelList k).remainingTimeForUse = 0 ∧ (s.channelList k).bEffectedChannel = false

def SameList (t u : ChannelState) : Prop :=
  t.channelListNum = u.channelListNum ∧ ∀ k, k < t.channelListNum → t.channelList k = u.channelList k

theorem overEq {old old' caps caps'}
    (time : old.remainingTimeForUse = old'.remainingTimeForUse) (mark : old.bEffectedChannel = old'.bEffectedChannel) :
    overwritten old r caps = overwritten old' r caps' ↔ old.flags ||| caps = old'.flags ||| caps' := by
  simp [overwritten,time,mark]

variable {s' : ChannelState}

theorem placedSame (idle : Idle s) (idle' : Idle s') :
    SameList (placeBlocks rd (b :: bs) 0 s) (placeBlocks rd (b :: bs) 0 s') ↔ ∀ k, k < (b :: bs).flatten.length →
        (s.channelList k).flags ||| capsFrom rd s b bs k = (s'.channelList k).flags ||| capsFrom rd s' b bs k := by
  have entries : ∀ k, k < (b :: bs).flatten.length →
      ((placeBlocks rd (b :: bs) 0 s).channelList k = (placeBlocks rd (b :: bs) 0 s').channelList k ↔
        (s.channelList k).flags ||| capsFrom rd s b bs k = (s'.channelList k).flags ||| capsFrom rd s' b bs k) := by
    intro k inside
    have entry := List.getElem?_eq_getElem inside
    rw [placedAt entry,placedAt entry]
    exact overEq ((idle k).1.trans (idle' k).1.symm) ((idle k).2.trans (idle' k).2.symm)
  rw [SameList,placedNum,placedNum]
  exact ⟨fun same k inside => (entries k inside).mp (same.2 k inside),
    fun same => ⟨rfl,fun k inside => (entries k inside).mpr (same k inside)⟩⟩

theorem capsFromFresh : capsFrom rd ⟨fun _ => zeroed,0⟩ b bs k = ownCaps rd (b :: bs) k := by
  rw [capsFrom]
  split
  next inside => exact (ownCapsFirst inside).symm
  next => rfl

theorem sameAsFresh (idle : Idle s) :
    SameList (placeBlocks rd (b :: bs) 0 s) (placeBlocks rd (b :: bs) 0 ⟨fun _ => zeroed,0⟩) ↔
      (∀ k, k < (b :: bs).flatten.length →
        (s.channelList k).flags ||| ownCaps rd (b :: bs) k = ownCaps rd (b :: bs) k) ∧
      ∀ k, k < b.length → ¬Paired (mixed s b 0 k) (chanAt b k) := by
  rw [placedSame idle fun _ => ⟨rfl,rfl⟩]
  have first : b.length ≤ (b :: bs).flatten.length := by simp
  have zero : ∀ x : UInt8, zeroed.flags ||| x = x := fun x => by simp [zeroed]
  simp only [capsFromFresh,zero]
  have entries : ∀ k, ((s.channelList k).flags ||| capsFrom rd s b bs k = ownCaps rd (b :: bs) k ↔
      (s.channelList k).flags ||| ownCaps rd (b :: bs) k = ownCaps rd (b :: bs) k ∧
        (k < b.length → ¬Paired (mixed s b 0 k) (chanAt b k))) := by
    intro k
    by_cases inside : k < b.length
    · rw [capsFrom,if_pos inside,ownCapsFirst inside,capsAbsorb]
      simp only [inside,forall_const]
    · rw [capsFrom,if_neg inside]
      simp only [inside,false_implies,and_true]
  constructor
  · intro each
    exact ⟨fun k inside => ((entries k).mp (each k inside)).1,
      fun k inside => ((entries k).mp (each k (Nat.lt_of_lt_of_le inside first))).2 inside⟩
  · rintro ⟨flags,apart⟩ k inside
    exact (entries k).mpr ⟨flags k inside,apart k⟩

theorem placedChannel (inside : k < (b :: bs).flatten.length) :
    ((placeBlocks rd (b :: bs) 0 s).channelList k).channel = chanAt (b :: bs).flatten k := by
  have entry := List.getElem?_eq_getElem inside
  rw [placedAt entry,chanAt,entry]
  rfl

theorem mixedPlaced (inside : k < b.length) :
    mixed (placeBlocks rd (b :: bs) 0 s) b 0 k = (b :: bs).flatten.map ChannelTxPower.channel := by
  rw [mixed,placedNum,← frontRows]
  refine frontCongr fun m within => ?_
  split
  next here =>
    have first : m < b.length := by omega
    rw [chanAt,chanAt,flatten_cons,List.getElem?_append_left (by omega),Nat.sub_zero]
  next => exact placedChannel within

theorem placedIdle (idle : Idle s) : Idle (placeBlocks rd bs 0 s) := by
  cases bs with
  | nil => exact idle
  | cons b bs =>
    intro k
    by_cases inside : k < (b :: bs).flatten.length
    · rw [placedAt (List.getElem?_eq_getElem inside)]
      exact idle k
    · rw [placeBlocksAbove (by omega)]
      exact idle k

theorem freshFlags (inside : k < (b :: bs).flatten.length) :
    ((placeBlocks rd (b :: bs) 0 ⟨fun _ => zeroed,0⟩).channelList k).flags = ownCaps rd (b :: bs) k := by
  rw [placedAt (List.getElem?_eq_getElem inside),capsFromFresh]
  exact UInt8.zero_or

theorem SameList.symm (same : SameList s s') : SameList s' s :=
  ⟨same.1.symm,fun k inside => (same.2 k (same.1 ▸ inside)).symm⟩

theorem SameList.trans {u} (same : SameList s s') (same' : SameList s' u) : SameList s u :=
  ⟨same.1.trans same'.1,fun k inside => (same.2 k inside).trans (same'.2 k (same.1 ▸ inside))⟩

theorem sameTwice (idle : Idle s)
    (fresh : SameList (placeBlocks rd (b :: bs) 0 s) (placeBlocks rd (b :: bs) 0 ⟨fun _ => zeroed,0⟩)) :
    SameList (placeBlocks rd (b :: bs) 0 (placeBlocks rd (b :: bs) 0 s)) (placeBlocks rd (b :: bs) 0 s) ↔
      ∀ k, k < b.length → ¬Paired ((b :: bs).flatten.map ChannelTxPower.channel) (chanAt b k) := by
  have flags : ∀ k, k < (b :: bs).flatten.length →
      ((placeBlocks rd (b :: bs) 0 s).channelList k).flags ||| ownCaps rd (b :: bs) k = ownCaps rd (b :: bs) k := by
    intro k inside
    rw [fresh.2 k (placedNum ▸ inside),freshFlags inside]
    exact UInt8.or_self
  have again : SameList (placeBlocks rd (b :: bs) 0 (placeBlocks rd (b :: bs) 0 s)) _ ↔ _ :=
    sameAsFresh (placedIdle idle)
  constructor
  · intro same k inside
    have whole : mixed (placeBlocks rd (b :: bs) 0 s) b 0 k = _ := mixedPlaced inside
    rw [← whole]
    exact (again.mp (same.trans fresh)).2 k inside
  · intro apart
    refine (again.mpr ⟨flags,fun k inside => ?_⟩).trans fresh.symm
    rw [mixedPlaced inside]
    exact apart k inside

theorem pairedMixed (inside : k < b.length)
    (apart : ¬Paired ((b :: bs).flatten.map ChannelTxPower.channel) (chanAt b k)) :
    Paired (mixed s b 0 k) (chanAt b k) ↔
      ∃ m, k < m ∧ m < s.channelListNum ∧ Near (chanAt b k) (s.channelList m).channel := by
  constructor
  · rintro ⟨x,mem,near⟩
    obtain ⟨m,within,rfl⟩ := memFront.mp mem
    split at near
    next here =>
      have first : m < b.length := by omega
      refine absurd ⟨chanAt b m,mem_map.mpr ⟨b[m],?_,?_⟩,?_⟩ apart
      · rw [flatten_cons]
        exact mem_append_left _ (getElem_mem first)
      · rw [chanAt,List.getElem?_eq_getElem first]
        rfl
      · rw [Nat.sub_zero] at near
        exact near
    next behind => exact ⟨m,by omega,within,near⟩
  · rintro ⟨m,behind,within,near⟩
    refine ⟨_,memFront.mpr ⟨m,within,rfl⟩,?_⟩
    rwa [if_neg (by omega)]

theorem sameAndTwice (idle : Idle s) :
    SameList (placeBlocks rd (b :: bs) 0 s) (placeBlocks rd (b :: bs) 0 ⟨fun _ => zeroed,0⟩) ∧
      SameList (placeBlocks rd (b :: bs) 0 (placeBlocks rd (b :: bs) 0 s)) (placeBlocks rd (b :: bs) 0 s) ↔
    (∀ k, k < (b :: bs).flatten.length →
      (s.channelList k).flags ||| ownCaps rd (b :: bs) k = ownCaps rd (b :: bs) k) ∧
    ∀ k, k < b.length → ¬Paired ((b :: bs).flatten.map ChannelTxPower.channel) (chanAt b k) ∧
      ∀ m, k < m → m < s.channelListNum → ¬Near (chanAt b k) (s.channelList m).channel := by
  constructor
  · rintro ⟨fresh,twice⟩
    have apart := (sameTwice idle fresh).mp twice
    obtain ⟨flags,unpaired⟩ := (sameAsFresh idle).mp fresh
    refine ⟨flags,fun k inside => ⟨apart k inside,fun m behind within near => ?_⟩⟩
    exact unpaired k inside ((pairedMixed inside (apart k inside)).mpr ⟨m,behind,within,near⟩)
  · rintro ⟨flags,apart⟩
    have unpaired : ∀ k, k < b.length → ¬Paired (mixed s b 0 k) (chanAt b k) := by
      intro k inside paired
      obtain ⟨m,behind,within,near⟩ := (pairedMixed inside (apart k inside).1).mp paired
      exact (apart k inside).2 m behind within near
    have fresh := (sameAsFresh idle).mpr ⟨flags,unpaired⟩
    exact ⟨fresh,(sameTwice idle fresh).mpr fun k inside => (apart k inside).1⟩

end Build

/-! The descriptors: a call can only lower `NumOfCh`, and does so where the same configuration loses nothing by it. -/

section Descriptors
variable {ι : Type} {cfg : Config ι} {dom : Nat} {d d₀ : ChDesp} {ds ds₀ : List ChDesp}

def channelAt (d : ChDesp) (k : Nat) : Nat := (d.firstChannel + k * increment d) % 256

def Offered (cfg : Config ι) (d : ChDesp) (k : Nat) : Prop :=
  (∃ p ∈ cfg.txPower, p.channel = channelAt d k) ∧ ∀ m, m ≤ k → jpCut cfg (channelAt d m) = false

def offer (cfg : Config ι) (dom : Nat) (d : ChDesp) (k : Nat) : Option ChannelTxPower :=
  if ∀ m, m ≤ k → jpCut cfg (channelAt d m) = false then poweredRow cfg d dom (channelAt d k) else none

theorem offerNone (k) : offer cfg dom d k = none ↔ ¬Offered cfg d k := by
  rw [offer,Offered]
  split
  next passed =>
    rw [poweredRow,Option.map_eq_none_iff,List.find?_eq_none]
    constructor
    · rintro missing ⟨⟨p,mem,same⟩,_⟩
      exact missing p mem (by simp [same])
    · intro unoffered p mem same
      exact unoffered ⟨⟨p,mem,(beq_iff_eq.mp same).symm⟩,passed⟩
  next cut => exact iff_of_true rfl fun offered => cut offered.2

theorem rowsOffer (n) : rowsIn cfg d dom ((range n).map (channelAt d)) =
    (range n).filterMap (offer cfg dom d) := by
  induction n with
  | zero => rfl
  | succ n ih =>
    rw [rowsIn] at ih ⊢
    rw [range_succ,map_append,filterMap_append,← ih,takeWhile_append,map_cons,map_nil]
    have all : ((range n).map (channelAt d)).takeWhile (fun c => !jpCut cfg c) = (range n).map (channelAt d) ↔
        ∀ m, m < n → jpCut cfg (channelAt d m) = false := by
      rw [takeWhile_eq_self_iff]
      simp
    have whole : (((range n).map (channelAt d)).takeWhile (fun c => !jpCut cfg c)).length =
        ((range n).map (channelAt d)).length ↔ ∀ m, m < n → jpCut cfg (channelAt d m) = false := by
      rw [← all]
      exact ⟨fun size => (takeWhile_sublist _).eq_of_length size,congrArg List.length⟩
    by_cases passed : ∀ m, m < n → jpCut cfg (channelAt d m) = false
    · rw [if_pos (whole.mpr passed),filterMap_append,all.mpr passed]
      congr 1
      rw [filterMap_cons,filterMap_nil,offer]
      cases here : jpCut cfg (channelAt d n) with
      | true =>
        rw [if_neg fun each => absurd (each n (Nat.le_refl n)) (by simp [here]),
          takeWhile_cons_of_neg (by simp [here])]
        rfl
      | false =>
        have each : ∀ m, m ≤ n → jpCut cfg (channelAt d m) = false := by
          intro m le
          rcases Nat.eq_or_lt_of_le le with rfl | less
          · exact here
          · exact passed m less
        rw [if_pos each,takeWhile_cons_of_pos (by simp [here])]
        rfl
    · have none' : offer cfg dom d n = none := if_neg fun each => passed fun m less => each m (Nat.le_of_lt less)
      rw [if_neg fun size => passed (whole.mp size),filterMap_cons,none',filterMap_nil,append_nil]

def Reduced (d d₀ : ChDesp) : Prop := d = { d₀ with numOfCh := d.numOfCh } ∧ d.numOfCh ≤ d₀.numOfCh

theorem Reduced.refl (d) : Reduced d d := ⟨rfl,Nat.le_refl _⟩

theorem Reduced.trans {d₁} (less : Reduced d d₀) (less' : Reduced d₀ d₁) : Reduced d d₁ := by
  refine ⟨?_,Nat.le_trans less.2 less'.2⟩
  rw [less.1,less'.1]

def Kept (cfg : Config ι) (d d₀ : ChDesp) : Prop :=
  inUse cfg d₀ = true → ∀ k, d.numOfCh ≤ k → k < d₀.numOfCh → ¬Offered cfg d₀ k

theorem rowsReduced (cfg : Config ι) (dom : Nat) (less : Reduced d d₀) :
    ∃ extra, rowsOf cfg dom d₀ = rowsOf cfg dom d ++ extra ∧
      (extra = [] ↔ ∀ k, d.numOfCh ≤ k → k < d₀.numOfCh → ¬Offered cfg d₀ k) := by
  obtain ⟨same,le⟩ := less
  generalize d.numOfCh = n at same le ⊢
  subst same
  have rows₀ : rowsOf cfg dom d₀ = (range d₀.numOfCh).filterMap (offer cfg dom d₀) := rowsOffer d₀.numOfCh
  have rows : rowsOf cfg dom { d₀ with numOfCh := n } = (range n).filterMap (offer cfg dom d₀) := rowsOffer n
  refine ⟨((range (d₀.numOfCh - n)).map (n + ·)).filterMap (offer cfg dom d₀),?_,?_⟩
  · rw [rows₀,rows,← filterMap_append,← range_add,Nat.add_sub_cancel' le]
  · rw [filterMap_eq_nil_iff]
    simp only [mem_map,mem_range,offerNone]
    constructor
    · intro none' k from' inside
      exact none' k ⟨k - n,by omega,by omega⟩
    · rintro none' _ ⟨m,inside,rfl⟩
      exact none' _ (Nat.le_add_right n m) (by omega)

theorem inUseReduced (less : Reduced d d₀) : inUse cfg d = inUse cfg d₀ := by
  rw [less.1]
  rfl

theorem rowsKept (less : Reduced d d₀) (used : inUse cfg d₀ = true) (kept : Kept cfg d d₀) :
    rowsOf cfg dom d = rowsOf cfg dom d₀ := by
  obtain ⟨extra,rows,iff⟩ := rowsReduced cfg dom less
  rw [rows,iff.mpr (kept used),append_nil]

theorem fillChListReduced {offset inc s} : Reduced (fillChList cfg d offset inc dom s).1 d := by
  rw [fillChList,fillLoopRows]
  refine ⟨rfl,?_⟩
  dsimp only
  split <;> omega

theorem fillChListKept {offset s} : Kept cfg (fillChList cfg d offset (increment d) dom s).1 d := by
  intro _ k from' inside offered
  rw [fillChList,fillLoopRows] at from'
  dsimp only at from'
  cases cut : (channelsOf d (increment d)).any (jpCut cfg) with
  | false =>
    rw [cut] at from'
    exact absurd from' (Nat.not_le.mpr inside)
  | true =>
    rw [cut,if_pos rfl] at from'
    obtain ⟨c,mem,here⟩ := any_eq_true.mp cut
    obtain ⟨m,within,rfl⟩ := mem_map.mp mem
    have passed := offered.2 m (by have := mem_range.mp within; omega)
    exact absurd here (by rw [channelAt] at passed; simp [passed])

theorem createLoopReduced {offset s} :
    Forall₂ (fun d d₀ => Reduced d d₀ ∧ Kept cfg d d₀) (createLoop cfg dom ds offset s).1 ds := by
  induction ds generalizing offset s with
  | nil => exact .nil
  | cons d ds ih =>
    rw [createLoop]
    split
    next => exact .cons ⟨fillChListReduced,fillChListKept⟩ ih
    next => exact .cons ⟨Reduced.refl d,fun _ k from' inside => absurd from' (Nat.not_le.mpr inside)⟩ ih

theorem blocksKept (less : Forall₂ Reduced ds ds₀) (kept : Forall₂ (Kept cfg) ds ds₀) :
    blocks cfg dom ds = blocks cfg dom ds₀ := by
  induction less with
  | nil => rfl
  | cons here _ ih =>
    cases kept with
    | cons all rest =>
      have tail := ih rest
      simp only [blocks] at tail ⊢
      rw [filter_cons,filter_cons,inUseReduced here]
      split
      next used => rw [map_cons,map_cons,tail,rowsKept here used all]
      next => exact tail

theorem blocksLength (cfg : Config ι) (dom : Nat) (less : Forall₂ Reduced ds ds₀) :
    (blocks cfg dom ds).length = (blocks cfg dom ds₀).length := by
  induction less with
  | nil => rfl
  | cons here _ ih =>
    simp only [blocks,length_map] at ih ⊢
    rw [filter_cons,filter_cons,inUseReduced here]
    split
    next => rw [length_cons,length_cons,ih]
    next => exact ih

theorem keptOfLength (cfg : Config ι) (dom : Nat) (less : Forall₂ Reduced ds ds₀) :
    (blocks cfg dom ds).flatten.length ≤ (blocks cfg dom ds₀).flatten.length ∧
      ((blocks cfg dom ds).flatten.length = (blocks cfg dom ds₀).flatten.length →
        Forall₂ (Kept cfg) ds ds₀) := by
  induction less with
  | nil => exact ⟨Nat.le_refl _,fun _ => .nil⟩
  | @cons d d₀ ds ds₀ here _ ih =>
    simp only [blocks] at ih ⊢
    rw [filter_cons,filter_cons,inUseReduced here]
    split
    next used =>
      obtain ⟨extra,rows,iff⟩ := rowsReduced cfg dom here
      simp only [map_cons,flatten_cons,length_append,rows]
      refine ⟨by omega,fun same => .cons (fun _ => iff.mp ?_) (ih.2 (by omega))⟩
      exact eq_nil_of_length_eq_zero (by omega)
    next unused => exact ⟨ih.1,fun same => .cons (fun used => absurd used unused) (ih.2 same)⟩

theorem blocksFit : (blocks cfg dom ds).flatten.length ≤ (ds.map ChDesp.numOfCh).foldr (· + ·) 0 := by
  induction ds with
  | nil => exact Nat.le_refl 0
  | cons d ds ih =>
    simp only [blocks] at ih ⊢
    rw [filter_cons,map_cons,foldr_cons]
    split
    next =>
      have rows : (rowsOf cfg dom d).length ≤ d.numOfCh := by
        rw [show rowsOf cfg dom d = (range d.numOfCh).filterMap (offer cfg dom d) from rowsOffer d.numOfCh]
        exact Nat.le_trans (length_filterMap_le ..) (Nat.le_of_eq length_range)
      rw [map_cons,flatten_cons,length_append]
      omega
    next => omega

end Descriptors

/-! Whole histories. -/

section History
variable {ι : Type} [DecidableEq ι] {T : Tables ι} {cfg : Config ι} {a : Adapter ι}

structure Reached (T : Tables ι) (a : Adapter ι) : Prop where
  idle : Idle a.chans
  reduced : ∀ p, Forall₂ Reduced (a.desp p) (T.desp p)
  inside : a.chans.channelListNum ≤ maxNumOfChannels

def despOf (T : Tables ι) (cfg : Config ι) : ι := despInUse cfg (getChRegion T cfg.countryCode)

def domainOf (T : Tables ι) (cfg : Config ι) : Nat := regulatoryDomain cfg (getChRegion T cfg.countryCode)

def plan (T : Tables ι) (cfg : Config ι) : List (List ChannelTxPower) :=
  blocks cfg (domainOf T cfg) (T.desp (despOf T cfg))

theorem buildChans : (buildChannelListEx cfg T a).chans =
    placeBlocks cfg.rdDurRegion (blocks cfg (domainOf T cfg) (a.desp (despOf T cfg))) 0 a.chans := createLoopBlocks

theorem buildReduced (p) : Forall₂ Reduced ((buildChannelListEx cfg T a).desp p) (a.desp p) := by
  rw [buildChannelListEx,createChList]
  dsimp only
  by_cases here : p = despInUse cfg (getChRegion T cfg.countryCode)
  · subst here
    rw [Function.update_self]
    exact createLoopReduced.imp fun _ _ both => both.1
  · rw [Function.update_of_ne here]
    exact forall₂_same.mpr fun d _ => Reduced.refl d

theorem buildBlocks : blocks cfg (domainOf T cfg) ((buildChannelListEx cfg T a).desp (despOf T cfg)) =
    blocks cfg (domainOf T cfg) (a.desp (despOf T cfg)) := by
  rw [buildChannelListEx,createChList]
  dsimp only
  rw [despOf,Function.update_self]
  exact blocksKept (createLoopReduced.imp fun _ _ both => both.1) (createLoopReduced.imp fun _ _ both => both.2)

omit [DecidableEq ι] in
theorem reachedStart : Reached T (start T) :=
  ⟨fun _ => ⟨rfl,rfl⟩,fun _ => forall₂_same.mpr fun d _ => Reduced.refl d,Nat.zero_le _⟩

theorem reducedTrans {ds ds₀ ds₁} (less : Forall₂ Reduced ds ds₀)
    (less' : Forall₂ Reduced ds₀ ds₁) : Forall₂ Reduced ds ds₁ := by
  induction less generalizing ds₁ with
  | nil => exact less'
  | cons here _ ih =>
    cases less' with
    | cons here' rest => exact .cons (here.trans here') (ih rest)

theorem reachedBuild (reached : Reached T a) : Reached T (buildChannelListEx cfg T a) := by
  refine ⟨?_,fun p => reducedTrans (buildReduced p) (reached.reduced p),?_⟩
  · rw [buildChans]
    exact placedIdle reached.idle
  · rw [buildChans]
    have fewer := (keptOfLength cfg (domainOf T cfg) (reached.reduced (despOf T cfg))).1
    have fit := Nat.le_trans fewer (Nat.le_trans blocksFit (T.fits _))
    cases shape : blocks cfg (domainOf T cfg) (a.desp (despOf T cfg)) with
    | nil => exact reached.inside
    | cons b bs =>
      rw [shape] at fit
      rwa [placedNum]

theorem reachedAfter (history) : Reached T (after T history) := by
  have run : ∀ a, Reached T a → Reached T (history.foldl (fun a cfg => buildChannelListEx cfg T a) a) := by
    induction history with
    | nil => exact fun _ reached => reached
    | cons cfg history ih => exact fun a reached => ih _ (reachedBuild reached)
  exact run _ reachedStart

structure Settled (T : Tables ι) (cfg : Config ι) (a : Adapter ι) : Prop where
  -- with no descriptor in use, nothing is written
  empty : plan T cfg = [] → a.chans.channelListNum = 0
  -- no channel that the configuration would take is missing from a lowered descriptor
  kept : Forall₂ (Kept cfg) (a.desp (despOf T cfg)) (T.desp (despOf T cfg))
  -- no entry has a flag that the channel to be written there has not on its own
  flags : ∀ k, k < (plan T cfg).flatten.length →
    (a.chans.channelList k).flags ||| ownCaps cfg.rdDurRegion (plan T cfg) k = ownCaps cfg.rdDurRegion (plan T cfg) k
  -- no 2.4 GHz channel of the first descriptor has another channel of the list four above or below it
  apart : ∀ r ∈ (plan T cfg).headD [], ¬Paired ((plan T cfg).flatten.map ChannelTxPower.channel) r.channel
  -- nor an old channel behind its place
  behind : ∀ k m, k < ((plan T cfg).headD []).length → k < m → m < a.chans.channelListNum →
    ¬Near (chanAt ((plan T cfg).headD []) k) (a.chans.channelList m).channel

theorem sameKept (reached : Reached T a)
    (same : SameList (buildChannelListEx cfg T a).chans (buildChannelListEx cfg T (start T)).chans) :
    Forall₂ (Kept cfg) (a.desp (despOf T cfg)) (T.desp (despOf T cfg)) := by
  have less := reached.reduced (despOf T cfg)
  refine (keptOfLength cfg (domainOf T cfg) less).2 ?_
  have count := blocksLength cfg (domainOf T cfg) less
  have number := same.1
  rw [buildChans,buildChans,start] at number
  dsimp only at number
  cases old : blocks cfg (domainOf T cfg) (a.desp (despOf T cfg)) with
  | nil =>
    rw [old] at count
    rw [eq_nil_of_length_eq_zero count.symm]
  | cons b bs =>
    cases new : blocks cfg (domainOf T cfg) (T.desp (despOf T cfg)) with
    | nil => exact absurd count (by simp [old,new])
    | cons b' bs' =>
      rw [old,new,placedNum,placedNum] at number
      exact number

theorem keptSettled (reached : Reached T a)
    (kept : Forall₂ (Kept cfg) (a.desp (despOf T cfg)) (T.desp (despOf T cfg))) :
    SameList (buildChannelListEx cfg T a).chans (buildChannelListEx cfg T (start T)).chans ∧
      SameList (buildChannelListEx cfg T (buildChannelListEx cfg T a)).chans (buildChannelListEx cfg T a).chans ↔
    Settled T cfg a := by
  have same : blocks cfg (domainOf T cfg) (a.desp (despOf T cfg)) = plan T cfg :=
    blocksKept (reached.reduced _) kept
  have fresh : (buildChannelListEx cfg T (start T)).chans =
      placeBlocks cfg.rdDurRegion (plan T cfg) 0 ⟨fun _ => zeroed,0⟩ := buildChans
  have twice : (buildChannelListEx cfg T (buildChannelListEx cfg T a)).chans =
      placeBlocks cfg.rdDurRegion (plan T cfg) 0 (buildChannelListEx cfg T a).chans := by
    rw [buildChans,buildBlocks,same]
  rw [twice,fresh,buildChans,same]
  cases shape : plan T cfg with
  | nil =>
    constructor
    · rintro ⟨number,_⟩
      exact ⟨fun _ => number.1,kept,by simp [shape],by simp [shape],by simp [shape]⟩
    · intro settled
      have none' : a.chans.channelListNum = 0 := settled.empty shape
      exact ⟨⟨none',fun k inside => absurd (none' ▸ inside : k < 0) (Nat.not_lt_zero k)⟩,rfl,fun _ _ => rfl⟩
  | cons b bs =>
    rw [sameAndTwice reached.idle]
    constructor
    · rintro ⟨flags,apart⟩
      refine ⟨by simp [shape],kept,by rw [shape]; exact flags,?_,?_⟩
      · rw [shape]
        intro r (mem : r ∈ b)
        obtain ⟨k,inside,rfl⟩ := getElem_of_mem mem
        have here := (apart k inside).1
        rw [chanAt,List.getElem?_eq_getElem inside] at here
        exact here
      · rw [shape]
        exact fun k m inside => (apart k inside).2 m
    · intro settled
      refine ⟨shape ▸ settled.flags,fun k inside => ⟨?_,fun m => ?_⟩⟩
      · have here := settled.apart b[k] (by rw [shape]; exact getElem_mem inside)
        rw [chanAt,List.getElem?_eq_getElem inside]
        exact shape ▸ here
      · have here := settled.behind k m
        rw [shape] at here
        exact here inside

theorem listFollowsConfig (T : Tables ι) (history : List (Config ι)) (cfg : Config ι) :
    SameList (buildChannelListEx cfg T (after T history)).chans (buildChannelListEx cfg T (start T)).chans ∧
      SameList (buildChannelListEx cfg T (buildChannelListEx cfg T (after T history))).chans
        (buildChannelListEx cfg T (after T history)).chans ↔
    Settled T cfg (after T history) := by
  have reached := reachedAfter (T := T) history
  constructor
  · intro property
    exact (keptSettled reached (sameKept reached property.1)).mp property
  · intro settled
    exact (keptSettled reached settled.kept).mpr settled

end History

def someTables : Tables Bool where
  chRegion := [⟨('J','P'),jap,true⟩,⟨('W','O'),0,false⟩]
  world := ⟨('W','O'),0,false⟩
  worldListed := rfl
  desp := fun p => if p then [⟨1,14,20,.both,0⟩,⟨36,4,20,.idor,0⟩,⟨52,4,20,.idor,1⟩,⟨100,11,23,.both,1⟩]
    else [⟨1,13,20,.both,0⟩,⟨36,4,17,.both,0⟩,⟨149,5,22,.both,0⟩]
  fits := by decide

def someConfig (countryCode : Char × Char) (phyMode : Nat) : Config Bool :=
  ⟨countryCode,.both,phyMode,maxRdRegion,0,(List.range' 1 14).map fun c => { zeroed with channel := c },none⟩

theorem listKeepsHistory :
    ¬SameList
        (buildChannelListEx (someConfig ('W','O') (wmodeB ||| wmodeG)) someTables
          (buildChannelListEx (someConfig ('W','O') (wmodeB ||| wmodeG)) someTables (start someTables))).chans
        (buildChannelListEx (someConfig ('W','O') (wmodeB ||| wmodeG)) someTables (start someTables)).chans ∧
    ¬SameList
        (buildChannelListEx (someConfig ('J','P') wmodeB) someTables
          (after someTables [someConfig ('J','P') (wmodeB ||| wmodeG)])).chans
        (buildChannelListEx (someConfig ('J','P') wmodeB) someTables (start someTables)).chans := by
  refine ⟨fun same => ?_,fun same => ?_⟩
  · exact absurd (congrArg ChannelTxPower.flags (same.2 0 (by decide +kernel))) (by decide +kernel)
  · exact absurd same.1 (by decide +kernel)

end RtmpDriver.CountryHistory
