import RtmpDriver.BssTable

/-! MaintainBssTable. The index moves on after each entry, also after one that was deleted by moving the rest down;
`swept` is what this makes of the list of the entries. -/
namespace RtmpDriver.BssAging
open ArrayFront ByteMemory BssTable List
open BeaconParse (Bytes)

/- The arguments, the system time, and what is read of the adapter: the SSID is the first SsidLen bytes. -/
structure Limits (w : Nat) where
  now : BitVec w
  osHz : BitVec w
  maxRxTimeDiff : BitVec w
  maxSameRxTimeCount : UInt8
  connected : Bool
  ssid : Bytes

variable {w : Nat}

def timeAfter (a b : BitVec w) : Prop := (b - a).msb = true

instance (a b : BitVec w) : Decidable (timeAfter a b) := inferInstanceAs (Decidable (_ = true))

def touch (e : BssEntry w) : BssEntry w :=
  if e.lastBeaconRxTimeA ≠ e.lastBeaconRxTime then
    { e with lastBeaconRxTimeA := e.lastBeaconRxTime, sameRxTimeCount := 0 }
  else { e with sameRxTimeCount := e.sameRxTimeCount + 1 }

def Stale (p : Limits w) (e : BssEntry w) : Prop :=
  timeAfter p.now (e.lastBeaconRxTime + p.maxRxTimeDiff * p.osHz) ∨ p.maxSameRxTimeCount < e.sameRxTimeCount

def Own (p : Limits w) (e : BssEntry w) : Prop := p.connected = true ∧ load e.ssid 0 p.ssid.length = p.ssid

instance (p : Limits w) (e : BssEntry w) : Decidable (Stale p e) := inferInstanceAs (Decidable (_ ∨ _))

instance (p : Limits w) (e : BssEntry w) : Decidable (Own p e) := inferInstanceAs (Decidable (_ ∧ _))

def Doomed (p : Limits w) (e : BssEntry w) : Prop := Stale p e ∧ ¬ Own p e

instance (p : Limits w) (e : BssEntry w) : Decidable (Doomed p e) := inferInstanceAs (Decidable (_ ∧ _))

/- `fuel` is the number of turns that are left at most; the result has total_bssNr. -/
def maintainLoop (p : Limits w) : Nat → Nat → Nat → Store w → Option (Nat × Store w)
  | 0,_,total,s => some (total,s)
  | fuel + 1,i,total,s =>
    if i < total then
      let e := touch (s.tab.bssEntry i)
      let s := { s with tab := s.tab.put i e }
      if Doomed p e then
        (shiftLoop (total - 1 - i) i s).bind fun t =>
          maintainLoop p fuel (i + 1) (total - 1) (clearEntry false (total - 1) t)
      else maintainLoop p fuel (i + 1) total s
    else some (total,s)

def maintainBssTable (p : Limits w) (s : Store w) : Option (Store w) :=
  (maintainLoop p s.tab.bssNr 0 s.tab.bssNr s).map fun r => { r.2 with tab.bssNr := r.1 }

def survivors (p : Limits w) (list : List (BssEntry w)) : List (BssEntry w) :=
  (list.map touch).filter fun e => ¬ Stale p e ∨ Own p e

def swept (p : Limits w) : List (BssEntry w) → List (BssEntry w)
  | [] => []
  | e :: rest =>
    if Doomed p (touch e) then
      match rest with
      | [] => []
      | passed :: rest => passed :: swept p rest
    else touch e :: swept p rest

section Lists
variable {p : Limits w} {e : BssEntry w} {list : List (BssEntry w)}

theorem touchChanges (e : BssEntry w) : touch e ≠ e := by
  intro same
  unfold touch at same
  split at same
  next different => exact different (congrArg BssEntry.lastBeaconRxTimeA same).symm
  next =>
    have count := congrArg (fun e => e.sameRxTimeCount.toNat) same
    simp only [UInt8.toNat_add,UInt8.toNat_one] at count
    have small := e.sameRxTimeCount.toNat_lt
    omega

theorem notDoomed : ¬ Doomed p e ↔ ¬ Stale p e ∨ Own p e := by
  unfold Doomed
  tauto

theorem survivorsCons : survivors p (e :: list) =
    if Doomed p (touch e) then survivors p list else touch e :: survivors p list := by
  unfold survivors
  rw [map_cons,filter_cons]
  split
  next stays => rw [if_neg (notDoomed.mpr (of_decide_eq_true stays))]
  next goes => rw [if_pos (not_not.mp fun no => goes (decide_eq_true (notDoomed.mp no)))]

theorem sweptStays (stays : ¬ Doomed p (touch e)) : swept p (e :: list) = touch e :: swept p list := by
  cases list <;> simp [swept,stays]

theorem sweptLonger (p) (list : List (BssEntry w)) : (survivors p list).length ≤ (swept p list).length := by
  fun_induction swept p list with
  | case1 => exact Nat.le_refl _
  | case2 e doomed => rw [survivorsCons,if_pos doomed]; exact Nat.le_refl _
  | case3 e doomed passed rest ih =>
    rw [survivorsCons,if_pos doomed,survivorsCons]
    split
    · exact Nat.le_succ_of_le ih
    · exact Nat.succ_le_succ ih
  | case4 e rest stays ih =>
    rw [survivorsCons,if_neg stays]
    exact Nat.succ_le_succ ih

theorem sweptIff (p) (list : List (BssEntry w)) :
    swept p list = survivors p list ↔ ∀ e ∈ list.dropLast, ¬ Doomed p (touch e) := by
  fun_induction swept p list with
  | case1 => exact ⟨fun _ e mem => absurd mem not_mem_nil,fun _ => rfl⟩
  | case2 e doomed =>
    rw [survivorsCons,if_pos doomed]
    exact ⟨fun _ e mem => absurd mem not_mem_nil,fun _ => rfl⟩
  | case3 e doomed passed rest ih =>
    rw [survivorsCons,if_pos doomed]
    refine ⟨fun same => ?_,fun none' => absurd doomed (none' e mem_cons_self)⟩
    rw [survivorsCons] at same
    split at same
    · have longer := sweptLonger p rest
      have lengths := congrArg List.length same
      rw [length_cons] at lengths
      omega
    · exact absurd (List.cons.inj same).1.symm (touchChanges passed)
  | case4 e rest stays ih =>
    rw [survivorsCons,if_neg stays]
    cases rest with
    | nil => exact ⟨fun _ e mem => absurd mem not_mem_nil,fun _ => rfl⟩
    | cons next rest =>
      rw [dropLast_cons_cons,forall_mem_cons,List.cons.injEq,ih]
      exact ⟨fun later => ⟨stays,later.2⟩,fun later => ⟨rfl,later.2⟩⟩

end Lists

section Loop
variable {p : Limits w} {s t : Store w} {fuel total total' : Nat} {a b : BssEntry w} {seen rest : List (BssEntry w)}

theorem touchContents (e : BssEntry w) : (touch e).contents = touch e.contents := by
  unfold touch BssEntry.contents
  split <;> rfl

-- the pointer is not looked at
theorem doomedContents (e) : Doomed p (touch e.contents) ↔ Doomed p (touch e) := by
  rw [← touchContents]
  exact Iff.rfl

def contentsOf (s : Store w) (n : Nat) : List (BssEntry w) := front (fun k => (s.tab.bssEntry k).contents) n

theorem contentsPut (parts : contentsOf s total = seen ++ a :: rest) (e) :
    contentsOf { s with tab := s.tab.put seen.length e } total = seen ++ e.contents :: rest := by
  have moved : (fun k => (set s.tab.bssEntry seen.length e k).contents) =
      set (fun k => (s.tab.bssEntry k).contents) seen.length e.contents := by
    funext k
    unfold ArrayFront.set
    split <;> rfl
  simp only [contentsOf,Table.put] at parts ⊢
  rw [moved,frontSet,parts,set_append_right _ _ (Nat.le_refl _),Nat.sub_self]
  rfl

theorem contentsShift (parts : contentsOf s total = seen ++ a :: rest)
    (moved : shiftLoop (total - 1 - seen.length) seen.length s = some t) :
    contentsOf (clearEntry false (total - 1) t) (total - 1) = seen ++ rest := by
  obtain ⟨inside,_⟩ := frontBetween parts
  obtain ⟨_,_,entries⟩ := shiftLoopIs moved
  have kept : ∀ k, k < total - 1 → (clearEntry false (total - 1) t).tab.bssEntry k = t.tab.bssEntry k :=
    fun k low => setOther (by omega)
  have erased : contentsOf (clearEntry false (total - 1) t) (total - 1) =
      (contentsOf s total).eraseIdx seen.length := by
    refine (frontCongr fun k low => congrArg BssEntry.contents (kept k low)).trans (frontErase inside ?_ ?_)
    · intro k low
      rw [entries k,if_neg (by omega)]
    · intro k low high
      rw [entries k,if_pos (by omega)]
      rfl
  rw [erased,parts,eraseIdx_append_of_length_le (Nat.le_refl _),Nat.sub_self]
  rfl

theorem maintainEnds {i} (past : total ≤ i) : maintainLoop p fuel i total s = some (total,s) := by
  cases fuel with
  | zero => rfl
  | succ fuel => exact if_neg (Nat.not_lt.mpr past)

theorem maintainSwept (parts : contentsOf s total = seen ++ rest) (enough : rest.length ≤ fuel)
    (done : maintainLoop p fuel seen.length total s = some (total',t)) :
    contentsOf t total' = seen ++ swept p rest := by
  have size : total = seen.length + rest.length := by
    have lengths := congrArg List.length parts
    rwa [contentsOf,frontLength,length_append] at lengths
  induction fuel generalizing s seen rest total with
  | zero =>
    cases eq_nil_of_length_eq_zero (Nat.le_zero.mp enough)
    cases Option.some.inj done
    exact parts
  | succ fuel ih =>
    cases rest with
    | nil =>
      rw [maintainEnds (by rw [size]; exact Nat.le_refl _)] at done
      cases Option.some.inj done
      exact parts
    | cons e rest =>
      rw [length_cons] at enough size
      obtain ⟨inside,entry⟩ := frontBetween parts
      have touched := contentsPut parts (touch (s.tab.bssEntry seen.length))
      rw [touchContents,entry] at touched
      have same : Doomed p (touch (s.tab.bssEntry seen.length)) ↔ Doomed p (touch e) :=
        entry ▸ (doomedContents _).symm
      rw [maintainLoop,if_pos inside] at done
      dsimp only at done
      split at done
      next doomed =>
        obtain ⟨u,moved,later⟩ := Option.bind_eq_some_iff.mp done
        have shifted := contentsShift touched moved
        cases rest with
        | nil =>
          rw [maintainEnds (by rw [size,length_nil]; omega)] at later
          cases Option.some.inj later
          rwa [swept,if_pos (same.mp doomed)]
        | cons passed rest =>
          rw [length_cons] at enough size
          rw [append_cons] at shifted
          have next := ih shifted (by omega) (by rw [length_append]; exact later)
            (by rw [length_append,length_singleton]; omega)
          rwa [swept,if_pos (same.mp doomed),append_cons]
      next stays =>
        rw [append_cons] at touched
        have next := ih touched (by omega) (by rw [length_append]; exact done)
          (by rw [length_append,length_singleton]; omega)
        rwa [sweptStays fun doomed => stays (same.mpr doomed),append_cons]

theorem maintainSome {i} (spared : ∀ k, i ≤ k → k + 1 < total → ¬ Doomed p (touch (s.tab.bssEntry k))) :
    ∃ r, maintainLoop p fuel i total s = some r := by
  induction fuel generalizing i total s with
  | zero => exact ⟨_,rfl⟩
  | succ fuel ih =>
    rw [maintainLoop]
    split
    next inside =>
      dsimp only
      split
      next doomed =>
        have last : total - 1 - i = 0 := by
          by_contra more
          exact spared i (Nat.le_refl i) (by omega) doomed
        rw [last]
        exact ⟨_,maintainEnds (by omega)⟩
      next =>
        apply ih
        intro k low high
        simp only [Table.put]
        rw [setOther (by omega)]
        exact spared k (by omega) high
    next => exact ⟨_,rfl⟩

end Loop

def Maintained (p : Limits w) (s : Store w) : Prop :=
  ∃ t, maintainBssTable p s = some t ∧ t.tab.contents = survivors p s.tab.contents

theorem staleRemoved (p : Limits w) (s : Store w) :
    Maintained p s ↔ ∀ i, i + 1 < s.tab.bssNr → ¬ Doomed p (touch (s.tab.bssEntry i)) := by
  have loop : ∀ r, maintainLoop p s.tab.bssNr 0 s.tab.bssNr s = some r →
      contentsOf r.2 r.1 = swept p s.tab.contents := by
    intro r done
    have parts : contentsOf s s.tab.bssNr = [] ++ s.tab.contents := rfl
    exact maintainSwept parts (Nat.le_of_eq frontLength) done
  have before : (∀ e ∈ s.tab.contents.dropLast, ¬ Doomed p (touch e)) ↔
      ∀ i, i + 1 < s.tab.bssNr → ¬ Doomed p (touch (s.tab.bssEntry i)) := by
    rw [Table.contents,frontDropLast]
    constructor
    · intro spared i inside doomed
      exact spared _ (memFront.mpr ⟨i,by omega,rfl⟩) ((doomedContents _).mpr doomed)
    · rintro spared e mem doomed
      obtain ⟨i,inside,rfl⟩ := memFront.mp mem
      exact spared i (by omega) ((doomedContents _).mp doomed)
  rw [← before,← sweptIff]
  unfold Maintained maintainBssTable
  constructor
  · rintro ⟨t,done,same⟩
    obtain ⟨r,run,rfl⟩ := Option.map_eq_some_iff.mp done
    exact (loop r run).symm.trans same
  · intro same
    have spared := before.mp ((sweptIff p _).mp same)
    obtain ⟨r,run⟩ : ∃ r, maintainLoop p s.tab.bssNr 0 s.tab.bssNr s = some r := maintainSome fun k _ => spared k
    exact ⟨_,Option.map_eq_some_iff.mpr ⟨r,run,rfl⟩,(loop r run).trans same⟩

def beaconAt (ticks : BitVec 64) : BssEntry 64 := { BssEntry.zero with lastBeaconRxTime := ticks }

def scanOf (entries : List (BssEntry 64)) : Store 64 :=
  ⟨⟨entries.length,0,fun k => entries.getD k .zero⟩,fun _ _ => 0⟩

def twoMinutes : Limits 64 := ⟨20000,100,120,2,false,[]⟩

theorem staleRemovedLast : Maintained twoMinutes (scanOf [beaconAt 19000,beaconAt 500]) :=
  (staleRemoved twoMinutes (scanOf [beaconAt 19000,beaconAt 500])).mpr fun i inside => by
    have first : i = 0 := by
      have two : (scanOf [beaconAt 19000,beaconAt 500]).tab.bssNr = 2 := rfl
      omega
    subst first
    decide

theorem staleKept :
    ¬ Maintained twoMinutes (scanOf [beaconAt 500,beaconAt 500]) ∧
      (maintainBssTable twoMinutes (scanOf [beaconAt 500,beaconAt 500])).map (fun t => t.tab.bssNr) = some 1 := by
  refine ⟨fun ⟨t,done,same⟩ => ?_,by decide⟩
  have number : (maintainBssTable twoMinutes (scanOf [beaconAt 500,beaconAt 500])).map (fun t => t.tab.bssNr) =
      some 1 := by decide
  have nobody : (survivors twoMinutes (scanOf [beaconAt 500,beaconAt 500]).tab.contents).length = 0 := by decide
  rw [done] at number
  have one : t.tab.bssNr = 1 := Option.some.inj number
  rw [← same,Table.contents,frontLength,one] at nobody
  cases nobody

end RtmpDriver.BssAging
