import Mathlib
import RtmpDriver.LinkedBuckets
import RtmpDriver.StepMachine
import RtmpDriver.RxFilter

/-! The MAC table: MacTableLookup, MacTableInsertEntry, MacTableDeleteEntry and the table part of
StaUpdateMacTableEntry, in the station build. MacTableDeleteEntry leaves the pNext of the entry it takes out; only
MacTableInsertEntry clears it. -/
namespace RtmpDriver.MacTable
open StepMachine LinkedBuckets
open WpaSupplicant (EntryType)
open RxFilter (maxLenOfMacTable)

abbrev Wcid := Fin maxLenOfMacTable
abbrev MacAddr := Vector UInt8 6

structure Entry where
  entryType : EntryType
  addr : MacAddr
  pNext : Option Wcid
  wcid : Nat
  aid : Nat
  deriving DecidableEq

structure Table where
  hash : UInt8 → Option Wcid
  content : Wcid → Entry
  size : UInt16

def zeroAddr : MacAddr := Vector.replicate 6 0
def zeroEntry : Entry := {entryType := .none, addr := zeroAddr, pNext := none, wcid := 0, aid := 0}
def zeroed : Table := {hash := fun _ => none, content := fun _ => zeroEntry, size := 0}

theorem bssidWcidBound : 1 < maxLenOfMacTable := by decide
def bssidWcid : Wcid := ⟨1,bssidWcidBound⟩

def macAddrHash (addr : MacAddr) : UInt8 := addr[0] ^^^ addr[1] ^^^ addr[2] ^^^ addr[3] ^^^ addr[4] ^^^ addr[5]
def macAddrHashIndex (addr : MacAddr) : UInt8 := macAddrHash addr &&& 0xff

def Entry.isNone (e : Entry) : Bool := e.entryType == .none

def Table.links (tab : Table) : Links UInt8 Wcid := {head := tab.hash, next := fun i => (tab.content i).pNext}

def Table.withLinks (tab : Table) (links : Links UInt8 Wcid) : Table :=
  {tab with hash := links.head, content := fun i => {tab.content i with pNext := links.next i}}

def Table.put (tab : Table) (i : Wcid) (e : Entry) : Table :=
  {tab with content := Function.update tab.content i e}

-- a walk that visits more entries than there are is in a cycle
def walkFuel : Nat := maxLenOfMacTable + 1

def macTableLookup (tab : Table) (fuel : Nat) (pAddr : MacAddr) : Option (Option Wcid) :=
  seek tab.links.next (fun i => (tab.content i).isNone || (tab.content i).addr == pAddr) fuel
    (tab.hash (macAddrHashIndex pAddr))

def Table.linkEntry (tab : Table) (hashIdx : UInt8) (i : Wcid) : Option Table :=
  (tab.links.append walkFuel hashIdx i).map tab.withLinks

def insertedEntry (i : Wcid) (pAddr : MacAddr) : Entry :=
  {zeroEntry with entryType := .client, wcid := i, addr := pAddr, aid := i}

def macTableInsertEntry (tab : Table) (infra : Bool) (pAddr : MacAddr) : Option (Option Wcid × Table) :=
  if maxLenOfMacTable ≤ tab.size.toNat then some (none,tab)
  else
    let firstWcid := if infra then 2 else 1
    match (List.finRange maxLenOfMacTable).find? fun i => firstWcid ≤ i.val && (tab.content i).isNone with
    | none => some (none,tab)
    | some i =>
      let tab := {tab.put i (insertedEntry i pAddr) with size := tab.size + 1}
      (tab.linkEntry (macAddrHashIndex pAddr) i).map fun tab => (some i,tab)

def macTableDeleteEntry (tab : Table) (wcid : Nat) (pAddr : MacAddr) : Option (Bool × Table) :=
  if bound : wcid < maxLenOfMacTable then
    let i : Wcid := ⟨wcid,bound⟩
    if (tab.content i).isNone then some (true,tab)
    else if (tab.content i).addr = pAddr then
      (tab.links.unlink walkFuel (macAddrHashIndex pAddr) i).map fun links =>
        let tab := tab.withLinks links
        -- addr and entryType are reset, pNext is not
        (true,{tab.put i {tab.content i with addr := zeroAddr, entryType := .none} with size := tab.size - 1})
    else some (true,tab)
  else some (false,tab)

def dot112RaRate (maxSupportedRateIn500Kbps : UInt8) : Nat :=
  match maxSupportedRateIn500Kbps with
  | 108 => 11
  | 96 => 10
  | 72 => 9
  | 48 => 8
  | 36 => 7
  | 24 => 6
  | 18 => 5
  | 12 => 4
  | 22 => 3
  | 11 => 2
  | 4 => 1
  | 2 => 0
  | _ => 3

def rateFirstOfdmRate : Nat := 4
def wmodeG : UInt8 := 0x04
def wmodeHt : UInt8 := 0x38

structure AssocArgs where
  phyMode : UInt8
  maxSupportedRateIn500Kbps : UInt8
  htcapLen : UInt8

def AssocArgs.refused (args : AssocArgs) : Bool :=
  (args.phyMode == wmodeG && decide (dot112RaRate args.maxSupportedRateIn500Kbps < rateFirstOfdmRate)) ||
    (args.phyMode &&& ~~~ wmodeHt == 0 && args.htcapLen == 0)

def staUpdateMacTableEntry (tab : Table) (args : AssocArgs) (infra : Bool) (bssid : MacAddr) (i : Wcid) :
    Option (Bool × Table) :=
  if args.refused then some (false,tab)
  else if infra then
    (tab.linkEntry (macAddrHashIndex bssid) i).map fun tab =>
      let entry := {tab.content i with addr := bssid, aid := bssidWcid, wcid := bssidWcid, entryType := .client}
      (true,{tab.put i entry with size := tab.size + 1})
  else some (true,tab)

def deleteOld (tab : Table) (oldBssid : MacAddr) : Option Table :=
  (macTableLookup tab walkFuel oldBssid).bind fun found =>
    match found with
    | none => some tab
    | some i => (macTableDeleteEntry tab (tab.content i).wcid (tab.content i).addr).map Prod.snd

/- PeerAssocRspAction and PeerReassocRspAction on success, as far as they touch the table. -/
def associate (tab : Table) (args : AssocArgs) (oldBssid newBssid : MacAddr) : Option Table :=
  (deleteOld tab oldBssid).bind fun tab =>
    (staUpdateMacTableEntry tab args true newBssid bssidWcid).map Prod.snd

inductive Op where
  | insert (infra : Bool) (addr : MacAddr)
  | delete (wcid : Wcid) (addr : MacAddr)
  | associate (args : AssocArgs) (oldBssid newBssid : MacAddr)

def apply (tab : Table) : Op → Option Table
  | .insert infra addr => (macTableInsertEntry tab infra addr).map Prod.snd
  | .delete wcid addr => (macTableDeleteEntry tab wcid addr).map Prod.snd
  | .associate args oldBssid newBssid => associate tab args oldBssid newBssid

/- `none` is a table in which a walk has not come to an end. -/
def step (s : Option Table) (op : Op) : Option Table := s.bind fun tab => apply tab op

def Table.live (tab : Table) (i : Wcid) : Prop := (tab.content i).entryType ≠ .none

instance (tab : Table) : DecidablePred tab.live := fun _ => inferInstanceAs (Decidable (_ ≠ _))

def Table.liveSet (tab : Table) : Finset Wcid := Finset.univ.filter tab.live

structure Sound (tab : Table) : Prop where
  chains : ∀ h, ∃ row, Chain tab.links.next (tab.hash h) row ∧ row.Nodup ∧
    ∀ i, i ∈ row ↔ tab.live i ∧ macAddrHashIndex (tab.content i).addr = h
  size : tab.size.toNat = tab.liveSet.card
  lookup : ∀ pAddr fuel, maxLenOfMacTable < fuel → ∃ found, macTableLookup tab fuel pAddr = some found ∧
    ∀ i, found = some i ↔ tab.live i ∧ (tab.content i).addr = pAddr

def Admitted : Option Table → Op → Prop
  | none,_ => True
  | some tab,.insert _ addr => ∀ i, tab.live i → (tab.content i).addr ≠ addr
  | some tab,.delete wcid addr => tab.live wcid ∧ (tab.content wcid).addr = addr
  | some tab,.associate _ oldBssid newBssid =>
    ∀ i, i ≠ bssidWcid → tab.live i → (tab.content i).addr = newBssid → (tab.content i).addr = oldBssid

/- An association finds Content[BSSID_WCID] free or frees it, and finds it without a link. -/
def Unlinked : Option Table → Op → Prop
  | some tab,.associate args oldBssid _ => args.refused = true ∨
    (tab.content bssidWcid).pNext = none ∧
      (tab.live bssidWcid → (tab.content bssidWcid).addr = oldBssid)
  | _,_ => True

def Entry.identity (e : Entry) : EntryType × MacAddr × Nat := (e.entryType,e.addr,e.wcid)

structure Kept (tab : Table) (rows : UInt8 → List Wcid) : Prop where
  holds : tab.links.Holds rows
  members : ∀ h i, i ∈ rows h ↔ tab.live i ∧ macAddrHashIndex (tab.content i).addr = h
  counted : tab.size.toNat = tab.liveSet.card
  distinct : ∀ i j, tab.live i → tab.live j → (tab.content i).addr = (tab.content j).addr → i = j
  numbered : ∀ i, tab.live i → (tab.content i).wcid = i

section
variable {tab tab' : Table} {rows : UInt8 → List Wcid} {i : Wcid} {addr : MacAddr}

theorem isNoneIff : (tab.content i).isNone = true ↔ ¬ tab.live i := by
  simp [Entry.isNone,Table.live]

theorem identityWithLinks {links} : ((tab.withLinks links).content i).identity = (tab.content i).identity := rfl

theorem Kept.short (kept : Kept tab rows) (h) : (rows h).length ≤ maxLenOfMacTable := by
  simpa using kept.holds.short h

theorem Kept.outside (kept : Kept tab rows) (free : ¬ tab.live i) (h) : i ∉ rows h :=
  fun mem => free ((kept.members h i).mp mem).1

theorem Kept.found (kept : Kept tab rows) (pAddr) {fuel} (enough : maxLenOfMacTable < fuel) :
    ∃ found, macTableLookup tab fuel pAddr = some found ∧
      ∀ i, found = some i ↔ tab.live i ∧ (tab.content i).addr = pAddr := by
  have walk := seekChain (fun i => (tab.content i).isNone || (tab.content i).addr == pAddr)
    (kept.holds.chain (macAddrHashIndex pAddr)) (Nat.lt_of_le_of_lt (kept.short _) enough)
  refine ⟨_,walk,fun i => ⟨fun found => ?_,fun ⟨alive,same⟩ => ?_⟩⟩
  · have alive := ((kept.members _ i).mp (List.mem_of_find?_eq_some found)).1
    have stop := List.find?_some found
    rw [Bool.or_eq_true,isNoneIff,beq_iff_eq] at stop
    exact ⟨alive,stop.resolve_left fun free => free alive⟩
  · have mem : i ∈ rows (macAddrHashIndex pAddr) := (kept.members _ i).mpr ⟨alive,by rw [same]⟩
    cases found : (rows (macAddrHashIndex pAddr)).find? _ with
    | none =>
      have stop := List.find?_eq_none.mp found i mem
      simp [same] at stop
    | some j =>
      have other := ((kept.members _ j).mp (List.mem_of_find?_eq_some found)).1
      have stop := List.find?_some found
      rw [Bool.or_eq_true,isNoneIff,beq_iff_eq] at stop
      have here := stop.resolve_left fun free => free other
      rw [kept.distinct j i other alive (here.trans same.symm)]

theorem Kept.sound (kept : Kept tab rows) : Sound tab where
  chains h := ⟨rows h,kept.holds.chain h,(kept.holds.chain h).nodup,kept.members h⟩
  size := kept.counted
  lookup pAddr _ enough := kept.found pAddr enough

theorem sameIdentity {e e' : Entry} (same : e'.identity = e.identity) :
    e'.entryType = e.entryType ∧ e'.addr = e.addr ∧ e'.wcid = e.wcid := by
  simpa [Entry.identity] using same

theorem liveOthers (others : ∀ j, j ≠ i → (tab'.content j).identity = (tab.content j).identity) (j)
    (other : j ≠ i) : (tab'.live j ↔ tab.live j) ∧ (tab'.content j).addr = (tab.content j).addr ∧
      (tab'.content j).wcid = (tab.content j).wcid := by
  obtain ⟨kind,rest⟩ := sameIdentity (others j other)
  exact ⟨by simp only [Table.live,kind],rest⟩

theorem liveSetEnter (free : ¬ tab.live i) (alive : tab'.live i)
    (others : ∀ j, j ≠ i → (tab'.content j).identity = (tab.content j).identity) :
    tab'.liveSet.card = tab.liveSet.card + 1 := by
  have set : tab'.liveSet = insert i tab.liveSet := by
    ext j
    rcases eq_or_ne j i with rfl | other
    · simp [Table.liveSet,alive]
    · simp [Table.liveSet,(liveOthers others j other).1,other]
  rw [set,Finset.card_insert_of_notMem (by simpa [Table.liveSet] using free)]

theorem liveSetBound (tab : Table) : tab.liveSet.card ≤ maxLenOfMacTable := by
  simpa using tab.liveSet.card_le_univ

theorem Kept.enter (kept : Kept tab rows) (free : ¬ tab.live i)
    (fresh : ∀ j, tab.live j → (tab.content j).addr ≠ addr)
    (others : ∀ j, j ≠ i → (tab'.content j).identity = (tab.content j).identity)
    (alive : tab'.live i) (here : (tab'.content i).addr = addr) (number : (tab'.content i).wcid = i)
    (size : tab'.size = tab.size + 1) (holds : tab'.links.Holds
      (Function.update rows (macAddrHashIndex addr) (rows (macAddrHashIndex addr) ++ [i]))) :
    Kept tab' (Function.update rows (macAddrHashIndex addr) (rows (macAddrHashIndex addr) ++ [i])) := by
  have live := liveOthers others
  refine ⟨holds,?_,?_,?_,?_⟩
  · intro h j
    rcases eq_or_ne j i with rfl | other
    · have out := kept.outside free
      rcases eq_or_ne h (macAddrHashIndex addr) with rfl | elsewhere
      · simp [alive,here]
      · rw [Function.update_of_ne elsewhere,here]
        simp [out h,elsewhere.symm]
    · rw [(live j other).1,(live j other).2.1,← kept.members h j]
      rcases eq_or_ne h (macAddrHashIndex addr) with rfl | elsewhere
      · simp [other]
      · rw [Function.update_of_ne elsewhere]
  · have one := liveSetEnter free alive others
    have bound := liveSetBound tab'
    have wide : maxLenOfMacTable < 65536 := by decide
    rw [size,UInt16.toNat_add,kept.counted,one]
    exact Nat.mod_eq_of_lt (by simp only [UInt16.reduceToNat]; omega)
  · intro j k first second same
    rcases eq_or_ne j i with rfl | left
    · rcases eq_or_ne k j with rfl | right
      · rfl
      · rw [here,(live k right).2.1] at same
        exact absurd same.symm (fresh k ((live k right).1.mp second))
    · rcases eq_or_ne k i with rfl | right
      · rw [here,(live j left).2.1] at same
        exact absurd same (fresh j ((live j left).1.mp first))
      · rw [(live j left).2.1,(live k right).2.1] at same
        exact kept.distinct j k ((live j left).1.mp first) ((live k right).1.mp second) same
  · intro j alive
    rcases eq_or_ne j i with rfl | other
    · exact number
    · rw [(live j other).2.2]
      exact kept.numbered j ((live j other).1.mp alive)

theorem insertKept (kept : Kept tab rows) (infra) (fresh : ∀ j, tab.live j → (tab.content j).addr ≠ addr) :
    ∃ result tab' rows', macTableInsertEntry tab infra addr = some (result,tab') ∧ Kept tab' rows' := by
  unfold macTableInsertEntry
  split
  · exact ⟨_,_,_,rfl,kept⟩
  dsimp only
  split
  · exact ⟨_,_,_,rfl,kept⟩
  rename_i i found
  have free : ¬ tab.live i := by
    have stop := List.find?_some found
    rw [Bool.and_eq_true,isNoneIff] at stop
    exact stop.2
  obtain ⟨ready,isReady⟩ : ∃ ready : Table, ready = {tab.put i (insertedEntry i addr) with size := tab.size + 1} :=
    ⟨_,rfl⟩
  have content : ∀ j, j ≠ i → ready.content j = tab.content j := by
    intro j other
    rw [isReady]
    exact Function.update_of_ne other ..
  have entry : ready.content i = insertedEntry i addr := by
    rw [isReady]
    exact Function.update_self ..
  have holds : ready.links.Holds rows := by
    refine ⟨fun k => ?_,kept.holds.apart⟩
    have heads : ready.links.head = tab.links.head := by rw [isReady]; rfl
    rw [heads]
    refine (kept.holds.chain k).congr fun b mem => ?_
    have other : b ≠ i := fun same => kept.outside free k (same ▸ mem)
    exact congrArg Entry.pNext (content b other)
  obtain ⟨links,result,linked,_⟩ : ∃ links, ready.links.append walkFuel (macAddrHashIndex addr) i = some links ∧ _ :=
    holds.append ((kept.short _).trans (Nat.le_succ _)) (kept.outside free) (congrArg Entry.pNext entry)
  have others : ∀ j, j ≠ i → ((ready.withLinks links).content j).identity = (tab.content j).identity :=
    fun j other => identityWithLinks.trans (congrArg Entry.identity (content j other))
  have kind : (ready.content i).entryType = .client := congrArg Entry.entryType entry
  have alive : (ready.withLinks links).live i := fun gone => absurd (kind.symm.trans gone) (by simp)
  have size : (ready.withLinks links).size = tab.size + 1 := by rw [isReady]; rfl
  have entered := kept.enter free fresh others alive (congrArg Entry.addr entry) (congrArg Entry.wcid entry)
    size linked
  rw [← isReady,Table.linkEntry,result]
  exact ⟨_,_,_,rfl,entered⟩

structure Freed (tab tab' : Table) (i : Wcid) : Prop where
  gone : ¬ tab'.live i
  others : ∀ j, j ≠ i → (tab'.content j).identity = (tab.content j).identity
  stale : ∀ j, ¬ tab'.live j → (tab'.content j).pNext = (tab.content j).pNext

theorem Kept.leave (kept : Kept tab rows) (alive : tab.live i) (freed : Freed tab tab' i)
    (size : tab'.size = tab.size - 1)
    (holds : tab'.links.Holds (Function.update rows (macAddrHashIndex (tab.content i).addr)
      ((rows (macAddrHashIndex (tab.content i).addr)).erase i))) :
    Kept tab' (Function.update rows (macAddrHashIndex (tab.content i).addr)
      ((rows (macAddrHashIndex (tab.content i).addr)).erase i)) := by
  have live := liveOthers freed.others
  have remains : ∀ j, tab'.live j → j ≠ i := fun j alive same => freed.gone (same ▸ alive)
  refine ⟨holds,?_,?_,?_,?_⟩
  · intro h j
    rcases eq_or_ne j i with rfl | other
    · rcases eq_or_ne h (macAddrHashIndex (tab.content j).addr) with rfl | elsewhere
      · simp [freed.gone,(kept.holds.chain _).nodup.mem_erase_iff]
      · rw [Function.update_of_ne elsewhere,kept.members]
        simp [freed.gone,elsewhere.symm]
    · rw [(live j other).1,(live j other).2.1,← kept.members h j]
      rcases eq_or_ne h (macAddrHashIndex (tab.content i).addr) with rfl | elsewhere
      · simp [other,List.mem_erase_of_ne]
      · rw [Function.update_of_ne elsewhere]
  · have one := liveSetEnter freed.gone alive fun j other => (freed.others j other).symm
    have positive : (1 : UInt16) ≤ tab.size := by
      rw [UInt16.le_iff_toNat_le,kept.counted,one]
      exact Nat.succ_le_succ (Nat.zero_le _)
    rw [size,UInt16.toNat_sub_of_le _ _ positive,kept.counted,one]
    rfl
  · intro j k first second same
    rw [(live j (remains j first)).2.1,(live k (remains k second)).2.1] at same
    exact kept.distinct j k ((live j (remains j first)).1.mp first) ((live k (remains k second)).1.mp second) same
  · intro j alive
    rw [(live j (remains j alive)).2.2]
    exact kept.numbered j ((live j (remains j alive)).1.mp alive)

theorem deleteKept (kept : Kept tab rows) (alive : tab.live i) :
    ∃ tab' rows', macTableDeleteEntry tab i (tab.content i).addr = some (true,tab') ∧ Kept tab' rows' ∧
      Freed tab tab' i := by
  have mem := (kept.members _ i).mpr ⟨alive,rfl⟩
  obtain ⟨links,result,holds,link,untouched⟩ :
      ∃ links, tab.links.unlink walkFuel (macAddrHashIndex (tab.content i).addr) i = some links ∧ _ :=
    kept.holds.unlink ((kept.short _).trans (Nat.le_succ _)) mem
  obtain ⟨tab',isTab'⟩ : ∃ tab' : Table, tab' =
      {(tab.withLinks links).put i {(tab.withLinks links).content i with addr := zeroAddr, entryType := .none} with
        size := tab.size - 1} := ⟨_,rfl⟩
  have entry : tab'.content i =
      {(tab.withLinks links).content i with addr := zeroAddr, entryType := .none} := by
    rw [isTab']
    exact Function.update_self ..
  have content : ∀ j, j ≠ i → tab'.content j = (tab.withLinks links).content j := by
    intro j other
    rw [isTab']
    exact Function.update_of_ne other ..
  have gone : ¬ tab'.live i := by
    rw [Table.live,entry]
    simp
  have nexts : ∀ j, (tab'.content j).pNext = links.next j := by
    intro j
    rcases eq_or_ne j i with rfl | other
    · rw [entry]
      rfl
    · rw [content j other]
      rfl
  have freed : Freed tab tab' i := by
    refine ⟨gone,fun j other => by rw [content j other,identityWithLinks],fun j dead => ?_⟩
    rw [nexts]
    rcases eq_or_ne j i with rfl | other
    · exact link
    · refine untouched j (kept.outside ?_)
      rw [Table.live,content j other] at dead
      exact dead
  have unlinked : tab'.links = links := by
    have heads : tab'.links.head = links.head := by rw [isTab']; rfl
    obtain ⟨head,next⟩ := links
    exact congrArg₂ Links.mk heads (funext nexts)
  have left := kept.leave alive freed (by rw [isTab']) (unlinked ▸ holds)
  refine ⟨tab',_,?_,left,freed⟩
  have some : (tab.content i).isNone = false := by simpa [Entry.isNone,Table.live] using alive
  rw [macTableDeleteEntry,dif_pos i.isLt]
  simp only [Fin.eta,some,Bool.false_eq_true,if_false,if_true,result,Option.map_some]
  rw [isTab']
  rfl

theorem deleteOldKept (kept : Kept tab rows) (oldBssid) :
    ∃ tab' rows', deleteOld tab oldBssid = some tab' ∧ Kept tab' rows' ∧
      (∀ j, tab'.live j ↔ tab.live j ∧ (tab.content j).addr ≠ oldBssid) ∧
      (∀ j, tab'.live j → (tab'.content j).addr = (tab.content j).addr) ∧
      ∀ j, ¬ tab'.live j → (tab'.content j).pNext = (tab.content j).pNext := by
  obtain ⟨found,lookup,which⟩ := kept.found oldBssid (Nat.lt_succ_self maxLenOfMacTable)
  have start : deleteOld tab oldBssid = (some found).bind _ := congrArg (Option.bind · _) lookup
  cases found with
  | none =>
    refine ⟨tab,rows,start,kept,fun j => ?_,fun _ _ => rfl,fun _ _ => rfl⟩
    have absent : ¬ (tab.live j ∧ (tab.content j).addr = oldBssid) := fun h => absurd ((which j).mpr h) (by simp)
    exact ⟨fun alive => ⟨alive,fun same => absent ⟨alive,same⟩⟩,And.left⟩
  | some i =>
    obtain ⟨alive,same⟩ := (which i).mp rfl
    obtain ⟨tab',rows',result,kept',freed⟩ := deleteKept kept alive
    simp only [Option.bind_some,kept.numbered i alive,result,Option.map_some] at start
    refine ⟨tab',rows',start,kept',fun j => ?_,fun j alive' => ?_,freed.stale⟩
    · rcases eq_or_ne j i with rfl | other
      · simp [freed.gone,same]
      · have differs : tab.live j → (tab.content j).addr ≠ oldBssid :=
          fun alive' again => other (kept.distinct j i alive' alive (again.trans same.symm))
        rw [(liveOthers freed.others j other).1]
        exact ⟨fun alive' => ⟨alive',differs alive'⟩,And.left⟩
    · have other : j ≠ i := fun same => freed.gone (same ▸ alive')
      exact (liveOthers freed.others j other).2.1

def enrolled (tab : Table) (links : Links UInt8 Wcid) (bssid : MacAddr) (i : Wcid) : Table :=
  let tab := tab.withLinks links
  let entry := {tab.content i with addr := bssid, aid := bssidWcid, wcid := bssidWcid, entryType := .client}
  {tab.put i entry with size := tab.size + 1}

theorem staUpdated {args} (accepted : args.refused = false) (bssid) : staUpdateMacTableEntry tab args true bssid i =
      (tab.links.append walkFuel (macAddrHashIndex bssid) i).map fun links => (true,enrolled tab links bssid i) := by
  simp only [staUpdateMacTableEntry,accepted,Bool.false_eq_true,if_false,if_true,Table.linkEntry,Option.map_map]
  rfl

section
variable {links : Links UInt8 Wcid} {bssid : MacAddr}

theorem enrolledSelf : ((enrolled tab links bssid i).content i) = {tab.content i with
      pNext := links.next i, addr := bssid, aid := bssidWcid, wcid := bssidWcid, entryType := .client} :=
  Function.update_self ..

theorem enrolledElse {j} (other : j ≠ i) :
    (enrolled tab links bssid i).content j = (tab.withLinks links).content j := Function.update_of_ne other ..

theorem enrolledOthers (links j) (other : j ≠ i) :
    ((enrolled tab links bssid i).content j).identity = (tab.content j).identity := by
  rw [enrolledElse other,identityWithLinks]

theorem enrolledLive : (enrolled tab links bssid i).live i := by
  rw [Table.live,enrolledSelf]
  simp

theorem enrolledLinks : (enrolled tab links bssid i).links = links := by
  have nexts : ∀ j, ((enrolled tab links bssid i).content j).pNext = links.next j := by
    intro j
    rcases eq_or_ne j i with rfl | other
    · rw [enrolledSelf]
    · rw [enrolledElse other]
      rfl
  obtain ⟨head,next⟩ := links
  exact congrArg (Links.mk head) (funext nexts)
end

theorem staUpdateKept (kept : Kept tab rows) {args} (accepted : args.refused = false)
    (fresh : ∀ j, tab.live j → (tab.content j).addr ≠ addr) (free : ¬ tab.live bssidWcid)
    (loose : (tab.content bssidWcid).pNext = none) :
    ∃ tab' rows', staUpdateMacTableEntry tab args true addr bssidWcid = some (true,tab') ∧ Kept tab' rows' := by
  obtain ⟨links,result,holds,_⟩ :
      ∃ links, tab.links.append walkFuel (macAddrHashIndex addr) bssidWcid = some links ∧ _ :=
    kept.holds.append ((kept.short _).trans (Nat.le_succ _)) (kept.outside free) loose
  have entered := kept.enter free fresh (enrolledOthers links) enrolledLive (congrArg Entry.addr enrolledSelf)
    (congrArg Entry.wcid enrolledSelf) rfl (enrolledLinks ▸ holds)
  exact ⟨_,_,by rw [staUpdated accepted,result]; rfl,entered⟩

theorem staUpdateSound (kept : Kept tab rows) {args} (accepted : args.refused = false) {b}
    (result : staUpdateMacTableEntry tab args true addr bssidWcid = some (b,tab')) (sound : Sound tab') :
    ¬ tab.live bssidWcid ∧ (tab.content bssidWcid).pNext = none := by
  rw [staUpdated accepted] at result
  obtain ⟨links,linked,same⟩ := Option.map_eq_some_iff.mp result
  cases same
  have free : ¬ tab.live bssidWcid := by
    intro alive
    have set : (enrolled tab links addr bssidWcid).liveSet = tab.liveSet := by
      refine Finset.filter_congr fun j _ => ?_
      rcases eq_or_ne j bssidWcid with rfl | other
      · exact ⟨fun _ => alive,fun _ => enrolledLive⟩
      · exact (liveOthers (enrolledOthers links) j other).1
    have size : (tab.size + 1).toNat = tab.liveSet.card := set ▸ sound.size
    have bound := liveSetBound tab
    have wide : maxLenOfMacTable < 65535 := by decide
    rw [UInt16.toNat_add,kept.counted,Nat.mod_eq_of_lt (by simp only [UInt16.reduceToNat]; omega)] at size
    simp only [UInt16.reduceToNat] at size
    omega
  refine ⟨free,?_⟩
  by_contra stale
  obtain ⟨row,chain,_,members⟩ := sound.chains (macAddrHashIndex addr)
  have relinked : Chain (enrolled tab links addr bssidWcid).links.next
      ((enrolled tab links addr bssidWcid).links.head (macAddrHashIndex addr)) row := chain
  rw [enrolledLinks] at relinked
  refine kept.holds.appendStale ((kept.short _).trans (Nat.le_succ _)) (kept.outside free _) stale linked
    (fun j => ?_) relinked
  rw [members]
  rcases eq_or_ne j bssidWcid with rfl | other
  · simp [enrolledLive,enrolledSelf]
  · obtain ⟨alive,address,_⟩ := liveOthers (enrolledOthers links) j other
    rw [alive,address,kept.members]
    simp [other]

theorem associateKept (kept : Kept tab rows) {args oldBssid newBssid}
    (admitted : Admitted (some tab) (.associate args oldBssid newBssid))
    (unlinked : Unlinked (some tab) (.associate args oldBssid newBssid)) :
    ∃ tab' rows', associate tab args oldBssid newBssid = some tab' ∧ Kept tab' rows' := by
  obtain ⟨mid,rows',deleted,kept',live,addrs,stale⟩ := deleteOldKept kept oldBssid
  rw [associate,deleted]
  cases refused : args.refused with
  | true => exact ⟨mid,rows',by simp [staUpdateMacTableEntry,refused],kept'⟩
  | false =>
    obtain ⟨loose,here⟩ := unlinked.resolve_left (by simp [refused])
    have free : ¬ mid.live bssidWcid := fun alive => ((live _).mp alive).2 (here ((live _).mp alive).1)
    have fresh : ∀ j, mid.live j → (mid.content j).addr ≠ newBssid := by
      intro j alive same
      rw [addrs j alive] at same
      have before := (live j).mp alive
      have other : j ≠ bssidWcid := fun same => free (same ▸ alive)
      exact before.2 (admitted j other before.1 same)
    obtain ⟨tab',rows'',updated,kept''⟩ :=
      staUpdateKept kept' refused fresh free ((stale _ free).trans loose)
    exact ⟨tab',rows'',by rw [Option.bind_some,updated]; rfl,kept''⟩

theorem associateSound (kept : Kept tab rows) {args oldBssid newBssid}
    (result : associate tab args oldBssid newBssid = some tab') (sound : Sound tab') :
    Unlinked (some tab) (.associate args oldBssid newBssid) := by
  obtain ⟨mid,rows',deleted,kept',live,addrs,stale⟩ := deleteOldKept kept oldBssid
  rw [associate,deleted,Option.bind_some] at result
  obtain ⟨⟨b,last⟩,updated,same⟩ := Option.map_eq_some_iff.mp result
  cases same
  cases refused : args.refused with
  | true => exact .inl refused
  | false =>
    obtain ⟨free,loose⟩ := staUpdateSound kept' refused updated sound
    refine .inr ⟨(stale _ free).symm.trans loose,fun alive => ?_⟩
    by_contra other
    exact free ((live _).mpr ⟨alive,other⟩)

theorem applyKept (kept : Kept tab rows) {op} (admitted : Admitted (some tab) op)
    (unlinked : Unlinked (some tab) op) : ∃ tab' rows', apply tab op = some tab' ∧ Kept tab' rows' := by
  cases op with
  | insert infra addr =>
    obtain ⟨result,tab',rows',inserted,kept'⟩ := insertKept kept infra admitted
    exact ⟨tab',rows',by rw [apply,inserted]; rfl,kept'⟩
  | delete wcid addr =>
    obtain ⟨alive,rfl⟩ := admitted
    obtain ⟨tab',rows',deleted,kept',_⟩ := deleteKept kept alive
    exact ⟨tab',rows',by rw [apply,deleted]; rfl,kept'⟩
  | associate args oldBssid newBssid => exact associateKept kept admitted unlinked

theorem applySound (kept : Kept tab rows) {op} (result : apply tab op = some tab') (sound : Sound tab') :
    Unlinked (some tab) op := by
  cases op with
  | insert infra addr => trivial
  | delete wcid addr => trivial
  | associate args oldBssid newBssid => exact associateSound kept result sound
end

def SoundState (s : Option Table) : Prop := ∃ tab, s = some tab ∧ Sound tab

def KeptState (s : Option Table) : Prop := ∃ tab rows, s = some tab ∧ Kept tab rows

theorem KeptState.sound {s} : KeptState s → SoundState s
  | ⟨tab,_,same,kept⟩ => ⟨tab,same,kept.sound⟩

theorem stepKept (s op) (kept : KeptState s) (admitted : Admitted s op)
    (unlinked : Unlinked s op) : KeptState (step s op) := by
  obtain ⟨tab,rows,rfl,kept⟩ := kept
  obtain ⟨tab',rows',result,kept'⟩ := applyKept kept admitted unlinked
  exact ⟨tab',rows',result,kept'⟩

theorem stepSound (s op) (kept : KeptState s) (_ : Admitted s op)
    (sound : SoundState (step s op)) : Unlinked s op := by
  obtain ⟨tab,rows,rfl,kept⟩ := kept
  obtain ⟨tab',result,sound⟩ := sound
  exact applySound kept result sound

theorem zeroedKept : Kept zeroed fun _ => [] := by
  have none : ∀ i, ¬ zeroed.live i := fun i alive => alive rfl
  refine ⟨⟨fun _ => rfl,fun _ _ _ mem => absurd mem (by simp)⟩,fun h i => ?_,?_,fun i _ alive => ?_,fun i alive => ?_⟩
  · simp [none i]
  · rw [Table.liveSet,Finset.filter_false_of_mem fun i _ => none i]
    rfl
  · exact absurd alive (none i)
  · exact absurd alive (none i)

theorem macTableRepresented (ops : List Op) (admitted : Meets step Admitted (some zeroed) ops) :
    Always step SoundState (some zeroed) ops ↔ Meets step Unlinked (some zeroed) ops :=
  have kept : KeptState (some zeroed) := ⟨zeroed,_,rfl,zeroedKept⟩
  alwaysIffMeets (fun _ => KeptState.sound) stepKept stepSound kept admitted

instance decidableAdmitted : ∀ s op, Decidable (Admitted s op)
  | none,_ => isTrue trivial
  | some tab,.insert _ addr => inferInstanceAs (Decidable (∀ i, tab.live i → (tab.content i).addr ≠ addr))
  | some tab,.delete wcid addr => inferInstanceAs (Decidable (tab.live wcid ∧ (tab.content wcid).addr = addr))
  | some tab,.associate _ oldBssid newBssid => inferInstanceAs (Decidable (∀ i, i ≠ bssidWcid → tab.live i →
      (tab.content i).addr = newBssid → (tab.content i).addr = oldBssid))

instance decidableUnlinked : ∀ s op, Decidable (Unlinked s op)
  | none,_ => isTrue trivial
  | some _,.insert _ _ => isTrue trivial
  | some _,.delete _ _ => isTrue trivial
  | some tab,.associate args oldBssid _ => inferInstanceAs (Decidable (args.refused = true ∨
      (tab.content bssidWcid).pNext = none ∧ (tab.live bssidWcid → (tab.content bssidWcid).addr = oldBssid)))

theorem peerWcidBound : 2 < maxLenOfMacTable := by decide
def peerWcid : Wcid := ⟨2,peerWcidBound⟩

def sampleAp : MacAddr := #v[2,0,0,0,0,1]
def samplePeer : MacAddr := #v[2,0,0,0,1,0]
def sampleStranger : MacAddr := #v[2,0,0,1,0,0]
def sampleArgs : AssocArgs := {phyMode := 0x3e, maxSupportedRateIn500Kbps := 108, htcapLen := 26}

def rejoining : List Op := [.associate sampleArgs zeroAddr sampleAp,.insert true samplePeer,
  .delete peerWcid samplePeer,.associate sampleArgs sampleAp sampleAp]

theorem macTableRepresentedRejoining :
    Meets step Admitted (some zeroed) rejoining ∧ Always step SoundState (some zeroed) rejoining := by
  have admitted : Meets step Admitted (some zeroed) rejoining := by decide +kernel
  exact ⟨admitted,(macTableRepresented rejoining admitted).mpr (by decide +kernel)⟩

def crowded : List Op := [.associate sampleArgs zeroAddr sampleAp,.insert true samplePeer,
  .associate sampleArgs sampleAp sampleAp]

theorem staleLinkCycles :
    Meets step Admitted (some zeroed) crowded ∧
    ∃ tab, run step (some zeroed) crowded = some tab ∧
      (tab.content peerWcid).pNext = some bssidWcid ∧ (tab.content bssidWcid).pNext = some peerWcid ∧
      (∀ fuel, macTableLookup tab fuel sampleStranger = none) ∧ ¬ Sound tab := by
  refine ⟨by decide +kernel,?_⟩
  have seen : (run step (some zeroed) crowded).map (fun tab =>
      (tab.hash (macAddrHashIndex sampleStranger),(tab.content peerWcid).pNext,(tab.content bssidWcid).pNext,
        [peerWcid,bssidWcid].all fun i => !((tab.content i).isNone || (tab.content i).addr == sampleStranger))) =
      some (some peerWcid,some bssidWcid,some peerWcid,true) := by decide +kernel
  obtain ⟨tab,reached,fields⟩ := Option.map_eq_some_iff.mp seen
  simp only [Prod.mk.injEq,List.all_cons,List.all_nil,Bool.and_true,Bool.and_eq_true,Bool.not_eq_true'] at fields
  obtain ⟨first,peer,ap,peerOther,apOther⟩ := fields
  have endless : ∀ fuel, macTableLookup tab fuel sampleStranger = none := by
    intro fuel
    rw [macTableLookup,first]
    refine seekNever (fun i => i = peerWcid ∨ i = bssidWcid) ?_ fuel (.inl rfl)
    rintro i (rfl | rfl)
    · exact ⟨peerOther,_,peer,.inr rfl⟩
    · exact ⟨apOther,_,ap,.inl rfl⟩
  refine ⟨tab,reached,peer,ap,endless,fun sound => ?_⟩
  obtain ⟨found,ends,_⟩ := sound.lookup sampleStranger _ (Nat.lt_succ_self maxLenOfMacTable)
  exact absurd ((endless _).symm.trans ends) (by simp)

end RtmpDriver.MacTable
