import RtmpDriver.LinkedBuckets
import RtmpDriver.StepMachine

/-! The linked list of `link_list.h`: `pNext` has the link of every entry, and the size is a UCHAR. -/
namespace RtmpDriver.LinkList
open LinkedBuckets StepMachine List

structure ListHeader (α : Type) where
  pHead : Option α
  pTail : Option α
  size : UInt8
  pNext : α → Option α

variable {α : Type} [DecidableEq α]

def initList (list : ListHeader α) : ListHeader α := { list with pHead := none, pTail := none, size := 0 }

def insertTailList (list : ListHeader α) (pEntry : α) : ListHeader α :=
  let pNext := Function.update list.pNext pEntry none
  match list.pTail with
  | some pTail =>
    { list with pNext := Function.update pNext pTail (some pEntry), pTail := some pEntry, size := list.size + 1 }
  | none => ⟨some pEntry,some pEntry,list.size + 1,pNext⟩

def ListHeader.dropHead (list : ListHeader α) (pEntry : α) : ListHeader α :=
  { list with pHead := list.pNext pEntry,
              pTail := if list.pNext pEntry = none then none else list.pTail,
              size := list.size - 1 }

def removeHeadList (list : ListHeader α) : ListHeader α × Option α :=
  match list.pHead with
  | none => (list,none)
  | some pEntry => (list.dropHead pEntry,some pEntry)

def getListSize (list : ListHeader α) : Nat := list.size.toNat

def ListHeader.bypass (list : ListHeader α) (pPrvEntry pEntry : α) : ListHeader α :=
  { list with pNext := Function.update list.pNext pPrvEntry (list.pNext pEntry),
              pTail := if some pEntry = list.pTail then some pPrvEntry else list.pTail,
              size := list.size - 1 }

def delLoop (list : ListHeader α) (pEntry : α) : Nat → α → Option α → Option (ListHeader α × Option α)
  | 0,_,_ => none
  | _ + 1,_,none => some (list,none)
  | fuel + 1,pPrvEntry,some pCurEntry =>
    if pEntry = pCurEntry then some (list.bypass pPrvEntry pCurEntry,some pCurEntry)
    else delLoop list pEntry fuel pCurEntry (list.pNext pCurEntry)

def delEntryList (fuel : Nat) (list : ListHeader α) (pEntry : α) : Option (ListHeader α × Option α) :=
  match list.pHead with
  | none => some (list,none)
  | some pHead =>
    if pEntry = pHead then some (list.dropHead pHead,some pHead)
    else delLoop list pEntry fuel pHead (list.pNext pHead)

inductive Call (α : Type) where
  | initList
  | insertTailList (pEntry : α)
  | removeHeadList
  | delEntryList (pEntry : α)

def step (fuel : Nat) (list : Option (ListHeader α)) (call : Call α) : Option (ListHeader α) :=
  list.bind fun list => match call with
    | .initList => some (LinkList.initList list)
    | .insertTailList pEntry => some (LinkList.insertTailList list pEntry)
    | .removeHeadList => some (LinkList.removeHeadList list).1
    | .delEntryList pEntry => (LinkList.delEntryList fuel list pEntry).map (·.1)

def entries (l : List α) : Call α → List α
  | .initList => []
  | .insertTailList pEntry => l ++ [pEntry]
  | .removeHeadList => l.tail
  | .delEntryList pEntry => l.erase pEntry

def Inserts (l : List α) : Call α → Prop
  | .insertTailList pEntry => pEntry ∉ l
  | _ => True

structure Exact (fuel : Nat) (list : ListHeader α) (l : List α) : Prop where
  chain : Chain list.pNext list.pHead l
  size : getListSize list = l.length
  tail : list.pTail = l.getLast?
  deletes : ∀ pEntry, ∃ after, delEntryList fuel list pEntry = some (after,if pEntry ∈ l then some pEntry else none) ∧
    Chain after.pNext after.pHead (l.erase pEntry) ∧ (pEntry ∉ l → after = list)

def IsExact (fuel : Nat) (list : Option (ListHeader α)) : Prop := ∃ s l, list = some s ∧ Exact fuel s l

structure Linked (list : ListHeader α) (l : List α) : Prop where
  chain : Chain list.pNext list.pHead l
  tail : list.pTail = l.getLast?
  size : list.size.toNat = l.length % 256

theorem sizeLess {size : UInt8} {n} (same : size.toNat = (n + 1) % 256) : (size - 1).toNat = n % 256 := by
  rw [UInt8.toNat_sub,same,show (1 : UInt8).toNat = 1 from rfl]
  omega

section Operations
variable {list : ListHeader α} {l r : List α} {pEntry pHead pPrvEntry : α} {p : Option α} {fuel : Nat}

theorem insertLinked (linked : Linked list l) (fresh : pEntry ∉ l) :
    Linked (insertTailList list pEntry) (l ++ [pEntry]) := by
  have grown : (list.size + 1).toNat = (l ++ [pEntry]).length % 256 := by
    rw [UInt8.toNat_add,linked.size,length_append,show (1 : UInt8).toNat = 1 from rfl,length_singleton]
    omega
  unfold insertTailList
  rcases eq_nil_or_concat l with rfl | ⟨front,z,rfl⟩
  · rw [show list.pTail = none from linked.tail]
    exact ⟨⟨rfl,Function.update_self ..⟩,rfl,grown⟩
  · rw [concat_eq_append] at *
    have tail : list.pTail = some z := by rw [linked.tail,getLast?_concat]
    have apart := nodup_append.mp linked.chain.nodup
    rw [tail]
    refine ⟨linked.chain.extend (fun b mem => ?_) (Function.update_self ..) ?_,getLast?_concat.symm,grown⟩
    · have other : b ≠ z := apart.2.2 b mem z mem_cons_self
      have old : b ≠ pEntry := fun same => fresh (mem_append_left _ (same ▸ mem))
      simp only [Function.update_of_ne other,Function.update_of_ne old]
    · have other : pEntry ≠ z := fun same => fresh (by simp [same])
      simp only [Function.update_of_ne other,Function.update_self]

omit [DecidableEq α] in
theorem dropLinked (linked : Linked list (pHead :: l)) : Linked (list.dropHead pHead) l := by
  have rest : Chain list.pNext (list.pNext pHead) l := linked.chain.2
  refine ⟨rest,?_,sizeLess linked.size⟩
  have tail := linked.tail
  cases l with
  | nil => exact if_pos rest
  | cons b l =>
    rw [getLast?_cons_cons] at tail
    simp only [ListHeader.dropHead,rest.1,reduceCtorEq,if_false,tail]

omit [DecidableEq α] in
theorem removeLinked (linked : Linked list l) : Linked (removeHeadList list).1 l.tail := by
  unfold removeHeadList
  cases l with
  | nil =>
    rwa [show list.pHead = none from linked.chain]
  | cons a l =>
    rw [show list.pHead = some a from linked.chain.1]
    exact dropLinked linked

theorem loopMisses (chain : Chain list.pNext p l) (absent : pEntry ∉ l) (enough : l.length < fuel) :
    delLoop list pEntry fuel pPrvEntry p = some (list,none) := by
  induction l generalizing p pPrvEntry fuel with
  | nil =>
    obtain ⟨fuel,rfl⟩ := Nat.exists_eq_succ_of_ne_zero (Nat.ne_zero_of_lt enough)
    rw [show p = none from chain]
    rfl
  | cons a l ih =>
    obtain ⟨fuel,rfl⟩ := Nat.exists_eq_succ_of_ne_zero (Nat.ne_zero_of_lt enough)
    rw [mem_cons,not_or] at absent
    rw [chain.1,delLoop,if_neg absent.1]
    exact ih chain.2 absent.2 (Nat.lt_of_succ_lt_succ enough)

theorem loopFinds (chain : Chain list.pNext p (l ++ pEntry :: r)) (absent : pEntry ∉ l) (enough : l.length < fuel) :
    delLoop list pEntry fuel pPrvEntry p = some (list.bypass (l.getLast?.getD pPrvEntry) pEntry,some pEntry) := by
  induction l generalizing p pPrvEntry fuel with
  | nil =>
    obtain ⟨fuel,rfl⟩ := Nat.exists_eq_succ_of_ne_zero (Nat.ne_zero_of_lt enough)
    rw [show p = some pEntry from chain.1,delLoop,if_pos rfl]
    rfl
  | cons a l ih =>
    obtain ⟨fuel,rfl⟩ := Nat.exists_eq_succ_of_ne_zero (Nat.ne_zero_of_lt enough)
    rw [mem_cons,not_or] at absent
    rw [show p = some a from chain.1,delLoop,if_neg absent.1,ih chain.2 absent.2 (Nat.lt_of_succ_lt_succ enough),
      getLast?_cons,Option.getD_some]

theorem bypassLinked (linked : Linked list (l ++ [pPrvEntry] ++ pEntry :: r)) :
    Linked (list.bypass pPrvEntry pEntry) (l ++ [pPrvEntry] ++ r) := by
  have nodup := linked.chain.nodup
  refine ⟨linked.chain.skip (fun b mem => Function.update_of_ne ?_ ..) (Function.update_self ..),?_,?_⟩
  · rintro rfl
    simp only [append_assoc,singleton_append] at nodup
    have alone := (nodup_cons.mp (nodup_middle.mp nodup)).1
    rw [mem_append] at mem alone
    exact alone (mem.imp id (mem_cons_of_mem _))
  · have tail := linked.tail
    simp only [ListHeader.bypass,tail]
    rcases eq_nil_or_concat r with rfl | ⟨r,z,rfl⟩
    · rw [getLast?_concat,if_pos rfl,append_nil,getLast?_concat]
    · have other : pEntry ≠ z := by
        rintro rfl
        simp [nodup_append] at nodup
      rw [concat_eq_append,← cons_append,← append_assoc,← append_assoc,getLast?_concat,
        getLast?_concat,if_neg fun same => other (Option.some.inj same)]
  · have size := linked.size
    rw [length_append,length_cons,← Nat.add_assoc] at size
    rw [length_append]
    exact sizeLess size

theorem deleteLinked (linked : Linked list l) (enough : l.length ≤ fuel) (pEntry) :
    ∃ after, delEntryList fuel list pEntry = some (after,if pEntry ∈ l then some pEntry else none) ∧
      Linked after (l.erase pEntry) ∧ (pEntry ∉ l → after = list) := by
  unfold delEntryList
  cases l with
  | nil =>
    rw [show list.pHead = none from linked.chain]
    exact ⟨list,rfl,linked,fun _ => rfl⟩
  | cons a l =>
    have rest : Chain list.pNext (list.pNext a) l := linked.chain.2
    rw [show list.pHead = some a from linked.chain.1]
    simp only
    rcases eq_or_ne pEntry a with rfl | other
    · rw [if_pos rfl,if_pos mem_cons_self,erase_cons_head]
      exact ⟨_,rfl,dropLinked linked,fun absent => absurd mem_cons_self absent⟩
    rw [if_neg other,erase_cons_tail (by simpa using other.symm)]
    rcases Decidable.em (pEntry ∈ l) with mem | absent
    · obtain ⟨front,r,rfl,fresh⟩ := eq_append_cons_of_mem mem
      have short : front.length < fuel := by
        simp only [length_cons,length_append] at enough
        omega
      have inside := mem_cons_of_mem a mem
      rw [loopFinds rest fresh short,if_pos inside,erase_append_right _ fresh,erase_cons_head]
      refine ⟨_,rfl,?_,fun absent => absurd inside absent⟩
      rcases eq_nil_or_concat front with rfl | ⟨front,z,rfl⟩
      · exact bypassLinked (l := []) linked
      · rw [concat_eq_append] at *
        rw [getLast?_concat,← cons_append,← cons_append]
        exact bypassLinked (l := a :: front) linked
    · have outside : pEntry ∉ a :: l := by simp [other,absent]
      rw [loopMisses rest absent enough,if_neg outside,erase_of_not_mem absent]
      exact ⟨list,rfl,linked,fun _ => rfl⟩

theorem stepLinked (linked : Linked list l) (enough : l.length ≤ fuel) (call) (inserts : Inserts l call) :
    ∃ after, step fuel (some list) call = some after ∧ Linked after (entries l call) := by
  cases call with
  | initList => exact ⟨_,rfl,rfl,rfl,rfl⟩
  | insertTailList pEntry => exact ⟨_,rfl,insertLinked linked inserts⟩
  | removeHeadList => exact ⟨_,rfl,removeLinked linked⟩
  | delEntryList pEntry =>
    obtain ⟨after,result,later,_⟩ := deleteLinked linked enough pEntry
    exact ⟨after,by simp [step,result],later⟩

theorem exactIff (linked : Linked list l) (enough : l.length ≤ fuel) :
    IsExact fuel (some list) ↔ l.length ≤ 255 := by
  constructor
  · rintro ⟨_,other,same,exact_⟩
    cases same
    have size := exact_.size
    rw [exact_.chain.unique linked.chain,getListSize,linked.size] at size
    omega
  · intro short
    refine ⟨list,l,rfl,linked.chain,by rw [getListSize,linked.size]; omega,linked.tail,fun pEntry => ?_⟩
    obtain ⟨after,result,later,same⟩ := deleteLinked linked enough pEntry
    exact ⟨after,result,later.chain,same⟩

theorem entriesShort (l : List α) (call) : (entries l call).length ≤ l.length + 1 := by
  cases call with
  | initList => exact Nat.zero_le _
  | insertTailList pEntry => exact Nat.le_of_eq (by simp [entries])
  | removeHeadList => simp only [entries,length_tail]; omega
  | delEntryList pEntry => exact Nat.le_succ_of_le (length_erase_le ..)

theorem alwaysExact {calls} (linked : Linked list l) (enough : l.length + calls.length ≤ fuel)
    (inserts : Meets entries Inserts l calls) :
    Always (step fuel) (IsExact fuel) (some list) calls ↔ Always entries (·.length ≤ 255) l calls := by
  induction calls generalizing list l with
  | nil => rw [alwaysNil,alwaysNil,exactIff linked (Nat.le_of_add_right_le enough)]
  | cons call rest ih =>
    obtain ⟨after,result,later⟩ := stepLinked linked (Nat.le_of_add_right_le enough) call inserts.1
    have short := entriesShort l call
    rw [length_cons] at enough
    rw [alwaysCons,alwaysCons,exactIff linked (by omega),result,ih later (by omega) inserts.2]
end Operations

theorem listSizeExact (list : ListHeader α) (calls : List (Call α)) (fuel : Nat) (enough : calls.length ≤ fuel)
    (inserts : Meets entries Inserts [] calls) :
    Always (step fuel) (IsExact fuel) (some (initList list)) calls ↔ Always entries (·.length ≤ 255) [] calls :=
  alwaysExact ⟨rfl,rfl,rfl⟩ (by simpa using enough) inserts

def blank : ListHeader Nat := ⟨none,none,0,fun _ => none⟩

theorem listSizeExactThree :
    Always (step 5) (IsExact 5) (some (initList blank))
      [.insertTailList 7,.insertTailList 8,.insertTailList 9,.delEntryList 8,.removeHeadList] := by
  refine (listSizeExact blank _ 5 (by decide) ?_).mpr ?_
  · simp [Meets,Inserts,entries]
  · simp [alwaysCons,alwaysNil,entries]

def insertAll (r : List α) : List (Call α) := r.map .insertTailList

theorem insertAllEntries {l r : List α} (nodup : (l ++ r).Nodup) :
    Meets entries Inserts l (insertAll r) ∧ run entries l (insertAll r) = l ++ r := by
  induction r generalizing l with
  | nil => exact ⟨trivial,(append_nil l).symm⟩
  | cons a r ih =>
    have fresh : a ∉ l := fun mem => (nodup_append.mp nodup).2.2 a mem a mem_cons_self rfl
    rw [append_cons] at nodup ⊢
    exact ⟨⟨fresh,(ih nodup).1⟩,(ih nodup).2⟩

theorem listSizeWraps :
    Meets entries Inserts [] (insertAll (range 300)) ∧
      ¬ Always (step 300) (IsExact 300) (some (initList blank)) (insertAll (range 300)) := by
  have nodup : ([] ++ range 300).Nodup := by rw [nil_append]; exact nodup_range
  obtain ⟨inserts,all⟩ := insertAllEntries nodup
  refine ⟨inserts,fun exact_ => ?_⟩
  have linked : Linked (initList blank) [] := ⟨rfl,rfl,rfl⟩
  have short := alwaysLast ((alwaysExact linked (by simp [insertAll]) inserts).mp exact_)
  rw [all,nil_append,length_range] at short
  omega

end RtmpDriver.LinkList
