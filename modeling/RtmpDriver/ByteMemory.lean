import Mathlib.Data.List.Basic
import Mathlib.Tactic.Common

/-! Memory as a function from addresses, with stores and loads of whole blocks. `Holds` reads a memory as a block at a
place; `Region` is a memory that keeps the list of the ranges written. -/
namespace RtmpDriver.ByteMemory
open List
universe u
variable {α : Type u}

def store (m : Nat → α) (p : Nat) (b : List α) : Nat → α :=
  fun i => if p ≤ i then b[i - p]?.getD (m i) else m i

def load (m : Nat → α) (p n : Nat) : List α := (range n).map fun i => m (p + i)

def Apart (p n q k : Nat) : Prop := p + n ≤ q ∨ q + k ≤ p

def Holds (m : Nat → α) (p : Nat) (b : List α) : Prop := load m p b.length = b

variable {m m' : Nat → α} {p q n k i : Nat} {b c : List α}

@[simp] theorem loadLength : (load m p n).length = n := by simp [load]

theorem loadGet (inside : k < n) : (load m p n)[k]? = some (m (p + k)) := by
  simp [load,inside]

theorem storeIn (inside : k < b.length) : some (store m p b (p + k)) = b[k]? := by
  simp [store,inside]

theorem storeOut (outside : i < p ∨ p + b.length ≤ i) : store m p b i = m i := by
  unfold store
  split
  · have none : b[i - p]? = none := getElem?_eq_none (by omega)
    rw [none]
    rfl
  · rfl

theorem storeCongr (same : m i = m' i) : store m p b i = store m' p b i := by
  simp only [store,same]

theorem storeOver (low : p ≤ i) (high : i < p + b.length) : store m p b i = store m' p b i := by
  obtain ⟨k,rfl⟩ := Nat.exists_eq_add_of_le low
  have inside : k < b.length := by omega
  exact Option.some.inj ((storeIn inside).trans (storeIn inside).symm)

theorem loadExt (size : b.length = n) (same : ∀ k, k < n → b[k]? = some (m (p + k))) : load m p n = b := by
  apply ext_getElem?
  intro k
  rcases Nat.lt_or_ge k n with inside | outside
  · rw [loadGet inside,same k inside]
  · rw [getElem?_eq_none (by simpa using outside),getElem?_eq_none (by omega)]

theorem loadCongr (same : ∀ i, p ≤ i → i < p + n → m i = m' i) : load m p n = load m' p n := by
  refine loadExt loadLength fun k inside => ?_
  rw [loadGet inside,same (p + k) (by omega) (by omega)]

theorem loadApart (apart : Apart p b.length q n) : load (store m p b) q n = load m q n := by
  unfold Apart at apart
  exact loadCongr fun i low high => storeOut (by omega)

theorem loadAppend : load m p (n + k) = load m p n ++ load m (p + n) k := by
  refine loadExt (by simp) fun j inside => ?_
  rcases Nat.lt_or_ge j n with left | right
  · rw [getElem?_append_left (by simpa using left),loadGet left]
  · rw [getElem?_append_right (by simpa using right),loadLength,loadGet (by omega)]
    congr 2
    omega

theorem loadTake (short : n ≤ k) : (load m p k).take n = load m p n := by
  obtain ⟨rest,rfl⟩ := Nat.exists_eq_add_of_le short
  rw [loadAppend,take_left' loadLength]

theorem storeLoad : store m p (load m p n) = m := by
  funext i
  rcases Nat.lt_or_ge i p with below | low
  · exact storeOut (.inl below)
  · rcases Nat.lt_or_ge i (p + n) with inside | above
    · obtain ⟨k,rfl⟩ := Nat.exists_eq_add_of_le low
      have here : k < n := by omega
      refine Option.some.inj ?_
      rw [storeIn (by simpa using here),loadGet here]
    · exact storeOut (.inr (by simpa using above))

theorem storeNil : store m p [] = m := storeLoad (n := 0)

theorem storeAgain (size : b.length = c.length) : store (store m p b) p c = store m p c := by
  funext i
  rcases Nat.lt_or_ge i p with below | low
  · exact storeCongr (storeOut (.inl below))
  · rcases Nat.lt_or_ge i (p + c.length) with inside | above
    · exact storeOver low inside
    · exact storeCongr (storeOut (.inr (by omega)))

theorem storeComm (apart : Apart p b.length q c.length) : store (store m p b) q c = store (store m q c) p b := by
  unfold Apart at apart
  have only : ∀ i, (i < p ∨ p + b.length ≤ i) ∨ p ≤ i ∧ i < p + b.length := by omega
  funext i
  rcases only i with outside | ⟨low,high⟩
  · rw [storeOut outside]
    exact storeCongr (storeOut outside)
  · have other : i < q ∨ q + c.length ≤ i := by omega
    rw [storeOut other]
    exact storeOver low high

theorem holdsNil : Holds m p [] := rfl

theorem holdsGetD (b : List α) (fill) : Holds (fun i => b.getD i fill) 0 b :=
  loadExt rfl fun k inside => by simp [getD_eq_getElem?_getD,inside]

theorem holdsStore : Holds (store m p b) p b := loadExt rfl fun _ inside => (storeIn inside).symm

theorem Holds.congr (holds : Holds m p b) (same : ∀ i, p ≤ i → i < p + b.length → m' i = m i) : Holds m' p b :=
  (loadCongr same).trans holds

theorem Holds.apart (holds : Holds m q c) (apart : Apart p b.length q c.length) : Holds (store m p b) q c :=
  (loadApart apart).trans holds

theorem holdsAppend : Holds m p (b ++ c) ↔ Holds m p b ∧ Holds m (p + b.length) c := by
  unfold Holds
  rw [length_append,loadAppend]
  constructor
  · intro whole
    exact append_inj whole loadLength
  · rintro ⟨left,right⟩
    rw [left,right]

theorem storeAppend : store m p (b ++ c) = store (store m p b) (p + b.length) c := by
  funext i
  have only : ∀ i, i < p ∨ (p ≤ i ∧ i < p + b.length) ∨ p + b.length ≤ i := by omega
  rcases only i with below | ⟨low,high⟩ | right
  · rw [storeOut (.inl below),storeOut (.inl (by omega)),storeOut (.inl below)]
  · obtain ⟨k,rfl⟩ := Nat.exists_eq_add_of_le low
    have inside : k < b.length := by omega
    rw [storeOut (i := p + k) (p := p + b.length) (.inl high)]
    refine Option.some.inj ?_
    rw [storeIn (by rw [length_append]; omega),storeIn inside,getElem?_append_left inside]
  · obtain ⟨k,rfl⟩ := Nat.exists_eq_add_of_le right
    rcases Nat.lt_or_ge k c.length with inside | above
    · refine Option.some.inj ?_
      rw [storeIn inside,Nat.add_assoc,storeIn (by rw [length_append]; omega),
        getElem?_append_right (by omega),Nat.add_sub_cancel_left]
    · rw [storeOut (.inr (by rw [length_append]; omega)),storeOut (.inr (by omega)),storeOut (.inr (by omega))]

theorem Holds.extend (holds : Holds m p b) : Holds (store m (p + b.length) c) p (b ++ c) :=
  holdsAppend.mpr ⟨holds.apart (.inr (Nat.le_refl _)),holdsStore⟩

theorem Holds.get (holds : Holds m p b) (inside : k < b.length) : b[k]? = some (m (p + k)) := by
  conv_lhs => rw [← holds]
  exact loadGet inside

theorem Holds.take (holds : Holds m p b) (less : n ≤ b.length) : load m p n = b.take n := by
  refine loadExt (length_take_of_le less) fun k inside => ?_
  rw [getElem?_take_of_lt inside]
  exact holds.get (by omega)

theorem Holds.drop (holds : Holds m p b) (less : n ≤ b.length) : Holds m (p + n) (b.drop n) := by
  rw [← take_append_drop n b,holdsAppend,length_take_of_le less] at holds
  exact holds.2

structure Region (α : Type u) where
  cells : Nat → α
  spans : List (Nat × Nat)

def Region.write (r : Region α) (p : Nat) (b : List α) : Region α :=
  ⟨store r.cells p b,r.spans ++ [(p,b.length)]⟩

def Region.patch (r : Region α) (p n : Nat) (f : List α → List α) : Region α := r.write p (f (load r.cells p n))

def Region.forget (r : Region α) : Region α := ⟨r.cells,[]⟩

@[simp] theorem Region.writeCells (r : Region α) : (r.write p b).cells = store r.cells p b := rfl

@[simp] theorem Region.writeSpans (r : Region α) : (r.write p b).spans = r.spans ++ [(p,b.length)] := rfl

def Front (n : Nat) (f : List α → List α) : Prop :=
  ∀ b c, b.length = n → f (b ++ c) = f b ++ c ∧ (f b).length = n

theorem Front.comp {f g : List α → List α} (first : Front n f) (second : Front n g) :
    Front n (fun b => g (f b)) := by
  intro b c size
  obtain ⟨whole,long⟩ := first b c size
  obtain ⟨whole',long'⟩ := second (f b) c long
  refine ⟨?_,long'⟩
  show g (f (b ++ c)) = g (f b) ++ c
  rw [whole,whole']

theorem Front.more {f : List α → List α} (front : Front n f) (less : n ≤ k) : Front k f := by
  intro b c size
  have short : (b.take n).length = n := length_take_of_le (by omega)
  obtain ⟨whole,_⟩ := front (b.take n) (b.drop n ++ c) short
  obtain ⟨alone,same⟩ := front (b.take n) (b.drop n) short
  rw [← append_assoc,take_append_drop] at whole
  rw [take_append_drop] at alone
  refine ⟨by rw [whole,alone,append_assoc],?_⟩
  rw [alone,length_append,same,length_drop]
  omega

theorem frontModify {f : α → α} (inside : k < n) : Front n (fun b => b.modify k f) := by
  intro b c size
  refine ⟨?_,by simpa using size⟩
  apply ext_getElem?
  intro j
  rcases Nat.lt_or_ge j b.length with left | right
  · rw [getElem?_modify,getElem?_append_left left,getElem?_append_left (by simpa using left),
      getElem?_modify]
  · have other : k ≠ j := by omega
    rw [getElem?_modify,getElem?_append_right right,
      getElem?_append_right (by simpa using right),length_modify]
    simp [other]

theorem Front.split {f} (front : Front n f) (long : n ≤ b.length) :
    f b = f (b.take n) ++ b.drop n ∧ (f (b.take n)).length = n := by
  have whole := front (b.take n) (b.drop n) (length_take_of_le long)
  rwa [take_append_drop] at whole

theorem Front.length {f} (front : Front n f) (long : n ≤ b.length) : (f b).length = b.length := by
  obtain ⟨whole,same⟩ := front.split long
  rw [whole,length_append,same,length_drop]
  omega

theorem Front.holds {f} {r : Region α} (front : Front n f) (long : n ≤ b.length)
    (holds : Holds r.cells p b) : Holds (r.patch p n f).cells p (f b) := by
  have size : (b.take n).length = n := length_take_of_le long
  obtain ⟨whole,same⟩ := front.split long
  rw [← take_append_drop n b,holdsAppend,size] at holds
  rw [whole,holdsAppend,same]
  have read : load r.cells p n = b.take n := by
    have first := holds.1
    rwa [Holds,size] at first
  simp only [Region.patch,Region.writeCells,read]
  refine ⟨holdsStore,holds.2.apart ?_⟩
  rw [same]
  exact .inl (Nat.le_refl _)

structure Edited (r r' : Region α) (p : Nat) (b b' : List α) : Prop where
  holds : Holds r'.cells p b'
  size : b'.length = b.length
  outside : ∀ i, i < p ∨ p + b.length ≤ i → r'.cells i = r.cells i
  spans : ∀ x ∈ r'.spans, x ∈ r.spans ∨ p ≤ x.1 ∧ x.1 + x.2 ≤ p + b.length

variable {r r' r'' : Region α} {b' b'' c' : List α}

theorem Edited.refl (holds : Holds r.cells p b) : Edited r r p b b :=
  ⟨holds,rfl,fun _ _ => rfl,fun _ mem => .inl mem⟩

theorem Edited.trans (first : Edited r r' p b b') (second : Edited r' r'' p b' b'') : Edited r r'' p b b'' := by
  refine ⟨second.holds,second.size.trans first.size,?_,?_⟩
  · intro i outside
    rw [second.outside i (by rw [first.size]; exact outside),first.outside i outside]
  · intro x mem
    rcases second.spans x mem with before | inside
    · exact first.spans x before
    · rw [first.size] at inside
      exact .inr inside

theorem Edited.patch {f : List α → List α} (front : Front n f) (long : n ≤ b.length) (holds : Holds r.cells p b) :
    Edited r (r.patch p n f) p b (f b) := by
  have size : (f (load r.cells p n)).length = n := by
    have alone := (front (load r.cells p n) [] loadLength).2
    exact alone
  refine ⟨front.holds long holds,front.length long,?_,?_⟩
  · intro i outside
    exact storeOut (by omega)
  · intro x mem
    simp only [Region.patch,Region.writeSpans,mem_append,mem_singleton] at mem
    rcases mem with before | rfl
    · exact .inl before
    · exact .inr (by simp only; omega)

theorem Edited.append (first : Edited r r' p b b') (second : Edited r' r'' (p + b.length) c c') :
    Edited r r'' p (b ++ c) (b' ++ c') := by
  refine ⟨holdsAppend.mpr ⟨?_,?_⟩,by simp [first.size,second.size],?_,?_⟩
  · refine first.holds.congr fun i low high => second.outside i (.inl ?_)
    rwa [first.size] at high
  · rw [first.size]
    exact second.holds
  · intro i outside
    rw [length_append] at outside
    rw [second.outside i (by omega),first.outside i (by omega)]
  · intro x mem
    rw [length_append]
    rcases second.spans x mem with before | inside
    · rcases first.spans x before with before | inside
      · exact .inl before
      · exact .inr (by omega)
    · exact .inr (by omega)

end RtmpDriver.ByteMemory
