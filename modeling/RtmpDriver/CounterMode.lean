import RtmpDriver.StreamMove

/-! A cipher that mixes its text with pads of a fixed size, each made from the counter that follows the last one. -/
namespace RtmpDriver.CounterMode
open ByteMemory StreamMove List
universe u v

structure Mode (σ : Type u) (α : Type v) where
  mix : α → α → α
  cancel : ∀ a b, mix (mix a b) b = a
  next : σ → σ
  pad : σ → Nat → α
  size : Nat
  positive : 0 < size

variable {σ : Type u} {α : Type v}

def Mode.step (c : Mode σ α) (s : σ) (i : Nat) (b : α) : Nat × α := (i + 1,c.mix b (c.pad s i))

def Mode.loop (c : Mode σ α) : Nat → σ → Nat → Nat → Nat → (Nat → α) → Nat → α
  | 0,_,_,_,_,m => m
  | fuel + 1,s,src,dst,left,m =>
    if left = 0 then m
    else
      let copy := min left c.size
      c.loop fuel (c.next s) (src + copy) (dst + copy) (left - copy) (move (c.step (c.next s)) 0 src dst copy m)

def Mode.text (c : Mode σ α) : Nat → σ → List α → List α
  | 0,_,_ => []
  | fuel + 1,s,data =>
    transduce (c.step (c.next s)) 0 (data.take c.size) ++ c.text fuel (c.next s) (data.drop c.size)

variable {c : Mode σ α} {s : σ} {m : Nat → α} {fuel src dst left : Nat} {data : List α}

theorem stepInverse (c : Mode σ α) (s) : SelfInverse (c.step s) :=
  ⟨fun _ _ => rfl,fun _ _ => c.cancel _ _⟩

theorem textNil (fuel) : c.text fuel s [] = [] := by
  induction fuel generalizing s with
  | zero => rfl
  | succ fuel ih => simp [Mode.text,transduce,ih]

theorem textLength (enough : data.length ≤ fuel) : (c.text fuel s data).length = data.length := by
  induction fuel generalizing s data with
  | zero => exact (Nat.le_zero.mp enough).symm
  | succ fuel ih =>
    have positive := c.positive
    have rest : (data.drop c.size).length ≤ fuel := by
      rw [length_drop]
      omega
    rw [Mode.text,length_append,transduceLength,ih rest,length_take,length_drop]
    omega

theorem loopIs (clear : dst ≤ src ∨ src + left ≤ dst) :
    c.loop fuel s src dst left m = store m dst (c.text fuel s (load m src left)) := by
  induction fuel generalizing s src dst left m with
  | zero => exact (storeLoad (n := 0)).symm
  | succ fuel ih =>
    rw [Mode.loop]
    split
    next none =>
      subst none
      have empty : load m src 0 = [] := rfl
      rw [empty,textNil]
      exact (storeLoad (n := 0)).symm
    next =>
      have pieces : load m src left =
          load m src (min left c.size) ++ load m (src + min left c.size) (left - min left c.size) := by
        rw [← loadAppend,Nat.add_sub_cancel' (Nat.min_le_left _ _)]
      have head : (load m src left).take c.size = load m src (min left c.size) := by
        rcases Nat.le_total left c.size with short | long
        · rw [Nat.min_eq_left short]
          exact take_of_length_le (by rwa [loadLength])
        · rw [pieces,Nat.min_eq_right long,take_left' loadLength]
      have tail : (load m src left).drop c.size = load m (src + min left c.size) (left - min left c.size) := by
        rcases Nat.le_total left c.size with short | long
        · rw [Nat.min_eq_left short,Nat.sub_self]
          exact drop_of_length_le (by rwa [loadLength])
        · rw [pieces,Nat.min_eq_right long,drop_left' loadLength]
      have unread : ∀ b : List α, b.length = min left c.size →
          load (store m dst b) (src + min left c.size) (left - min left c.size) =
            load m (src + min left c.size) (left - min left c.size) := by
        intro b size
        exact loadApart (by unfold Apart; omega)
      have size : (transduce (c.step (c.next s)) 0 (load m src (min left c.size))).length = min left c.size := by
        rw [transduceLength,loadLength]
      simp only
      rw [ih (by omega),moveIs (by omega),unread _ size,Mode.text,head,tail,storeAppend,size]

theorem textTwice (enough : data.length ≤ fuel) : c.text fuel s (c.text fuel s data) = data := by
  induction fuel generalizing s data with
  | zero => exact (length_eq_zero_iff.mp (Nat.le_zero.mp enough)).symm
  | succ fuel ih =>
    have positive := c.positive
    have rest : (data.drop c.size).length ≤ fuel := by
      rw [length_drop]
      omega
    have inverse := transduceTwice (s := 0) (stepInverse c (c.next s)) (data.take c.size)
    rcases Nat.le_total data.length c.size with short | long
    · have ended : data.drop c.size = [] := drop_of_length_le short
      have whole : data.take c.size = data := take_of_length_le short
      rw [whole] at inverse
      have fits : (transduce (c.step (c.next s)) 0 data).length ≤ c.size := by rwa [transduceLength]
      rw [Mode.text,Mode.text,ended,whole,textNil,append_nil,take_of_length_le fits,
        drop_of_length_le fits,textNil,append_nil,inverse]
    · have size : (transduce (c.step (c.next s)) 0 (data.take c.size)).length = c.size := by
        rw [transduceLength,length_take_of_le long]
      rw [Mode.text,Mode.text,take_left' size,drop_left' size,inverse,ih rest,take_append_drop]

def Mode.counters (c : Mode σ α) : Nat → σ → Nat → List σ
  | 0,_,_ => []
  | fuel + 1,s,left => if left = 0 then [] else c.next s :: c.counters fuel (c.next s) (left - min left c.size)

def Mode.stream (c : Mode σ α) (counters : List σ) : List α :=
  counters.flatMap fun s => (range c.size).map (c.pad s)

theorem transducePad (i n) (fits : data.length ≤ n) :
    transduce (c.step s) i data = zipWith c.mix data ((range' i n).map (c.pad s)) := by
  induction data generalizing i n with
  | nil => rfl
  | cons b rest ih =>
    cases n with
    | zero => contradiction
    | succ n =>
      rw [transduce,range'_succ,map_cons,zipWith_cons_cons]
      exact congrArg _ (ih (i + 1) n (Nat.le_of_succ_le_succ fits))

theorem mixFront {mix : α → α → α} {pads : List α} (fits : data.length ≤ pads.length) (more) :
    zipWith mix data (pads ++ more) = zipWith mix data pads := by
  induction data generalizing pads with
  | nil => rfl
  | cons b rest ih =>
    cases pads with
    | nil => contradiction
    | cons p pads =>
      rw [cons_append,zipWith_cons_cons,zipWith_cons_cons,ih (Nat.le_of_succ_le_succ fits)]

theorem textMixed (enough : data.length ≤ fuel) :
    c.text fuel s data = zipWith c.mix data (c.stream (c.counters fuel s data.length)) := by
  induction fuel generalizing s data with
  | zero =>
    rw [length_eq_zero_iff.mp (Nat.le_zero.mp enough)]
    rfl
  | succ fuel ih =>
    have positive := c.positive
    have rest : (data.drop c.size).length ≤ fuel := by
      rw [length_drop]
      omega
    rw [Mode.text,Mode.counters]
    split
    next none =>
      rw [length_eq_zero_iff.mp none,take_nil,drop_nil,textNil]
      rfl
    next =>
      have left : data.length - min data.length c.size = (data.drop c.size).length := by
        rw [length_drop]
        omega
      have pads : ((range c.size).map (c.pad (c.next s))).length = c.size := by
        rw [length_map,length_range]
      have head : transduce (c.step (c.next s)) 0 (data.take c.size) =
          zipWith c.mix (data.take c.size) ((range c.size).map (c.pad (c.next s))) := by
        rw [range_eq_range']
        exact transducePad 0 c.size (length_take_le _ _)
      rw [ih rest,left,head]
      simp only [Mode.stream,flatMap_cons]
      rcases Nat.le_total data.length c.size with short | long
      · have ended : data.drop c.size = [] := drop_of_length_le short
        rw [ended,zipWith_nil_left,append_nil,take_of_length_le short,
          mixFront (pads.symm ▸ short)]
      · have size : (data.take c.size).length = ((range c.size).map (c.pad (c.next s))).length := by
          rw [length_take_of_le long,pads]
        rw [← zipWith_append size,take_append_drop]

end RtmpDriver.CounterMode
