import RtmpDriver.ByteMemory

/-! A loop that reads one cell, turns it over with a state of its own, and writes the result to another place of the
same memory. `transduce` is what the loop does to the list of cells. -/
namespace RtmpDriver.StreamMove
open ByteMemory
universe u v
variable {σ : Type u} {α : Type v}

def transduce (next : σ → α → σ × α) : σ → List α → List α
  | _,[] => []
  | s,b :: rest => (next s b).2 :: transduce next (next s b).1 rest

def put (m : Nat → α) (p : Nat) (b : α) : Nat → α := fun i => if i = p then b else m i

def move (next : σ → α → σ × α) : σ → Nat → Nat → Nat → (Nat → α) → Nat → α
  | _,_,_,0,m => m
  | s,src,dst,n + 1,m => move next (next s (m src)).1 (src + 1) (dst + 1) n (put m dst (next s (m src)).2)

variable {next : σ → α → σ × α} {s : σ} {m : Nat → α} {src dst n p : Nat} {b : α}

@[simp] theorem transduceLength (data) : (transduce next s data).length = data.length := by
  induction data generalizing s with
  | nil => rfl
  | cons b rest ih => simp [transduce,ih]

theorem putStore : put m p b = store m p [b] := by
  funext i
  unfold put
  split
  next here =>
    subst here
    exact (Option.some.inj (storeIn (m := m) (p := i) (b := [b]) (k := 0) (by simp))).symm
  next other =>
    refine (storeOut ?_).symm
    simp only [List.length_singleton]
    omega

theorem loadSucc : load m p (n + 1) = m p :: load m (p + 1) n := by
  rw [Nat.add_comm n 1,loadAppend]
  rfl

theorem moveIs (clear : dst ≤ src ∨ src + n ≤ dst) :
    move next s src dst n m = store m dst (transduce next s (load m src n)) := by
  induction n generalizing s src dst m with
  | zero => exact (storeLoad (n := 0)).symm
  | succ n ih =>
    have unread : load (put m dst (next s (m src)).2) (src + 1) n = load m (src + 1) n := by
      rw [putStore]
      exact loadApart (by unfold Apart; simp only [List.length_singleton]; omega)
    rw [move,ih (by omega),unread,putStore,loadSucc]
    exact storeAppend.symm

structure SelfInverse (next : σ → α → σ × α) : Prop where
  state : ∀ s b, (next s (next s b).2).1 = (next s b).1
  data : ∀ s b, (next s (next s b).2).2 = b

theorem transduceTwice (inverse : SelfInverse next) (data) : transduce next s (transduce next s data) = data := by
  induction data generalizing s with
  | nil => rfl
  | cons b rest ih => rw [transduce,transduce,inverse.data,inverse.state,ih]

end RtmpDriver.StreamMove
