import Mathlib.Data.List.Basic
import Mathlib.Tactic.Common

/-! A function folded along a text one block at a time. `fold` takes the whole blocks, and `left` is what fills none. -/
namespace RtmpDriver.BlockHash
open List
universe u v
variable {σ : Type u} {α : Type v}

def absorb (compress : σ → List α → σ) (size : Nat) : Nat → σ → List α → σ
  | 0,h,_ => h
  | count + 1,h,text => absorb compress size count (compress h (text.take size)) (text.drop size)

def fold (compress : σ → List α → σ) (size : Nat) (h : σ) (text : List α) : σ :=
  absorb compress size (text.length / size) h text

def left (size : Nat) (text : List α) : List α := text.drop (size * (text.length / size))

variable {compress : σ → List α → σ} {size count more : Nat} {h : σ} {text front back : List α}

theorem absorbAppend (whole : front.length = size * count) : absorb compress size (count + more) h (front ++ back) =
      absorb compress size more (absorb compress size count h front) back := by
  induction count generalizing h front with
  | zero =>
    rw [length_eq_zero_iff.mp whole,Nat.zero_add]
    rfl
  | succ count ih =>
    rw [Nat.mul_succ] at whole
    have inside : size ≤ front.length := by omega
    have rest : (front.drop size).length = size * count := by
      rw [length_drop]
      omega
    rw [Nat.succ_add,absorb,absorb,take_append_of_le_length inside,drop_append_of_le_length inside,ih rest]

theorem countAppend (positive : 0 < size) (whole : front.length = size * count) :
    (front ++ back).length / size = count + back.length / size := by
  rw [length_append,whole,Nat.mul_add_div positive]

theorem foldAppend (positive : 0 < size) (whole : front.length = size * count) :
    fold compress size h (front ++ back) = fold compress size (absorb compress size count h front) back := by
  rw [fold,countAppend positive whole,absorbAppend whole,fold]

theorem leftAppend (positive : 0 < size) (whole : front.length = size * count) :
    left size (front ++ back) = left size back := by
  rw [left,countAppend positive whole,Nat.mul_add,← whole,left,← drop_drop,drop_left]

theorem foldShort (short : text.length < size) : fold compress size h text = h := by
  rw [fold,Nat.div_eq_of_lt short]
  rfl

theorem leftShort (short : text.length < size) : left size text = text := by
  rw [left,Nat.div_eq_of_lt short]
  rfl

theorem foldBlock (positive : 0 < size) (block : text.length = size) : fold compress size h text = compress h text := by
  rw [fold,block,Nat.div_self positive,absorb,absorb,take_of_length_le (Nat.le_of_eq block)]

theorem leftBlock (positive : 0 < size) (block : text.length = size) : left size text = [] := by
  rw [left,block,Nat.div_self positive]
  exact drop_of_length_le (by omega)

theorem leftLength (size) (text : List α) : (left size text).length = text.length % size := by
  rw [left,length_drop,Nat.mod_def]

theorem splitLeft (compress : σ → List α → σ) (h) (text : List α) (positive : 0 < size) :
    ∃ front count, front.length = size * count ∧ text = front ++ left size text ∧
      fold compress size h text = absorb compress size count h front := by
  have inside : size * (text.length / size) ≤ text.length := Nat.mul_div_le _ _
  have whole : (text.take (size * (text.length / size))).length = size * (text.length / size) := by
    rw [length_take]
    omega
  have parts : text = text.take (size * (text.length / size)) ++ left size text := (take_append_drop _ _).symm
  refine ⟨_,_,whole,parts,?_⟩
  have short : (left size text).length < size := by
    rw [leftLength]
    exact Nat.mod_lt _ positive
  conv_lhs => rw [parts]
  rw [foldAppend positive whole,foldShort short]

theorem foldOn (compress : σ → List α → σ) (h : σ) (positive : 0 < size) (back) :
    fold compress size h (text ++ back) = fold compress size (fold compress size h text) (left size text ++ back) ∧
      left size (text ++ back) = left size (left size text ++ back) := by
  obtain ⟨front,count,whole,parts,value⟩ := splitLeft compress h text positive
  have joined : text ++ back = front ++ (left size text ++ back) := by rw [← append_assoc,← parts]
  rw [joined,foldAppend positive whole,leftAppend positive whole,value]
  exact ⟨rfl,rfl⟩

theorem foldMore (compress : σ → List α → σ) (h : σ) (positive : 0 < size)
    (short : (left size text).length + back.length < size) :
    fold compress size h (text ++ back) = fold compress size h text ∧
      left size (text ++ back) = left size text ++ back := by
  rw [← length_append] at short
  rw [(foldOn compress h positive back).1,(foldOn compress h positive back).2,foldShort short,leftShort short]
  exact ⟨rfl,rfl⟩

theorem foldFull (compress : σ → List α → σ) (h : σ) (positive : 0 < size)
    (full : (left size text).length + back.length = size) :
    fold compress size h (text ++ back) = compress (fold compress size h text) (left size text ++ back) ∧
      left size (text ++ back) = [] := by
  rw [← length_append] at full
  rw [(foldOn compress h positive back).1,(foldOn compress h positive back).2,foldBlock positive full,
    leftBlock positive full]
  exact ⟨rfl,rfl⟩

theorem absorbLast (h text) : ∃ h' block, absorb compress size (count + 1) h text = compress h' block := by
  induction count generalizing h text with
  | zero => exact ⟨h,text.take size,rfl⟩
  | succ count ih => exact ih (compress h (text.take size)) (text.drop size)

theorem foldLast (compress) (h : σ) (positive : 0 < size) (full : size ≤ text.length) :
    ∃ h' block, fold compress size h text = compress h' block := by
  obtain ⟨count,blocks⟩ := Nat.exists_eq_succ_of_ne_zero (Nat.ne_of_gt (Nat.div_pos full positive))
  rw [fold,blocks]
  exact absorbLast h text

end RtmpDriver.BlockHash
