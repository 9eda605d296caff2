import Mathlib.Data.List.Perm.Basic
import Mathlib.Data.List.Induction

/-! The two largest elements of a list, and what a selection with one comparison an element makes of them. -/
namespace RtmpDriver.TopTwo
open List
universe u
variable {α : Type u}

def IsTopTwo (rank : α → Nat) (list : List α) (first second : α) : Prop :=
  ∃ rest, list.Perm (first :: second :: rest) ∧ rank second ≤ rank first ∧ ∀ c ∈ rest, rank c ≤ rank second

def step (rank : α → Nat) (p : α × α) (t : α) : α × α := if rank p.1 < rank t then (t,p.1) else (p.1,t)

def LastIsSecond (rank : α → Nat) (start : α) (list : List α) : Prop :=
  ∀ last ∈ list.getLast?, (list.dropLast ++ [start,start]).countP (fun c => rank last < rank c) ≤ 1

instance (rank : α → Nat) (start : α) (list : List α) : Decidable (LastIsSecond rank start list) :=
  inferInstanceAs (Decidable (∀ last ∈ list.getLast?, _))

variable {rank : α → Nat} {list other : List α} {a b a' b' start : α}

theorem foldFirst (rank p) (list : List α) :
    (list.foldl (step rank) p).1 ∈ p.1 :: list ∧ ∀ c ∈ p.1 :: list, rank c ≤ rank (list.foldl (step rank) p).1 := by
  induction list generalizing p with
  | nil => simp
  | cons t list ih =>
    obtain ⟨mem,largest⟩ := ih (step rank p t)
    rw [foldl_cons]
    revert mem largest
    generalize (list.foldl (step rank) (step rank p t)).1 = m
    unfold step
    split
    next more =>
      intro mem largest
      refine ⟨mem_cons_of_mem _ mem,fun c at' => ?_⟩
      rcases mem_cons.mp at' with rfl | at'
      · exact Nat.le_trans (Nat.le_of_lt more) (largest t mem_cons_self)
      · exact largest c at'
    next less =>
      intro mem largest
      have firstBelow := largest p.1 mem_cons_self
      constructor
      · rcases mem_cons.mp mem with rfl | mem
        · exact mem_cons_self
        · exact mem_cons_of_mem _ (mem_cons_of_mem _ mem)
      · intro c at'
        rcases mem_cons.mp at' with rfl | at'
        · exact firstBelow
        rcases mem_cons.mp at' with rfl | at'
        · exact Nat.le_trans (Nat.not_lt.mp less) firstBelow
        · exact largest c (mem_cons_of_mem _ at')

theorem stepTopTwo {p q t} (mem : p ∈ list) (largest : ∀ c ∈ list, rank c ≤ rank p) :
    IsTopTwo rank (t :: list) (step rank (p,q) t).1 (step rank (p,q) t).2 ↔
      list.countP (fun c => rank t < rank c) ≤ 1 := by
  obtain ⟨s,r,parts⟩ := append_of_mem mem
  have split : list.Perm (p :: (s ++ r)) := parts ▸ perm_middle
  have inRest : ∀ c ∈ s ++ r, rank c ≤ rank p :=
    fun c here => largest c (split.mem_iff.mpr (mem_cons_of_mem _ here))
  by_cases more : rank p < rank t
  · have result : step rank (p,q) t = (t,p) := if_pos more
    have none' : list.countP (fun c => rank t < rank c) = 0 := by
      rw [countP_eq_zero]
      intro c here
      have := largest c here
      simp only [decide_eq_true_eq]
      omega
    rw [none',result]
    exact ⟨fun _ => Nat.zero_le 1,fun _ => ⟨s ++ r,split.cons t,Nat.le_of_lt more,inRest⟩⟩
  · have result : step rank (p,q) t = (p,t) := if_neg more
    rw [result]
    have below : rank t ≤ rank p := Nat.not_lt.mp more
    constructor
    · rintro ⟨rest,perm,-,small⟩
      have tails : list.Perm (p :: rest) := (perm.trans (Perm.swap t p rest)).cons_inv
      rw [tails.countP_eq,countP_cons,countP_eq_zero.mpr fun c here => by
        have : rank c ≤ rank t := small c here
        simp only [decide_eq_true_eq]
        omega]
      split <;> omega
    · intro few
      refine ⟨s ++ r,(split.cons t).trans (Perm.swap p t _),below,fun c here => ?_⟩
      by_contra larger
      have both : rank t < rank p := Nat.lt_of_lt_of_le (Nat.not_le.mp larger) (inRest c here)
      have one : 0 < (s ++ r).countP (fun c => rank t < rank c) :=
        countP_pos_iff.mpr ⟨c,here,decide_eq_true (Nat.not_le.mp larger)⟩
      rw [split.countP_eq,countP_cons,if_pos (decide_eq_true both)] at few
      omega

theorem foldTopTwo (start) (list : List α) :
    IsTopTwo rank (list ++ [start,start]) (list.foldl (step rank) (start,start)).1
        (list.foldl (step rank) (start,start)).2 ↔ LastIsSecond rank start list := by
  induction list using List.reverseRecOn with
  | nil =>
    refine ⟨fun _ last h => ?_,fun _ => ⟨[],Perm.refl _,Nat.le_refl _,fun c mem => absurd mem not_mem_nil⟩⟩
    cases h
  | append_singleton front t _ =>
    have largest := foldFirst rank (start,start) front
    have perm : (front ++ [t] ++ [start,start]).Perm (t :: (front ++ [start,start])) := by
      rw [append_assoc]
      exact perm_middle
    have same : ∀ c, c ∈ front ++ [start,start] ↔ c ∈ start :: front := by simp [or_comm]
    have last : LastIsSecond rank start (front ++ [t]) ↔
        (front ++ [start,start]).countP (fun c => rank t < rank c) ≤ 1 := by
      simp [LastIsSecond]
    rw [foldl_append,foldl_cons,foldl_nil,last,← stepTopTwo ((same _).mpr largest.1)
      (fun c mem => largest.2 c ((same c).mp mem))]
    exact ⟨fun ⟨rest,top⟩ => ⟨rest,perm.symm.trans top.1,top.2⟩,fun ⟨rest,top⟩ => ⟨rest,perm.trans top.1,top.2⟩⟩

end RtmpDriver.TopTwo
