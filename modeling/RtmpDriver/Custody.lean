import Mathlib.Data.List.Nodup

/-! Items that are moved between places. `Holds place p list` says that the list has exactly the items at `p`, each
once. -/
namespace RtmpDriver.Custody
open List
universe u v
variable {Item : Type u} {Place : Type v}

structure Holds (place : Item → Place) (p : Place) (list : List Item) : Prop where
  nodup : list.Nodup
  mem : ∀ n, n ∈ list ↔ place n = p

variable {place next : Item → Place} {p q : Place} {list other : List Item} {n : Item}

theorem Holds.empty (nobody : ∀ n, place n ≠ p) : Holds place p [] :=
  ⟨nodup_nil,fun n => ⟨fun mem => absurd mem not_mem_nil,fun here => absurd here (nobody n)⟩⟩

theorem Holds.onePlace (here : Holds place p list) (there : Holds place q other) (left : n ∈ list) (right : n ∈ other) :
    p = q :=
  ((here.mem n).mp left).symm.trans ((there.mem n).mp right)

section
variable (holds : Holds place p list) (frame : ∀ k, k ≠ n → next k = place k)
include holds frame

theorem Holds.passedBy (before : place n ≠ p)
    (after : next n ≠ p) : Holds next p list := by
  refine ⟨holds.nodup,fun k => ?_⟩
  rw [holds.mem k]
  by_cases same : k = n
  · subst same
    exact ⟨fun here => absurd here before,fun here => absurd here after⟩
  · rw [frame k same]

theorem Holds.stayed (before : place n = p)
    (after : next n = p) : Holds next p list := by
  refine ⟨holds.nodup,fun k => ?_⟩
  rw [holds.mem k]
  by_cases same : k = n
  · subst same
    exact ⟨fun _ => after,fun _ => before⟩
  · rw [frame k same]

theorem Holds.arrivedFirst (before : place n ≠ p)
    (after : next n = p) : Holds next p (n :: list) := by
  refine ⟨nodup_cons.mpr ⟨fun mem => before ((holds.mem n).mp mem),holds.nodup⟩,fun k => ?_⟩
  rw [mem_cons,holds.mem k]
  by_cases same : k = n
  · subst same
    exact ⟨fun _ => after,fun _ => .inl rfl⟩
  · rw [frame k same]
    exact ⟨fun here => here.resolve_left same,.inr⟩

theorem Holds.arrived (before : place n ≠ p)
    (after : next n = p) : Holds next p (list ++ [n]) := by
  have first := holds.arrivedFirst frame before after
  have same : (n :: list).Perm (list ++ [n]) := (perm_append_singleton n list).symm
  exact ⟨same.nodup_iff.mp first.nodup,fun k => same.symm.mem_iff.trans (first.mem k)⟩

end

theorem Holds.left [DecidableEq Item] (holds : Holds place p list) (frame : ∀ k, k ≠ n → next k = place k)
    (after : next n ≠ p) : Holds next p (list.erase n) := by
  refine ⟨holds.nodup.erase n,fun k => ?_⟩
  rw [holds.nodup.mem_erase_iff,holds.mem k]
  by_cases same : k = n
  · subst same
    exact ⟨fun here => absurd rfl here.1,fun here => absurd here after⟩
  · rw [frame k same]
    exact ⟨fun here => here.2,fun here => ⟨same,here⟩⟩

end RtmpDriver.Custody
