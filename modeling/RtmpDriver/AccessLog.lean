import Mathlib.Logic.Basic

/-! Computations that note what they touch: `Logged ι α` is a value with the list of the accesses made on the way to it,
and `All` says that every one of them satisfies a condition. -/
namespace RtmpDriver.AccessLog
universe u
variable {ι α β : Type u}

structure Logged (ι α : Type u) where
  value : α
  log : List ι
  deriving DecidableEq, Repr

instance loggedMonad : Monad (Logged ι) where
  pure a := ⟨a,[]⟩
  bind t f := ⟨(f t.value).value,t.log ++ (f t.value).log⟩

def note (i : ι) : Logged ι PUnit := ⟨⟨⟩,[i]⟩

def relabel {κ : Type u} (g : ι → κ) (t : Logged ι α) : Logged κ α := ⟨t.value,t.log.map g⟩

def All (condition : ι → Prop) (t : Logged ι α) : Prop := ∀ i ∈ t.log, condition i

instance allDecidable (condition : ι → Prop) [DecidablePred condition] (t : Logged ι α) :
    Decidable (All condition t) := inferInstanceAs (Decidable (∀ i ∈ t.log, condition i))

variable {condition : ι → Prop} {t : Logged ι α} {f : α → Logged ι β}

@[simp] theorem pureValue (a) : (pure a : Logged ι α).value = a := rfl
@[simp] theorem bindValue : (t >>= f).value = (f t.value).value := rfl
@[simp] theorem noteValue (i : ι) : (note i).value = ⟨⟩ := rfl

@[simp] theorem allPure (a) : All condition (pure a : Logged ι α) :=
  fun _ mem => absurd mem List.not_mem_nil

@[simp] theorem allNote {i} : All condition (note i) ↔ condition i := List.forall_mem_singleton

@[simp] theorem allBind : All condition (t >>= f) ↔ All condition t ∧ All condition (f t.value) :=
  List.forall_mem_append

theorem bindElse {c} [DecidablePred c] {g : α → Logged ι β} (no : ¬ c t.value) :
    (t >>= fun a => if c a then f a else g a).value = (g t.value).value := by
  rw [bindValue,if_neg no]

@[simp] theorem relabelValue {κ : Type u} (g : ι → κ) (t : Logged ι α) : (relabel g t).value = t.value := rfl

theorem allRelabel {κ : Type u} {g} {condition : κ → Prop} :
    All condition (relabel g t) ↔ All (fun i => condition (g i)) t := List.forall_mem_map

theorem allCongr {other} (same : ∀ i, condition i ↔ other i) : All condition t ↔ All other t :=
  forall₂_congr fun i _ => same i

theorem allIte {c} [Decidable c] {s} :
    All condition (if c then t else s) ↔ (c → All condition t) ∧ (¬ c → All condition s) := by
  split <;> simp [*]

structure Span where
  start : Nat
  size : Nat
  deriving DecidableEq, Repr

def Span.Within (low high : Nat) (s : Span) : Prop := low ≤ s.start ∧ s.start + s.size ≤ high

instance withinDecidable (low high : Nat) : DecidablePred (Span.Within low high) :=
  fun s => inferInstanceAs (Decidable (low ≤ s.start ∧ s.start + s.size ≤ high))

end RtmpDriver.AccessLog
