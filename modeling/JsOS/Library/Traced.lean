import Mathlib.Data.List.Basic

/-! # Computations with a trace

A computation that has a value and leaves a trace of what it does on the way, such as the
memory that it reads. A sequence of two leaves both traces, and is within bounds exactly when
both parts are.
-/

/-- A value, and the trace that its computation leaves. -/
structure Traced (Action : Type) (α : Type) where
  value : α
  trace : List Action

namespace Traced

variable {Action α β : Type}

instance : Monad (Traced Action) where
  pure value := ⟨value, []⟩
  bind first next := ⟨(next first.value).value, first.trace ++ (next first.value).trace⟩

/-- Do something that gives a value. -/
def act (action : Action) (value : α) : Traced Action α := ⟨value, [action]⟩

@[simp] theorem value_pure (value : α) : (pure value : Traced Action α).value = value := rfl

@[simp] theorem value_bind (first : Traced Action α) (next : α → Traced Action β) :
    (first >>= next).value = (next first.value).value := rfl

@[simp] theorem value_act (action : Action) (value : α) : (act action value).value = value := rfl

/-- Everything that is done is allowed. -/
def Within (allowed : Action → Prop) (computation : Traced Action α) : Prop :=
  ∀ action ∈ computation.trace, allowed action

variable {allowed : Action → Prop}

instance [DecidablePred allowed] (computation : Traced Action α) :
    Decidable (Within allowed computation) :=
  inferInstanceAs (Decidable (∀ action ∈ computation.trace, allowed action))

@[simp] theorem within_pure (value : α) : Within allowed (pure value : Traced Action α) :=
  fun _ among => (nomatch among)

@[simp] theorem within_act (action : Action) (value : α) :
    Within allowed (act action value) ↔ allowed action :=
  List.forall_mem_singleton

/-- **A sequence is within bounds exactly when its parts are.** -/
@[simp] theorem within_bind (first : Traced Action α) (next : α → Traced Action β) :
    Within allowed (first >>= next) ↔ Within allowed first ∧ Within allowed (next first.value) :=
  List.forall_mem_append

/-- The computation stays within bounds and has the value. -/
def Runs (allowed : Action → Prop) (computation : Traced Action α) (value : α) : Prop :=
  Within allowed computation ∧ computation.value = value

theorem runs_pure (value : α) : Runs allowed (pure value : Traced Action α) value :=
  ⟨within_pure value, rfl⟩

theorem runs_act {action : Action} (fine : allowed action) (value : α) :
    Runs allowed (act action value) value :=
  ⟨(within_act action value).mpr fine, rfl⟩

/-- **A sequence runs as its parts do, one after the other.** -/
theorem Runs.bind {first : Traced Action α} {next : α → Traced Action β} {middle : α} {last : β}
    (before : Runs allowed first middle) (after : Runs allowed (next middle) last) :
    Runs allowed (first >>= next) last := by
  obtain ⟨within, rfl⟩ := before
  exact ⟨(within_bind first next).mpr ⟨within, after.1⟩, after.2⟩

end Traced
