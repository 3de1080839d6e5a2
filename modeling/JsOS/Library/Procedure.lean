import Mathlib.Logic.Basic

/-! # Procedures

A procedure reads and changes a state, and ends in a value or in a failure. What it did to the
state before it failed is not undone. `Procedure.Ensures` states what a procedure comes to, with one
condition for each end, and the rules follow the way a procedure is put together.
-/

/-- A procedure: from a state to how it ends and the state that it leaves. -/
def Procedure (State Failure α : Type) : Type := State → Except Failure α × State

namespace Procedure

variable {State Failure α β : Type}

/-- The procedure goes on with the value, unless the part before has failed. -/
instance : Monad (Procedure State Failure) where
  pure value := fun state => (.ok value, state)
  bind procedure next := fun state =>
    match procedure state with
    | (.ok value, after) => next value after
    | (.error failure, after) => (.error failure, after)

/-- A procedure that fails at once. -/
def fail (failure : Failure) : Procedure State Failure α := fun state => (.error failure, state)

/-- A look at the state. -/
def look (view : State → α) : Procedure State Failure α := fun state => (.ok (view state), state)

/-- A change of the state. -/
def change (update : State → State) : Procedure State Failure Unit :=
  fun state => (.ok (), update state)

/-- A procedure for a part of the state. -/
def within {Part : Type} (part : State → Part) (put : Part → State → State)
    (procedure : Procedure Part Failure α) : Procedure State Failure α := fun state =>
  ((procedure (part state)).1, put (procedure (part state)).2 state)

/-- A failure is kept for later. -/
def attempt (procedure : Procedure State Failure α) : Procedure State Failure (Except Failure α) :=
  fun state => (.ok (procedure state).1, (procedure state).2)

/-- Ends with what was kept. -/
def ofExcept (result : Except Failure α) : Procedure State Failure α := fun state => (result, state)

/-- Nothing is left to do after a procedure. -/
theorem bind_done (procedure : Procedure State Failure Unit) :
    (procedure >>= fun _ => pure ()) = procedure := by
  funext state
  unfold bind instMonad
  dsimp only
  generalize procedure state = reached
  obtain ⟨result, after⟩ := reached
  cases result with
  | ok value => rfl
  | error failure => rfl

/-- **What a procedure comes to** from a state: a value and a state that are as they should be when
it is done, or a failure and a state that are as they should be then. -/
def Ensures (procedure : Procedure State Failure α) (state : State) (done : α → State → Prop)
    (failed : Failure → State → Prop) : Prop :=
  match procedure state with
  | (.ok value, after) => done value after
  | (.error failure, after) => failed failure after

section Rules

variable {procedure : Procedure State Failure α} {next : α → Procedure State Failure β}
  {state : State} {done : α → State → Prop} {finally_ : β → State → Prop}
  {failed : Failure → State → Prop}

@[simp] theorem ensures_pure {value : α} :
    (pure value : Procedure State Failure α).Ensures state done failed ↔ done value state := Iff.rfl

@[simp] theorem ensures_fail {failure : Failure} :
    (fail failure : Procedure State Failure α).Ensures state done failed ↔ failed failure state :=
  Iff.rfl

@[simp] theorem ensures_look {view : State → α} :
    (look view : Procedure State Failure α).Ensures state done failed ↔ done (view state) state :=
  Iff.rfl

@[simp] theorem ensures_change {update : State → State} {done : Unit → State → Prop} :
    (change update : Procedure State Failure Unit).Ensures state done failed ↔
      done () (update state) := Iff.rfl

theorem ensures_ofExcept {result : Except Failure α} :
    (ofExcept result).Ensures state done failed ↔
      (∀ value, result = .ok value → done value state) ∧
        ∀ failure, result = .error failure → failed failure state := by
  unfold ofExcept Ensures
  cases result with
  | ok value => simp
  | error failure => simp

/-- **One procedure after another.** -/
theorem ensures_bind : (procedure >>= next).Ensures state finally_ failed ↔
    procedure.Ensures state (fun value after => (next value).Ensures after finally_ failed)
      failed := by
  change Ensures (fun state => match procedure state with
    | (.ok value, after) => next value after
    | (.error failure, after) => (.error failure, after)) state finally_ failed ↔ _
  unfold Ensures
  dsimp only
  cases procedure state with
  | mk result after =>
      cases result with
      | ok value => exact Iff.rfl
      | error failure => exact Iff.rfl

/-- A procedure comes to what follows from what it comes to. -/
theorem Ensures.mono {done' : α → State → Prop} {failed' : Failure → State → Prop}
    (ensures : procedure.Ensures state done failed)
    (whenDone : ∀ value after, done value after → done' value after)
    (whenFailed : ∀ failure after, failed failure after → failed' failure after) :
    procedure.Ensures state done' failed' := by
  unfold Ensures at ensures ⊢
  cases reached : procedure state with
  | mk result after =>
      rw [reached] at ensures
      cases result with
      | ok value => exact whenDone value after ensures
      | error failure => exact whenFailed failure after ensures

/-- The rule for one procedure after another, with what holds between the two. -/
theorem Ensures.bind {between : α → State → Prop}
    (first : procedure.Ensures state between failed)
    (second : ∀ value after, between value after →
      (next value).Ensures after finally_ failed) :
    (procedure >>= next).Ensures state finally_ failed :=
  ensures_bind.mpr (first.mono second fun _ _ already => already)

theorem ensures_within {Part : Type} {part : State → Part} {put : Part → State → State}
    {procedure : Procedure Part Failure α} : (procedure.within part put).Ensures state done failed ↔
      procedure.Ensures (part state) (fun value after => done value (put after state))
        fun failure after => failed failure (put after state) := by
  unfold within Ensures
  dsimp only
  cases procedure (part state) with
  | mk result after =>
      cases result with
      | ok value => exact Iff.rfl
      | error failure => exact Iff.rfl

theorem ensures_attempt {done : Except Failure α → State → Prop} :
    procedure.attempt.Ensures state done failed ↔
      procedure.Ensures state (fun value after => done (.ok value) after)
        fun failure after => done (.error failure) after := by
  unfold attempt Ensures
  dsimp only
  cases procedure state with
  | mk result after =>
      cases result with
      | ok value => exact Iff.rfl
      | error failure => exact Iff.rfl

/-- What a procedure comes to is so of its end and of the state that it leaves. -/
theorem Ensures.of_ok (ensures : procedure.Ensures state done failed) {value : α} {after : State}
    (ends : procedure state = (.ok value, after)) : done value after := by
  rw [Ensures, ends] at ensures
  exact ensures

/-- A procedure that cannot fail comes to a value. -/
theorem Ensures.exists_ok (ensures : procedure.Ensures state done failed)
    (never : ∀ failure after, ¬failed failure after) :
    ∃ value after, procedure state = (.ok value, after) ∧ done value after := by
  unfold Ensures at ensures
  cases reached : procedure state with
  | mk result after =>
      rw [reached] at ensures
      cases result with
      | ok value => exact ⟨value, after, rfl, ensures⟩
      | error failure => exact absurd ensures (never failure after)

end Rules

end Procedure
