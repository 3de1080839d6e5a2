import JsOS.Library.Run

/-! # Refinement of machines with outputs

A machine takes inputs one at a time, and answers each with an output. A machine
refines another, its specification, if a relation between their states is kept by every
input and makes their outputs equal (`Refinement.Simulates`); then the outputs of whole
runs are equal, and the relation holds at their ends.
-/

namespace Refinement

variable {State Spec Input Output : Type*}

/-- The outputs of a run. -/
def outputs (step : State → Input → State × Output) : State → List Input → List Output
  | _, [] => []
  | state, input :: inputs =>
      (step state input).2 :: outputs step (step state input).1 inputs

/-- The state after a run. -/
def final (step : State → Input → State × Output) (state : State) (inputs : List Input) : State :=
  Transition.run (fun state input => (step state input).1) state inputs

/-- Every input keeps the relation and gets the same output from both machines. -/
structure Simulates (step : State → Input → State × Output) (spec : Spec → Input → Spec × Output)
    (relates : State → Spec → Prop) : Prop where
  output : ∀ {state abstract}, relates state abstract → ∀ input,
    (step state input).2 = (spec abstract input).2
  next : ∀ {state abstract}, relates state abstract → ∀ input,
    relates (step state input).1 (spec abstract input).1

variable {step : State → Input → State × Output} {spec : Spec → Input → Spec × Output}
  {relates : State → Spec → Prop}

/-- **Refinement rule.** Runs from related states end in related states. -/
theorem Simulates.final (simulates : Simulates step spec relates) {state : State}
    {abstract : Spec} (related : relates state abstract) (inputs : List Input) :
    relates (final step state inputs) (Refinement.final spec abstract inputs) := by
  induction inputs generalizing state abstract with
  | nil => exact related
  | cons input inputs ih => exact ih (simulates.next related input)

/-- Runs from related states have the same outputs. -/
theorem Simulates.outputs (simulates : Simulates step spec relates) {state : State}
    {abstract : Spec} (related : relates state abstract) (inputs : List Input) :
    outputs step state inputs = Refinement.outputs spec abstract inputs := by
  induction inputs generalizing state abstract with
  | nil => rfl
  | cons input inputs ih =>
      unfold Refinement.outputs
      rw [simulates.output related input, ih (simulates.next related input)]

end Refinement
