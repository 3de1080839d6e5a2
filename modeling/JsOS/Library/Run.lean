import Mathlib.Data.List.Induction

/-! # Runs of a deterministic transition system

A system is a step function on states and inputs. Its run over a list of inputs
is the fold of the step function. A claim about every step of a run is a
predicate on the state before the step and the input of the step
(`Transition.Along`). Two rules carry most arguments: an invariant kept by every
step that meets a side condition holds after every run whose steps all meet it
(`Transition.run_invariant`), and two step predicates that agree wherever the
invariant holds agree along whole runs (`Transition.Along.iff_of_invariant`).
-/

namespace Transition

variable {State Input Record : Type*} (step : State → Input → State)

/-- The state after a list of inputs. -/
def run (state : State) (inputs : List Input) : State :=
  inputs.foldl step state

@[simp] theorem run_nil (state : State) : run step state [] = state := rfl

@[simp] theorem run_cons (state : State) (input : Input) (inputs : List Input) :
    run step state (input :: inputs) = run step (step state input) inputs := rfl

theorem run_append (state : State) (first second : List Input) :
    run step state (first ++ second) = run step (run step state first) second :=
  List.foldl_append

/-- A predicate on a state and the next input holds at every step of a run. -/
def Along (holds : State → Input → Prop) : State → List Input → Prop
  | _, [] => True
  | state, input :: inputs => holds state input ∧ Along holds (step state input) inputs

/-- Whether a decidable step predicate holds along a run can be evaluated. -/
instance Along.decidable (holds : State → Input → Prop)
    [∀ state input, Decidable (holds state input)] :
    ∀ (state : State) (inputs : List Input), Decidable (Along step holds state inputs)
  | _, [] => .isTrue trivial
  | state, input :: inputs =>
      have := Along.decidable holds (step state input) inputs
      inferInstanceAs (Decidable (holds state input ∧ Along step holds (step state input) inputs))

variable {step}

/-- A step predicate holds along a run exactly when it holds at each split of
the inputs into a past, a next input and a future. -/
theorem along_iff_forall_split {holds : State → Input → Prop} {state : State}
    {inputs : List Input} :
    Along step holds state inputs ↔
      ∀ past input future, inputs = past ++ input :: future →
        holds (run step state past) input := by
  induction inputs generalizing state with
  | nil => simp [Along]
  | cons head tail ih =>
      constructor
      · intro along past input future split
        cases past with
        | nil =>
            obtain ⟨rfl, -⟩ := List.cons.inj split
            exact along.1
        | cons first past =>
            obtain ⟨rfl, rest⟩ := List.cons.inj split
            exact ih.mp along.2 past input future rest
      · intro every
        refine ⟨every [] head tail rfl, ih.mpr ?_⟩
        intro past input future split
        exact every (head :: past) input future (by rw [split]; rfl)

theorem along_append {holds : State → Input → Prop} {state : State} {first second : List Input} :
    Along step holds state (first ++ second) ↔
      Along step holds state first ∧ Along step holds (run step state first) second := by
  induction first generalizing state with
  | nil => simp [Along]
  | cons input inputs ih =>
      rw [List.cons_append]
      simp only [Along, ih, run_cons, and_assoc]

/-- Every input of the run met the predicate in some state. -/
theorem Along.exists_of_mem {holds : State → Input → Prop} {state : State} {inputs : List Input}
    (along : Along step holds state inputs) {input : Input} (member : input ∈ inputs) :
    ∃ before, holds before input := by
  obtain ⟨past, future, split⟩ := List.append_of_mem member
  exact ⟨_, along_iff_forall_split.mp along past input future split⟩

theorem Along.mono {weaker stronger : State → Input → Prop} {state : State}
    {inputs : List Input} (weaken : ∀ state input, stronger state input → weaker state input)
    (along : Along step stronger state inputs) : Along step weaker state inputs := by
  rw [along_iff_forall_split] at along ⊢
  intro past input future split
  exact weaken _ _ (along past input future split)

theorem Along.and {first second : State → Input → Prop} {state : State} {inputs : List Input}
    (left : Along step first state inputs) (right : Along step second state inputs) :
    Along step (fun state input => first state input ∧ second state input) state inputs := by
  rw [along_iff_forall_split] at left right ⊢
  intro past input future split
  exact ⟨left past input future split, right past input future split⟩

/-- **Invariant rule.** An invariant kept by every step that meets a condition
holds after every run whose steps all meet the condition. -/
theorem run_invariant (invariant : State → Prop) {condition : State → Input → Prop}
    (keeps : ∀ state input, invariant state → condition state input →
      invariant (step state input))
    {state : State} {inputs : List Input} (start : invariant state)
    (along : Along step condition state inputs) : invariant (run step state inputs) := by
  induction inputs generalizing state with
  | nil => exact start
  | cons input inputs ih => exact ih (keeps state input start along.1) along.2

/-- An invariant kept by every step holds after every run. -/
theorem run_invariant_of_keeps (invariant : State → Prop)
    (keeps : ∀ state input, invariant state → invariant (step state input))
    {state : State} (start : invariant state) (inputs : List Input) :
    invariant (run step state inputs) := by
  induction inputs generalizing state with
  | nil => exact start
  | cons input inputs ih => exact ih (keeps state input start)

/-- An invariant that relates the inputs so far to the state holds after every run. -/
theorem run_invariant_of_past (invariant : List Input → State → Prop)
    (keeps : ∀ past state input, invariant past state →
      invariant (past ++ [input]) (step state input))
    {state : State} (start : invariant [] state) (inputs : List Input) :
    invariant inputs (run step state inputs) := by
  induction inputs using List.reverseRecOn with
  | nil => exact start
  | append_singleton past input ih =>
      rw [run_append]
      exact keeps past (run step state past) input ih

/-- The invariant rule at every step: what the invariant and the condition give
at one step holds along the run. -/
theorem Along.of_invariant (invariant : State → Prop) {condition holds : State → Input → Prop}
    (keeps : ∀ state input, invariant state → condition state input →
      invariant (step state input))
    (gives : ∀ state input, invariant state → condition state input → holds state input)
    {state : State} {inputs : List Input} (start : invariant state)
    (along : Along step condition state inputs) : Along step holds state inputs := by
  induction inputs generalizing state with
  | nil => trivial
  | cons input inputs ih =>
      exact ⟨gives state input start along.1, ih (keeps state input start along.1) along.2⟩

/-- A predicate on inputs holds along every run over such inputs. -/
theorem Along.of_inputs {allowed : Input → Prop} {state : State} {inputs : List Input}
    (inputsAllowed : ∀ input ∈ inputs, allowed input) :
    Along step (fun _ input => allowed input) state inputs := by
  induction inputs generalizing state with
  | nil => trivial
  | cons input inputs ih =>
      exact ⟨inputsAllowed input List.mem_cons_self,
        ih fun other member => inputsAllowed other (List.mem_cons_of_mem _ member)⟩

/-- **Exactness rule.** In runs whose steps all meet an assumption: if, wherever the
invariant holds, a step satisfies a property exactly when it meets a condition,
and a step that meets the condition keeps the invariant, then a run satisfies the
property at all its steps exactly when all its steps meet the condition. -/
theorem Along.iff_of_invariant (invariant : State → Prop)
    {assumption condition holds : State → Input → Prop}
    (exact_at : ∀ state input, assumption state input → invariant state →
      (holds state input ↔ condition state input))
    (keeps : ∀ state input, assumption state input → invariant state → condition state input →
      invariant (step state input))
    {state : State} {inputs : List Input} (assumed : Along step assumption state inputs)
    (start : invariant state) :
    Along step holds state inputs ↔ Along step condition state inputs := by
  induction inputs generalizing state with
  | nil => exact Iff.rfl
  | cons input inputs ih =>
      obtain ⟨first, later⟩ := assumed
      constructor
      · intro along
        have met := (exact_at state input first start).mp along.1
        exact ⟨met, (ih later (keeps state input first start met)).mp along.2⟩
      · intro along
        exact ⟨(exact_at state input first start).mpr along.1,
          (ih later (keeps state input first start along.1)).mpr along.2⟩

/-- A property of states holds in every state of a run exactly if it holds at the start and
after every step. -/
theorem forall_reached_iff_along {property : State → Prop} {state : State} {inputs : List Input} :
    (∀ past future, inputs = past ++ future → property (run step state past)) ↔
      property state ∧ Along step (fun state input => property (step state input)) state inputs := by
  constructor
  · intro every
    refine ⟨every [] inputs rfl, along_iff_forall_split.mpr fun past input future split => ?_⟩
    have reached := every (past ++ [input]) future (by rw [split, List.append_assoc]; rfl)
    rwa [run_append] at reached
  · rintro ⟨start, along⟩ past future split
    rcases List.eq_nil_or_concat past with rfl | ⟨before, input, rfl⟩
    · exact start
    · rw [List.concat_eq_append] at split ⊢
      rw [run_append]
      refine along_iff_forall_split.mp along before input future ?_
      rw [split, List.append_assoc]
      rfl

/-- **Exactness rule for properties of states.** If from every state with the property and
the invariant a step keeps the invariant, and keeps the property exactly when it meets a
condition, then the property holds in every state of a run exactly when all steps meet the
condition. -/
theorem forall_reached_iff_of_step (invariant : State → Prop) {property : State → Prop}
    {condition : State → Input → Prop}
    (keeps : ∀ state input, invariant state → property state →
      invariant (step state input) ∧ (property (step state input) ↔ condition state input))
    {state : State} (start : invariant state) (holds : property state) {inputs : List Input} :
    (∀ past future, inputs = past ++ future → property (run step state past)) ↔
      Along step condition state inputs := by
  rw [forall_reached_iff_along, and_iff_right holds]
  induction inputs generalizing state with
  | nil => exact Iff.rfl
  | cons input inputs ih =>
      obtain ⟨next, exact_at⟩ := keeps state input start holds
      unfold Along
      rw [exact_at]
      exact and_congr_right fun met => ih next (exact_at.mpr met)

/-- **Simulation by a part of the inputs.** If every foreign input keeps a relation between
two states when only the first takes it, and every own input keeps it when both take it,
then a run and the run over its own inputs alone stay related. -/
theorem run_filter_related (related : State → State → Prop) (own : Input → Bool)
    {condition : State → Input → Prop}
    (foreign : ∀ state state' input, related state state' → condition state input →
      own input = false → related (step state input) state')
    (mine : ∀ state state' input, related state state' → condition state input →
      own input = true → related (step state input) (step state' input))
    {state state' : State} (start : related state state') {inputs : List Input}
    (along : Along step condition state inputs) :
    related (run step state inputs) (run step state' (inputs.filter own)) := by
  induction inputs generalizing state state' with
  | nil => exact start
  | cons input inputs ih =>
      cases isOwn : own input with
      | false =>
          rw [List.filter_cons_of_neg (by rw [isOwn]; exact Bool.false_ne_true)]
          exact ih (foreign state state' input start along.1 isOwn) along.2
      | true =>
          rw [List.filter_cons_of_pos isOwn]
          exact ih (mine state state' input start along.1 isOwn) along.2

/-- **Unwinding rule.** If foreign inputs do not change a view of the state, and what an
own input does to the view depends on the view alone, then the view after a run is the
view after its own inputs. -/
theorem view_run_eq_view_run_filter {View : Type*} (view : State → View) (own : Input → Bool)
    (invariant : State → Prop)
    (keeps : ∀ state input, invariant state → invariant (step state input))
    (respects : ∀ state input, invariant state → own input = false →
      view (step state input) = view state)
    (consistent : ∀ state state' input, invariant state → invariant state' → own input = true →
      view state = view state' → view (step state input) = view (step state' input))
    {state state' : State} (start : invariant state) (start' : invariant state')
    (same : view state = view state') (inputs : List Input) :
    view (run step state inputs) = view (run step state' (inputs.filter own)) := by
  let related (first second : State) : Prop :=
    invariant first ∧ invariant second ∧ view first = view second
  have always : Along step (fun _ _ => True) state inputs :=
    @Along.of_inputs _ _ step (fun _ => True) state inputs fun _ _ => trivial
  have both : related (run step state inputs) (run step state' (inputs.filter own)) := by
    apply run_filter_related related own _ _ ⟨start, start', same⟩ always
    · rintro first second input ⟨valid, valid', agree⟩ - foreign
      exact ⟨keeps first input valid, valid', (respects first input valid foreign).trans agree⟩
    · rintro first second input ⟨valid, valid', agree⟩ - mine
      exact ⟨keeps first input valid, keeps second input valid',
        consistent first second input valid valid' mine agree⟩
  exact both.2.2

/-! ## What a run gives -/

/-- What the steps of a run give, in order. -/
def collect {Output : Type*} (step : State → Input → State) (gives : State → Input → List Output) :
    State → List Input → List Output
  | _, [] => []
  | state, input :: inputs =>
      gives state input ++ collect step gives (step state input) inputs

/-- **First in, first out.** What every step gives away comes off the front of what is held,
behind which it puts what it accepts: so a run gives away what it has accepted, in order, but
for what is held in the end. -/
theorem collect_fifo {Output : Type*} {step : State → Input → State} (held : State → List Output)
    (accepts gives : State → Input → List Output)
    (front : ∀ state input, gives state input ++ held (step state input) =
      held state ++ accepts state input) (state : State) (inputs : List Input) :
    collect step gives state inputs ++ held (run step state inputs) =
      held state ++ collect step accepts state inputs := by
  induction inputs generalizing state with
  | nil => exact (List.append_nil _).symm
  | cons input inputs ih =>
      rw [collect, collect, List.append_assoc]
      calc gives state input ++ (collect step gives (step state input) inputs ++
            held (run step (step state input) inputs))
          = gives state input ++
              (held (step state input) ++ collect step accepts (step state input) inputs) := by
            rw [ih]
        _ = held state ++ (accepts state input ++
              collect step accepts (step state input) inputs) := by
            rw [← List.append_assoc, front, List.append_assoc]

end Transition
