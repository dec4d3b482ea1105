import Mathlib.Tactic.TypeStar

/-!
# Runs of a transition function

A system is a step function on its states, and a run is a list of events.  A
condition on single steps, taken in the state the step starts from, restricts the
runs; an invariant that such steps keep holds at the end of each of them.
-/

namespace DseDriver.Lib

variable {State Event : Type*} (step : State → Event → State)

/-- Every event of the run meets the condition in the state in which it happens. -/
def Throughout (condition : State → Event → Prop) : State → List Event → Prop
  | _, [] => True
  | state, event :: events =>
    condition state event ∧ Throughout condition (step state event) events

variable {step} {condition : State → Event → Prop}

theorem Throughout.invariant {invariant : State → Prop}
    (keeps : ∀ state event, invariant state → condition state event →
      invariant (step state event))
    {state : State} {events : List Event} (start : invariant state)
    (within : Throughout step condition state events) : invariant (events.foldl step state) := by
  induction events generalizing state with
  | nil => exact start
  | cons event events ih => exact ih (keeps state event start within.1) within.2

/-- A condition on the events alone can be added to any other. -/
theorem Throughout.and_forall {domain : Event → Prop} {state : State} {events : List Event}
    (each : ∀ event ∈ events, domain event) (within : Throughout step condition state events) :
    Throughout step (fun state event => domain event ∧ condition state event) state events := by
  induction events generalizing state with
  | nil => trivial
  | cons event events ih =>
    refine ⟨⟨each event List.mem_cons_self, within.1⟩, ?_⟩
    exact ih (fun other member => each other (List.mem_cons_of_mem event member)) within.2

/-- A run that leaves a condition does so for the first time at some event. -/
theorem exists_first_of_not_throughout {state : State} {events : List Event}
    (leaves : ¬ Throughout step condition state events) :
    ∃ before event after, events = before ++ event :: after ∧
      Throughout step condition state before ∧
      ¬ condition (before.foldl step state) event := by
  induction events generalizing state with
  | nil => exact absurd trivial leaves
  | cons event events ih =>
    by_cases meets : condition state event
    · have later : ¬ Throughout step condition (step state event) events :=
        fun within => leaves ⟨meets, within⟩
      rcases ih later with ⟨before, violating, after, split, within, violates⟩
      exact ⟨event :: before, violating, after, by rw [split]; rfl, ⟨meets, within⟩, violates⟩
    · exact ⟨[], event, events, rfl, trivial, meets⟩

end DseDriver.Lib
