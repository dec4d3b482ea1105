import Mathlib.Tactic.TypeStar

/-!
# Conformance of an object to a protocol

An object answers calls and changes its state; a call without a result is a fault.  A
protocol says after each call whether its response is allowed, and how it goes on.  Because
objects are deterministic, conformance to a protocol for all sequences of calls can be
followed along any one of them.
-/

namespace DseDriver.Lib

variable {State Call Response Protocol : Type*}
variable (call : State → Call → Option (Response × State))
variable (allows : Protocol → Call → Response → Option Protocol)

/-- Every call of the sequence has a result, and one that the protocol allows. -/
def Conforms : State → Protocol → List Call → Prop
  | _, _, [] => True
  | state, protocol, next :: calls =>
    ∃ response state' protocol', call state next = some (response, state') ∧
      allows protocol next response = some protocol' ∧ Conforms state' protocol' calls

variable {call allows}

/-- A relation that every call keeps gives conformance for all sequences. -/
theorem conforms_of_simulation {related : State → Protocol → Prop}
    (step : ∀ state protocol next, related state protocol →
      ∃ response state' protocol', call state next = some (response, state') ∧
        allows protocol next response = some protocol' ∧ related state' protocol')
    {state : State} {protocol : Protocol} (start : related state protocol) (calls : List Call) :
    Conforms call allows state protocol calls := by
  induction calls generalizing state protocol with
  | nil => trivial
  | cons next calls ih =>
    obtain ⟨response, state', protocol', result, allowed, onward⟩ := step state protocol next start
    exact ⟨response, state', protocol', result, allowed, ih onward⟩

/-- An object that always conforms does so after each call. -/
theorem conforms_next {state : State} {protocol : Protocol}
    (always : ∀ calls, Conforms call allows state protocol calls) (next : Call) :
    ∃ response state' protocol', call state next = some (response, state') ∧
      allows protocol next response = some protocol' ∧
      ∀ calls, Conforms call allows state' protocol' calls := by
  obtain ⟨response, state', protocol', result, allowed, -⟩ := always [next]
  refine ⟨response, state', protocol', result, allowed, ?_⟩
  intro calls
  obtain ⟨_, _, _, sameResult, sameAllowed, onward⟩ := always (next :: calls)
  rw [result] at sameResult
  cases sameResult
  rw [allowed] at sameAllowed
  cases sameAllowed
  exact onward

/-! ## What a client sees -/

variable (call) in
/-- The responses to a sequence of calls; `none` is a fault on the way. -/
def responses : State → List Call → Option (List Response)
  | _, [] => some []
  | state, next :: calls =>
    (call state next).bind fun (response, state) => (responses state calls).map (response :: ·)

variable (call) in
/-- No sequence of calls tells the two states apart. -/
def Alike (first second : State) : Prop :=
  ∀ calls, responses call first calls = responses call second calls

/-- States of a relation that every call keeps, with the same response, are alike. -/
theorem alike_of_bisimulation {related : State → State → Prop}
    (step : ∀ first second next, related first second →
      (call first next = none ∧ call second next = none) ∨
        ∃ response first' second', call first next = some (response, first') ∧
          call second next = some (response, second') ∧ related first' second')
    {first second : State} (start : related first second) : Alike call first second := by
  intro calls
  induction calls generalizing first second with
  | nil => rfl
  | cons next calls ih =>
    rcases step first second next start with ⟨fault, fault'⟩ |
      ⟨response, first', second', result, result', onward⟩
    · simp [responses, fault, fault']
    · simp [responses, result, result', ih onward]

end DseDriver.Lib
