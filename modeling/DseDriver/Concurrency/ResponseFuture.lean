import Mathlib.Data.List.Induction
import Mathlib.Tactic.TypeStar

/-!
# Response futures

A `ResponseFuture` is completed by a response or an error and may have a callback.  The calls lock
its mutex, and a callback is run by the thread of the call when it has unlocked it again, so that
other calls can come in between.
-/

namespace DseDriver.Concurrency

open List

variable {Address Response Error Callback : Type*}

/-- The members of a `ResponseFuture` that are set under its mutex. -/
structure ResponseFuture (Address Response Error Callback : Type*) where
  isSet : Bool
  address : Option Address
  response : Option Response
  error : Option Error
  callback : Option Callback

/-- A call of any thread.  With `run` a thread that has unlocked the mutex runs the callback that it
has taken with it, by the place among those that are about to. -/
inductive FutureCall (Address Response Error Callback : Type*) where
  | setResponse (address : Address) (response : Response)
  | setError (error : Error)
  | setErrorWithAddress (address : Address) (error : Error)
  | setErrorWithResponse (address : Address) (response : Response) (error : Error)
  | setCallback (callback : Callback)
  | run (place : Nat)

/-- A future with the callbacks that are about to run, those that have run, and what the calls have
returned. -/
structure FutureRun (Address Response Error Callback : Type*) where
  future : ResponseFuture Address Response Error Callback
  unlocked : List Callback
  ran : List Callback
  returned : List (FutureCall Address Response Error Callback × Bool)

namespace FutureCall

def isCompleting : FutureCall Address Response Error Callback → Bool
  | setCallback _ | run _ => false
  | _ => true

/-- The callback that a call has registered, by what it returned. -/
def registers : FutureCall Address Response Error Callback × Bool → Option Callback
  | (setCallback callback, true) => some callback
  | _ => none

theorem registers_of_isCompleting {call : FutureCall Address Response Error Callback}
    (completing : call.isCompleting = true) (returned : Bool) :
    registers (call, returned) = none := by
  cases call <;> first | rfl | cases completing

end FutureCall

namespace ResponseFuture

def new : ResponseFuture Address Response Error Callback := ⟨false, none, none, none, none⟩

/-- What a completing call stores in a future that is not set. -/
def store (future : ResponseFuture Address Response Error Callback) :
    FutureCall Address Response Error Callback → ResponseFuture Address Response Error Callback
  | .setResponse address response => { future with address, response }
  | .setError error => { future with error }
  | .setErrorWithAddress address error => { future with address, error }
  | .setErrorWithResponse address response error => { future with address, response, error }
  | .setCallback _ | .run _ => future

@[simp] theorem callback_store (future : ResponseFuture Address Response Error Callback)
    (call : FutureCall Address Response Error Callback) :
    (future.store call).callback = future.callback := by
  cases call <;> rfl

/-- What can be asked for. -/
def observed (future : ResponseFuture Address Response Error Callback) :
    Option Address × Option Response × Option Error :=
  (future.address, future.response, future.error)

end ResponseFuture

namespace FutureRun

variable (state : FutureRun Address Response Error Callback)

def new : FutureRun Address Response Error Callback := ⟨.new, [], [], []⟩

/-- A completing call, with `internal_set`. -/
def complete (call : FutureCall Address Response Error Callback) :
    FutureRun Address Response Error Callback :=
  if state.future.isSet then
    { state with returned := state.returned ++ [(call, false)] }
  else
    { state with
      future := { state.future.store call with isSet := true }
      unlocked := state.unlocked ++ state.future.callback.toList
      returned := state.returned ++ [(call, true)] }

def setCallback (callback : Callback) : FutureRun Address Response Error Callback :=
  if state.future.callback.isSome then
    { state with returned := state.returned ++ [(.setCallback callback, false)] }
  else
    { state with
      future := { state.future with callback := some callback }
      unlocked := if state.future.isSet then state.unlocked ++ [callback] else state.unlocked
      returned := state.returned ++ [(.setCallback callback, true)] }

def run (place : Nat) : FutureRun Address Response Error Callback :=
  match state.unlocked[place]? with
  | none => state
  | some callback =>
    { state with
      unlocked := state.unlocked.eraseIdx place
      ran := state.ran ++ [callback] }

def step :
    FutureCall Address Response Error Callback → FutureRun Address Response Error Callback
  | .setCallback callback => state.setCallback callback
  | .run place => state.run place
  | call => state.complete call

/-- The future after some calls. -/
def after (calls : List (FutureCall Address Response Error Callback)) :
    FutureRun Address Response Error Callback :=
  calls.foldl step new

/-! ## One completion and one callback -/

/-- Calls that have completed the future. -/
def completions : Nat :=
  state.returned.countP fun entry => entry.1.isCompleting && entry.2

/-- Callbacks that have been registered. -/
def registered : List Callback :=
  state.returned.filterMap FutureCall.registers

/-- One call has completed a future that is set, the callback is the one that was registered, and it
runs or has run exactly when the future is set. -/
structure Consistent : Prop where
  completions : state.completions = if state.future.isSet then 1 else 0
  registered : state.registered = state.future.callback.toList
  notified : state.ran ++ state.unlocked =
    if state.future.isSet then state.future.callback.toList else []

variable {state}

section Consistent

variable (consistent : state.Consistent)
include consistent

theorem Consistent.complete {call : FutureCall Address Response Error Callback}
    (completing : call.isCompleting = true) : (state.complete call).Consistent := by
  obtain ⟨completions, registered, notified⟩ := consistent
  unfold FutureRun.complete
  cases isSet : state.future.isSet with
  | true =>
    rw [isSet] at completions notified
    constructor
    · simpa [FutureRun.completions, isSet, countP_append] using completions
    · simpa [FutureRun.registered, FutureCall.registers_of_isCompleting completing]
        using registered
    · simpa [isSet] using notified
  | false =>
    rw [isSet] at completions notified
    constructor
    · simpa [FutureRun.completions, countP_append, countP_cons, completing]
        using completions
    · simpa [FutureRun.registered, FutureCall.registers_of_isCompleting completing]
        using registered
    · -- the callback that is there is taken by this call
      simpa [← append_assoc] using notified

theorem Consistent.setCallback (callback : Callback) : (state.setCallback callback).Consistent := by
  obtain ⟨completions, registered, notified⟩ := consistent
  have uncounted (returned : Bool) :
      FutureRun.completions { state with
        returned := state.returned ++ [(.setCallback callback, returned)] } =
          state.completions := by
    simp [countP_append, FutureCall.isCompleting, FutureRun.completions]
  unfold FutureRun.setCallback
  cases there : state.future.callback with
  | some _ =>
    refine ⟨(uncounted false).trans completions, ?_, notified⟩
    simpa [FutureRun.registered, filterMap_cons, FutureCall.registers, there]
      using registered
  | none =>
    refine ⟨(uncounted true).trans completions, ?_, ?_⟩
    · simpa [FutureRun.registered, FutureCall.registers, there] using registered
    · -- on a future that is set the registering thread runs it, otherwise the completing one will
      cases isSet : state.future.isSet with
      | true =>
        rw [isSet, there] at notified
        obtain ⟨ran, unlocked⟩ := append_eq_nil_iff.1 notified
        simp [isSet, ran, unlocked]
      | false => simpa [isSet, there] using notified

theorem Consistent.length_le_one : (state.ran ++ state.unlocked).length ≤ 1 := by
  rw [consistent.notified]
  split
  · cases state.future.callback <;> simp
  · exact Nat.zero_le 1

/-- A callback that is about to run is the only one. -/
theorem Consistent.eq_nil_of_unlocked {callback : Callback}
    {rest : List Callback} (waiting : state.unlocked = callback :: rest) : rest = [] := by
  have few := consistent.length_le_one
  rw [waiting, length_append, length_cons] at few
  exact eq_nil_of_length_eq_zero (by omega)

/-- A callback that runs moves from those about to run to those that have: there is only one. -/
theorem Consistent.run (place : Nat) : (state.run place).Consistent := by
  unfold FutureRun.run
  cases found : state.unlocked[place]? with
  | none => exact consistent
  | some callback =>
    refine ⟨consistent.completions, consistent.registered, Eq.trans ?_ consistent.notified⟩
    obtain ⟨only, rfl⟩ : state.unlocked = [callback] ∧ place = 0 := by
      cases waiting : state.unlocked with
      | nil => simp [waiting] at found
      | cons first rest =>
        obtain rfl := consistent.eq_nil_of_unlocked waiting
        rw [waiting] at found
        cases place with
        | zero => simpa using found
        | succ place => simp at found
    show state.ran ++ [callback] ++ state.unlocked.eraseIdx 0 = _
    simp [only]

theorem Consistent.step (call : FutureCall Address Response Error Callback) :
    (state.step call).Consistent := by
  cases call with
  | setCallback callback => exact consistent.setCallback callback
  | run place => exact consistent.run place
  | setResponse => exact consistent.complete rfl
  | setError => exact consistent.complete rfl
  | setErrorWithAddress => exact consistent.complete rfl
  | setErrorWithResponse => exact consistent.complete rfl

end Consistent

end FutureRun

end DseDriver.Concurrency
