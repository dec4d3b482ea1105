import DseDriver.CassError

/-!
# Lock callbacks of the GSSAPI authenticator

The static members of `GssapiAuthenticatorData`: the callbacks around every call of the GSSAPI
library, and the pointer that is passed to them.  The documented behaviour is a second machine, of
which only the last accepted registration is the state.
-/

namespace DseDriver.Auth

/-- A lock or unlock callback. -/
inductive Callback where
  | nopLock
  | nopUnlock
  | user (address : Nat)
  deriving DecidableEq, Repr

/-- `lock_callback_`, `unlock_callback_` and `data_`; `none` is a null pointer. -/
structure Locks where
  lockCallback : Callback
  unlockCallback : Callback
  data : Option Nat
  deriving DecidableEq, Repr

/-- The callback that is invoked and its argument. -/
structure Invocation where
  callback : Callback
  data : Option Nat
  deriving DecidableEq, Repr

namespace Locks

/-- The initial values of the static members. -/
def initial : Locks :=
  { lockCallback := .nopLock, unlockCallback := .nopUnlock, data := none }

/-- `GssapiAuthenticatorData::set_lock_callbacks`.  The third check is on the member `data_`, not
on the argument. -/
def setLockCallbacks (lockCallback unlockCallback : Option Callback) (data : Option Nat)
    (locks : Locks) : CassError × Locks :=
  match lockCallback, unlockCallback, locks.data with
  | some lockCallback, some unlockCallback, some _ =>
    (.ok, { lockCallback, unlockCallback, data })
  | _, _, _ =>
    (.libBadParams, { lockCallback := .nopLock, unlockCallback := .nopUnlock, data := none })

def lock (locks : Locks) : Invocation :=
  { callback := locks.lockCallback, data := locks.data }

def unlock (locks : Locks) : Invocation :=
  { callback := locks.unlockCallback, data := locks.data }

end Locks

/-- A registration by the application, or a lock or unlock by the authenticator. -/
inductive LockAction where
  | setLockCallbacks (lockCallback unlockCallback : Option Callback) (data : Option Nat)
  | lock
  | unlock
  deriving DecidableEq, Repr

/-- What an action on the locks shows. -/
inductive LockOutcome where
  | returned (rc : CassError)
  | invoked (invocation : Invocation)
  deriving DecidableEq, Repr

/-- The outcome of an action and the static members after it. -/
def Locks.step (locks : Locks) : LockAction → LockOutcome × Locks
  | .setLockCallbacks lockCallback unlockCallback data =>
    let (rc, locks) := locks.setLockCallbacks lockCallback unlockCallback data
    (.returned rc, locks)
  | .lock => (.invoked locks.lock, locks)
  | .unlock => (.invoked locks.unlock, locks)

/-- The outcomes of a sequence of actions. -/
def Locks.outcomes (locks : Locks) : List LockAction → List LockOutcome
  | [] => []
  | action :: actions => (locks.step action).1 :: (locks.step action).2.outcomes actions

/-! ## What is documented -/

/-- Callbacks and data of which none is null. -/
structure Registration where
  lockCallback : Callback
  unlockCallback : Callback
  data : Nat
  deriving DecidableEq, Repr

/-- The registration that a call asks for. -/
def Registration.of? (lockCallback unlockCallback : Option Callback) (data : Option Nat) :
    Option Registration :=
  match lockCallback, unlockCallback, data with
  | some lockCallback, some unlockCallback, some data =>
    some { lockCallback, unlockCallback, data }
  | _, _, _ => none

/-- The registration in force after an action. -/
def Registration.after (current : Option Registration) : LockAction → Option Registration
  | .setLockCallbacks lockCallback unlockCallback data => of? lockCallback unlockCallback data
  | .lock | .unlock => current

/-- The documented outcome of an action: the registered callback with the registered data, or the
no-op callback with anything. -/
def Registration.Admits (current : Option Registration) : LockAction → LockOutcome → Prop
  | .setLockCallbacks lockCallback unlockCallback data, outcome =>
    outcome = .returned
      (if (of? lockCallback unlockCallback data).isSome then .ok else .libBadParams)
  | .lock, outcome =>
    match current with
    | some registration =>
      outcome = .invoked
        { callback := registration.lockCallback, data := some registration.data }
    | none => ∃ data, outcome = .invoked { callback := .nopLock, data }
  | .unlock, outcome =>
    match current with
    | some registration =>
      outcome = .invoked
        { callback := registration.unlockCallback, data := some registration.data }
    | none => ∃ data, outcome = .invoked { callback := .nopUnlock, data }

/-- Every action of the sequence has a documented outcome. -/
def Registration.AdmitsAll (current : Option Registration) : List LockAction → List LockOutcome → Prop
  | [], outcomes => outcomes = []
  | action :: actions, outcomes =>
    ∃ outcome rest, outcomes = outcome :: rest ∧ Admits current action outcome ∧
      AdmitsAll (after current action) actions rest

/-- A registration of callbacks and data of which none is null. -/
def LockAction.IsComplete : LockAction → Prop
  | .setLockCallbacks lockCallback unlockCallback data =>
    (Registration.of? lockCallback unlockCallback data).isSome
  | _ => False

/-! ## What the code does

The data is null at the start and is only ever set once it is not null. -/

/-- Every call fails from the initial state, and leads back to it. -/
theorem Locks.setLockCallbacks_initial (lockCallback unlockCallback : Option Callback)
    (data : Option Nat) :
    initial.setLockCallbacks lockCallback unlockCallback data = (.libBadParams, initial) := by
  cases lockCallback <;> cases unlockCallback <;> rfl

theorem Locks.step_initial (action : LockAction) : (initial.step action).2 = initial := by
  cases action with
  | setLockCallbacks lockCallback unlockCallback data =>
    simp only [step, setLockCallbacks_initial]
  | lock => rfl
  | unlock => rfl

/-- While nothing is registered, the outcome of an action is as documented unless a complete
registration is asked for. -/
theorem Registration.admits_initial_iff (action : LockAction) :
    Admits none action (Locks.initial.step action).1 ↔ ¬ action.IsComplete := by
  cases action with
  | setLockCallbacks lockCallback unlockCallback data =>
    simp only [Admits, Locks.step, Locks.setLockCallbacks_initial, LockAction.IsComplete]
    cases of? lockCallback unlockCallback data <;> simp
  | lock => exact ⟨fun _ => nofun, fun _ => ⟨none, rfl⟩⟩
  | unlock => exact ⟨fun _ => nofun, fun _ => ⟨none, rfl⟩⟩

theorem Registration.after_of_not_isComplete {action : LockAction} (incomplete : ¬ action.IsComplete) :
    after none action = none := by
  cases action with
  | setLockCallbacks lockCallback unlockCallback data =>
    exact Option.not_isSome_iff_eq_none.mp incomplete
  | lock => rfl
  | unlock => rfl

/-- In every sequence of actions from the initial state, all outcomes are as documented iff no call
passes callbacks and data of which none is null. -/
theorem Locks.outcomes_documented_iff (actions : List LockAction) :
    Registration.AdmitsAll none actions (initial.outcomes actions) ↔
      ∀ action ∈ actions, ¬ action.IsComplete := by
  induction actions with
  | nil => exact ⟨fun _ => nofun, fun _ => rfl⟩
  | cons action actions ih =>
    rw [outcomes, step_initial, List.forall_mem_cons]
    constructor
    · rintro ⟨outcome, rest, split, admitted, admittedRest⟩
      obtain ⟨rfl, rfl⟩ := List.cons.inj split
      have incomplete := (Registration.admits_initial_iff action).mp admitted
      rw [Registration.after_of_not_isComplete incomplete] at admittedRest
      exact ⟨incomplete, ih.mp admittedRest⟩
    · rintro ⟨incomplete, each⟩
      refine ⟨_, _, rfl, (Registration.admits_initial_iff action).mpr incomplete, ?_⟩
      rw [Registration.after_of_not_isComplete incomplete]
      exact ih.mpr each

/-- The first registration of an application is refused. -/
theorem Locks.complete_registration_refused :
    ¬ Registration.AdmitsAll none [.setLockCallbacks (some (.user 1)) (some (.user 2)) (some 3), .lock]
      (initial.outcomes
        [.setLockCallbacks (some (.user 1)) (some (.user 2)) (some 3), .lock]) := by
  rintro ⟨outcome, rest, split, admitted, -⟩
  obtain ⟨rfl, -⟩ := List.cons.inj split
  refine absurd admitted ?_
  simp [Registration.Admits, Registration.of?, step, setLockCallbacks, initial]

end DseDriver.Auth
