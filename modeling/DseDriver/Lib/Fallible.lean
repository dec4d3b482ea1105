import Mathlib.Computability.Language
import Mathlib.Order.CompletePartialOrder

/-!
# Operations that return a flag

An operation on a state returns a flag, and an output if the flag is true; one without a result
is a fault.  `Keeps` says that an operation has no fault in the states of an invariant, that it
keeps them, and what its output is; there is a rule for each way to put operations together.
`Recognises` says which words an operation reads when its output is good.
-/

namespace DseDriver.Lib

open List Option

variable {State α β : Type}

/-- The outer `none` is a fault, the inner one a flag that is false. -/
abbrev Fallible (State α : Type) := State → Option (Option α × State)

/-- An operation that fills an output step by step, also if it returns false in the end. -/
abbrev Filling (State β : Type) := State → Option (Bool × β × State)

namespace Fallible

def succeed (output : α) : Fallible State α := fun state => some (some output, state)

def fail : Fallible State α := fun state => some (none, state)

/-- Go on if the flag is true. -/
def andThen (first : Fallible State α) (next : α → Fallible State β) : Fallible State β :=
  fun state => do
    match ← first state with
    | (none, state) => return (none, state)
    | (some output, state) => next output state

/-- Fill an output with a number of items. -/
def fill (item : Fallible State α) (push : β → α → β) : Nat → β → Filling State β
  | 0, filled, state => some (true, filled, state)
  | count + 1, filled, state => do
    match ← item state with
    | (none, state) => return (false, filled, state)
    | (some output, state) => fill item push count (push filled output) state

/-- Read the number of items, then fill an output; it is left alone if there is no number. -/
def fillCounted (count : Fallible State α) (size : α → Nat) (untouched : β)
    (fillItems : Nat → Filling State β) : Filling State β :=
  fun state => do
    match ← count state with
    | (none, state) => return (false, untouched, state)
    | (some output, state) => fillItems (size output) state

end Fallible

/-- Use what was filled only if the flag is true. -/
def Filling.complete (operation : Filling State β) : Fallible State β := fun state =>
  (operation state).map fun (done, filled, state) => (if done then some filled else none, state)

/-- In the states of the invariant the operation has no fault and keeps the invariant, and its
output is good. -/
def Keeps (invariant : State → Prop) (operation : Fallible State α) (good : α → Prop) : Prop :=
  ∀ state, invariant state → ∃ output state', operation state = some (output, state') ∧
    invariant state' ∧ ∀ result, output = some result → good result

/-- The same for an output that is filled. -/
def KeepsFilling (invariant : State → Prop) (operation : Filling State β) (good : β → Prop) : Prop :=
  ∀ state, invariant state → ∃ done filled state', operation state = some (done, filled, state') ∧
    invariant state' ∧ good filled

variable {invariant : State → Prop}

namespace Keeps

theorem succeed {output : α} {good : α → Prop} (isGood : good output) :
    Keeps invariant (Fallible.succeed output) good := by
  intro state holds
  exact ⟨some output, state, rfl, holds, fun _ same => Option.some.inj same ▸ isGood⟩

theorem fail {good : α → Prop} : Keeps invariant Fallible.fail good := by
  intro state holds
  exact ⟨none, state, rfl, holds, fun _ none => by cases none⟩

variable {good : β → Prop}

/-- From one state on, where the first operation may tell more. -/
theorem andThen_at {first : Fallible State α} {next : α → Fallible State β} {middle : α → Prop}
    (before : Keeps invariant first middle) {state : State} (holds : invariant state)
    (after : ∀ output state', first state = some (some output, state') → middle output →
      invariant state' → ∃ last state'', next output state' = some (last, state'') ∧
        invariant state'' ∧ ∀ result, last = some result → good result) :
    ∃ output state', first.andThen next state = some (output, state') ∧ invariant state' ∧
      ∀ result, output = some result → good result := by
  obtain ⟨output, state', result, holds', isMiddle⟩ := before state holds
  rw [Fallible.andThen, result]
  cases output with
  | none => exact ⟨none, state', rfl, holds', fun _ none => by cases none⟩
  | some output => exact after output state' result (isMiddle _ rfl) holds'

theorem andThen {first : Fallible State α} {next : α → Fallible State β} {middle : α → Prop}
    (before : Keeps invariant first middle)
    (after : ∀ output, middle output → Keeps invariant (next output) good) :
    Keeps invariant (first.andThen next) good :=
  fun _ holds => before.andThen_at holds fun output state' _ isMiddle holds' =>
    after output isMiddle state' holds'

theorem fill {item : Fallible State α} {push : β → α → β} {itemGood : α → Prop}
    (each : Keeps invariant item itemGood)
    (pushed : ∀ filled output, good filled → itemGood output → good (push filled output))
    (count : Nat) {filled : β} (start : good filled) :
    KeepsFilling invariant (item.fill push count filled) good := by
  induction count generalizing filled with
  | zero =>
    intro state holds
    exact ⟨true, filled, state, rfl, holds, start⟩
  | succ count ih =>
    intro state holds
    obtain ⟨output, state', result, holds', isGood⟩ := each state holds
    cases output with
    | none =>
      refine ⟨false, filled, state', ?_, holds', start⟩
      rw [Fallible.fill, result]
      rfl
    | some output =>
      obtain ⟨done, final, state'', result', holds'', finalGood⟩ :=
        ih (pushed filled output start (isGood _ rfl)) state' holds'
      refine ⟨done, final, state'', ?_, holds'', finalGood⟩
      rw [Fallible.fill, result]
      exact result'

end Keeps

variable {good : β → Prop}

theorem KeepsFilling.complete {operation : Filling State β}
    (keeps : KeepsFilling invariant operation good) : Keeps invariant operation.complete good := by
  intro state holds
  obtain ⟨done, filled, state', result, holds', isGood⟩ := keeps state holds
  refine ⟨if done then some filled else none, state', ?_, holds', ?_⟩
  · rw [Filling.complete, result]
    rfl
  · intro output same
    cases done with
    | false => cases same
    | true => exact Option.some.inj same ▸ isGood

/-! ## Operations that read words -/

/-- In a state that sees an input, the operation has a good output exactly if the input starts with
a word of the language, and then the next state sees what is behind it. -/
structure Recognises {Token : Type} (sees : State → List Token → Prop) (good : α → Prop)
    (language : Language Token) (operation : Fallible State α) : Prop where
  sound : ∀ {state input result state'}, sees state input →
    operation state = some (some result, state') → good result →
    ∃ word ∈ language, ∃ rest, input = word ++ rest ∧ sees state' rest
  complete : ∀ {state word rest}, word ∈ language → sees state (word ++ rest) →
    ∃ result state', good result ∧ operation state = some (some result, state') ∧ sees state' rest

namespace Recognises

variable {Token : Type} {sees : State → List Token → Prop} {good : β → Prop}
  {operation : Fallible State α} {next : α → Fallible State β}

theorem succeed {output : β} (isGood : good output) :
    Recognises sees good 1 (Fallible.succeed output) where
  sound := by
    intro state input result state' isSeen ran _
    cases ran
    exact ⟨[], Language.nil_mem_one, input, rfl, isSeen⟩
  complete := by
    intro state word rest member isSeen
    rw [Language.mem_one] at member
    subst member
    exact ⟨output, state, isGood, rfl, isSeen⟩

theorem fail : Recognises sees good 0 Fallible.fail where
  sound := fun _ ran _ => nomatch ran
  complete := fun member _ => absurd member (Language.notMem_zero _)

theorem fault : Recognises sees good 0 fun _ => none where
  sound := fun _ ran _ => nomatch ran
  complete := fun member _ => absurd member (Language.notMem_zero _)

/-- Any value. -/
theorem any {encode : α → List Token}
    (each : ∀ value, Recognises sees (· = value) {encode value} operation) :
    Recognises sees (fun _ => True) (⨆ value, {encode value}) operation where
  sound := by
    intro state input result state' isSeen ran _
    obtain ⟨word, member, rest⟩ := (each result).sound isSeen ran rfl
    exact ⟨word, Language.mem_iSup.mpr ⟨result, member⟩, rest⟩
  complete := by
    intro state word rest member isSeen
    obtain ⟨value, isValue⟩ := Language.mem_iSup.mp member
    obtain ⟨result, state', -, ran⟩ := (each value).complete isValue isSeen
    exact ⟨result, state', trivial, ran⟩

/-- An operation and what depends on its output, as far as a value shows it. -/
theorem bind {ν : Type} {shows : ν → α → Prop} {first second : ν → Language Token}
    (begins : ∀ value, Recognises sees (shows value) (first value) operation)
    (goesOn : ∀ value output, shows value output →
      Recognises sees good (second value) (next output))
    (shown : ∀ output state result state', next output state = some (some result, state') →
      good result → ∃ value, shows value output) :
    Recognises sees good (⨆ value, first value * second value) (operation.andThen next) where
  sound := by
    intro state input result state' isSeen ran isGood
    obtain ⟨⟨output, middle⟩, began, ended⟩ := bind_eq_some_iff.mp ran
    cases output with
    | none => cases ended
    | some output =>
      obtain ⟨value, isShown⟩ := shown output middle result state' ended isGood
      obtain ⟨word, isFirst, rest, rfl, between⟩ := (begins value).sound isSeen began isShown
      obtain ⟨more, isSecond, rest, rfl, last⟩ :=
        (goesOn value output isShown).sound between ended isGood
      refine ⟨word ++ more, ?_, rest, (append_assoc ..).symm, last⟩
      exact Language.mem_iSup.mpr ⟨value, Language.append_mem_mul isFirst isSecond⟩
  complete := by
    intro state word rest member isSeen
    obtain ⟨value, both⟩ := Language.mem_iSup.mp member
    obtain ⟨one, isFirst, other, isSecond, rfl⟩ := Language.mem_mul.mp both
    rw [append_assoc] at isSeen
    obtain ⟨output, middle, isShown, began, between⟩ := (begins value).complete isFirst isSeen
    obtain ⟨result, state', isGood, ended, last⟩ :=
      (goesOn value output isShown).complete isSecond between
    exact ⟨result, state', isGood, by rw [Fallible.andThen, began]; exact ended, last⟩

/-- A value that is read exactly, and what depends on it. -/
theorem headed {encode : α → List Token} {second : α → Language Token}
    (begins : ∀ value, Recognises sees (· = value) {encode value} operation)
    (goesOn : ∀ value, Recognises sees good (second value) (next value)) :
    Recognises sees good (⨆ value, {encode value} * second value) (operation.andThen next) :=
  bind begins (by rintro _ output rfl; exact goesOn output) fun output _ _ _ _ _ => ⟨output, rfl⟩

theorem after {first second : Language Token}
    (begins : Recognises sees (fun _ => True) first operation)
    (goesOn : ∀ output, Recognises sees good second (next output)) :
    Recognises sees good (first * second) (operation.andThen next) := by
  rw [← iSup_const (ι := Unit) (a := first * second)]
  exact bind (fun _ => begins) (fun _ output _ => goesOn output) fun _ _ _ _ _ _ => ⟨(), trivial⟩

theorem map {middle : α → Prop} {language : Language Token}
    (begins : Recognises sees middle language operation) {convert : α → β}
    (same : ∀ output, good (convert output) ↔ middle output) :
    Recognises sees good language
      (operation.andThen fun output => Fallible.succeed (convert output)) := by
  rw [← mul_one language, ← iSup_const (ι := Unit) (a := language * 1)]
  refine bind (fun _ => begins) (fun _ output isMiddle => succeed ((same output).mpr isMiddle)) ?_
  intro output state result state' ran isGood
  cases ran
  exact ⟨(), (same output).mp isGood⟩

section Filling

variable {item : Fallible State α} {push : β → α → β} {itemGood : α → Prop}

theorem good_of_fill
    (pushed : ∀ filled output, good (push filled output) ↔ good filled ∧ itemGood output)
    {count : Nat} {filled final : β} {state state' : State} (isGood : good final)
    (ran : item.fill push count filled state = some (true, final, state')) : good filled := by
  induction count generalizing filled state with
  | zero => cases ran; exact isGood
  | succ count ih =>
    obtain ⟨⟨output, between⟩, -, rest⟩ := bind_eq_some_iff.mp ran
    cases output with
    | none => cases rest
    | some output => exact ((pushed filled output).mp (ih rest)).1

/-- A number of words. -/
theorem fill {language : Language Token} (each : Recognises sees itemGood language item)
    (pushed : ∀ filled output, good (push filled output) ↔ good filled ∧ itemGood output)
    (count : Nat) {filled : β} (start : good filled) :
    Recognises sees good (language ^ count) (Filling.complete (item.fill push count filled)) := by
  induction count generalizing filled with
  | zero => exact succeed start
  | succ count ih =>
    rw [pow_succ']
    constructor
    · intro state input result state' isSeen ran isGood
      obtain ⟨⟨done, final, last⟩, filling, finished⟩ := map_eq_some_iff.mp ran
      cases done with
      | false => cases finished
      | true =>
        cases finished
        obtain ⟨⟨output, middle⟩, began, ended⟩ := bind_eq_some_iff.mp filling
        cases output with
        | none => cases ended
        | some output =>
          have both := (pushed filled output).mp (good_of_fill pushed isGood ended)
          obtain ⟨word, member, rest, rfl, between⟩ := each.sound isSeen began both.2
          obtain ⟨more, members, rest, rfl, last⟩ :=
            (ih ((pushed filled output).mpr both)).sound between
              (by rw [Filling.complete, show item.fill push count _ middle = _ from ended]; rfl) isGood
          exact ⟨word ++ more, Language.append_mem_mul member members, rest,
            (append_assoc ..).symm, last⟩
    · intro state word rest member isSeen
      obtain ⟨one, isFirst, others, areOthers, rfl⟩ := Language.mem_mul.mp member
      rw [append_assoc] at isSeen
      obtain ⟨output, middle, isGood, began, between⟩ := each.complete isFirst isSeen
      obtain ⟨final, state', finalGood, ended, last⟩ :=
        (ih ((pushed filled output).mpr ⟨start, isGood⟩)).complete areOthers between
      exact ⟨final, state', finalGood, by rw [Filling.complete, Fallible.fill, began]; exact ended,
        last⟩

end Filling

end Recognises

end DseDriver.Lib
