import Mathlib.Data.List.Basic
import Mathlib.Tactic.TypeStar

/-!
# Iterators

An iterator is a state with a step that gives the next item or says that there is none.
A step may also have no result at all, when it leaves the memory it reads.  A client takes
the items until there is none, or a number of them that it knows.
-/

namespace DseDriver.Lib

open List Option

variable {σ α : Type*} {next : σ → Option (Option α × σ)}

/-- What an iterator that always has a result gives in a number of calls. -/
def results (next : σ → Option α × σ) : Nat → σ → List α
  | 0, _ => []
  | limit + 1, state =>
    match next state with
    | (none, _) => []
    | (some item, state) => item :: results next limit state

/-- Ask for the next item until one is wanted, and collect the others; `none` if the limit is
reached before. -/
def nextWanted (next : σ → Option (Option α × σ)) (wanted : α → Bool) :
    Nat → List α → σ → Option (Option α × List α × σ)
  | 0, _, _ => none
  | limit + 1, skipped, state => do
    match ← next state with
    | (none, state) => return (none, skipped, state)
    | (some item, state) =>
      if wanted item then
        return (some item, skipped, state)
      else
        nextWanted next wanted limit (skipped ++ [item]) state

/-- What holds of all items of an iterator holds of the wanted one and of the others. -/
theorem nextWanted_keeps {next : σ → Option (Option α × σ)} {wanted : α → Bool}
    {invariant : σ → Prop} {good : α → Prop}
    (keeps : ∀ state item after, invariant state → next state = some (item, after) →
      (∀ found, item = some found → good found) ∧ invariant after)
    {limit : Nat} {skipped others : List α} {state after : σ} {item : Option α}
    (start : invariant state) (earlier : ∀ other ∈ skipped, good other)
    (asked : nextWanted next wanted limit skipped state = some (item, others, after)) :
    (∀ found, item = some found → good found) ∧ (∀ other ∈ others, good other) ∧
      invariant after := by
  induction limit generalizing skipped state with
  | zero => cases asked
  | succ limit ih =>
    rw [nextWanted] at asked
    cases step : next state with
    | none =>
      rw [step] at asked
      cases asked
    | some outcome =>
      obtain ⟨result, middle⟩ := outcome
      obtain ⟨isGood, kept⟩ := keeps state result middle start step
      rw [step] at asked
      cases result with
      | none =>
        cases asked
        exact ⟨isGood, earlier, kept⟩
      | some first =>
        simp only [bind_eq_bind, bind_some] at asked
        split at asked
        · cases asked
          exact ⟨isGood, earlier, kept⟩
        · refine ih kept (fun other member => ?_) asked
          rcases mem_append.mp member with before | last
          · exact earlier other before
          · rw [mem_singleton.mp last]
            exact isGood first rfl

/-! ## Iterators that end -/

/-- What a later call gives, when the calls are numbered and may differ: of the next call if the
distance is zero. -/
def callAt (next : Nat → σ → Option (Option α × σ)) : Nat → Nat → σ → Option (Option α)
  | call, 0, state => (next call state).map Prod.fst
  | call, distance + 1, state =>
    (next call state).bind fun outcome => callAt next (call + 1) distance outcome.2

/-- The calls from a number on give these items one by one, and after them none for ever. -/
def Gives (next : Nat → σ → Option (Option α × σ)) (call : Nat) (state : σ) (items : List α) :
    Prop :=
  ∀ distance, callAt next call distance state = some items[distance]?

section Gives

variable {next : Nat → σ → Option (Option α × σ)} {call : Nat} {state : σ} {items : List α}

theorem gives_iff :
    Gives next call state items ↔
      ∃ after, next call state = some (items.head?, after) ∧
        Gives next (call + 1) after items.tail := by
  constructor
  · intro gives
    obtain ⟨⟨item, after⟩, step, first⟩ := map_eq_some_iff.mp (gives 0)
    refine ⟨after, ?_, fun distance => ?_⟩
    · rw [step, head?_eq_getElem?, ← first]
    · have later := gives (distance + 1)
      rw [callAt, step, bind_some] at later
      rw [later, getElem?_tail]
  · rintro ⟨after, step, rest⟩ (_ | distance)
    · rw [callAt, step, map_some, head?_eq_getElem?]
    · rw [callAt, step, bind_some, rest distance, getElem?_tail]

/-- A relation between states and items that each call keeps says what the iterator gives. -/
theorem gives_of_step (related : Nat → σ → List α → Prop)
    (step : ∀ call state items, related call state items →
      ∃ after, next call state = some (items.head?, after) ∧
        related (call + 1) after items.tail)
    (start : related call state items) : Gives next call state items := by
  intro distance
  induction distance generalizing call state items with
  | zero =>
    obtain ⟨after, first, -⟩ := step call state items start
    rw [callAt, first, map_some, head?_eq_getElem?]
  | succ distance ih =>
    obtain ⟨after, first, rest⟩ := step call state items start
    rw [callAt, first, bind_some, ih rest, getElem?_tail]

/-- A list is an iterator over its items. -/
theorem gives_list (call : Nat) (items : List α) :
    Gives (fun _ items => some (items.head?, items.tail)) call items items := by
  refine gives_of_step (fun _ state items => state = items) ?_ rfl
  rintro _ items _ rfl
  exact ⟨items.tail, rfl, rfl⟩

/-- Calls that do not differ need no numbers. -/
theorem Gives.renumber {next : σ → Option (Option α × σ)}
    (gives : Gives (fun _ => next) call state items) (other : Nat) :
    Gives (fun _ => next) other state items := by
  refine gives_of_step (fun _ state items => ∃ call, Gives (fun _ => next) call state items) ?_
    ⟨call, gives⟩
  rintro _ state items ⟨call, gives⟩
  obtain ⟨after, step, rest⟩ := gives_iff.mp gives
  exact ⟨after, step, call + 1, rest⟩

theorem length_tail_dropWhile_le (passed : α → Bool) (items : List α) :
    (items.dropWhile passed).tail.length ≤ items.length :=
  ((tail_suffix _).trans (dropWhile_suffix passed)).length_le

theorem head?_dropWhile_not (wanted : α → Bool) (items : List α) :
    (items.dropWhile fun item => !wanted item).head? = (items.filter wanted).head? := by
  induction items with
  | nil => rfl
  | cons item items ih => cases isWanted : wanted item <;> simp [isWanted, ih]

theorem filter_tail_dropWhile_not (wanted : α → Bool) (items : List α) :
    (items.dropWhile fun item => !wanted item).tail.filter wanted = (items.filter wanted).tail := by
  induction items with
  | nil => rfl
  | cons item items ih => cases isWanted : wanted item <;> simp [isWanted, ih]

/-- Looking for a wanted item passes over those in front of it. -/
theorem Gives.nextWanted {next : σ → Option (Option α × σ)} {limit : Nat}
    (gives : Gives (fun _ => next) 0 state items) (wanted : α → Bool)
    (enough : items.length < limit) (skipped : List α) :
    ∃ after, Lib.nextWanted next wanted limit skipped state =
        some ((items.dropWhile fun item => !wanted item).head?,
          skipped ++ items.takeWhile fun item => !wanted item, after) ∧
      Gives (fun _ => next) 0 after (items.dropWhile fun item => !wanted item).tail := by
  induction limit generalizing items state skipped with
  | zero => cases enough
  | succ limit ih =>
    obtain ⟨after, step, rest⟩ := gives_iff.mp gives
    replace rest := rest.renumber 0
    rw [Lib.nextWanted, step]
    cases items with
    | nil => exact ⟨after, by simp, rest⟩
    | cons item items =>
      cases isWanted : wanted item with
      | true => exact ⟨after, by simp [isWanted], by simpa [isWanted] using rest⟩
      | false =>
        obtain ⟨last, found, others⟩ :=
          ih rest (Nat.lt_of_succ_lt_succ enough) (skipped ++ [item])
        exact ⟨last, by simpa [isWanted] using found, by simpa [isWanted] using others⟩

end Gives

/-- Take a number of items; `none` if a call does not give one. -/
def takeItems (next : σ → Option (α × σ)) : Nat → σ → Option (List α × σ)
  | 0, state => some ([], state)
  | count + 1, state => do
    let (item, state) ← next state
    let (items, state) ← takeItems next count state
    return (item :: items, state)

theorem takeItems_succ {next : σ → Option (α × σ)} {count : Nat} {state last : σ} {items : List α} :
    takeItems next (count + 1) state = some (items, last) ↔
      ∃ item middle others, next state = some (item, middle) ∧
        takeItems next count middle = some (others, last) ∧ items = item :: others := by
  simp only [takeItems, bind_eq_bind, bind_eq_some_iff, Option.pure_def,
    Option.some.injEq, Prod.mk.injEq]
  constructor
  · rintro ⟨⟨item, middle⟩, first, ⟨others, last'⟩, rest, rfl, rfl⟩
    exact ⟨item, middle, others, first, rest, rfl⟩
  · rintro ⟨item, middle, others, first, rest, rfl⟩
    exact ⟨⟨item, middle⟩, first, ⟨others, last⟩, rest, rfl, rfl⟩

theorem takeItems_length {next : σ → Option (α × σ)} {count : Nat} {state last : σ}
    {items : List α} (taken : takeItems next count state = some (items, last)) :
    items.length = count := by
  induction count generalizing state items with
  | zero =>
    cases taken
    rfl
  | succ count ih =>
    obtain ⟨item, middle, others, -, rest, rfl⟩ := takeItems_succ.mp taken
    rw [length_cons, ih rest]

end DseDriver.Lib
