import DseDriver.CassError
import Mathlib.Data.List.AList
import Mathlib.Tactic.TypeStar

/-!
# Several queries behind one callback

A `MultipleRequestCallback` executes several queries and is told once about all of them.  The
queries are written one after the other in one turn of the event loop, where a write may fail at
once; responses, errors and timeouts come later in any order, and each query ends only once.
-/

namespace DseDriver.Request

open List

/-- What `Connection::write` does with the callback of a query: it is written, there is no stream
for it, or it cannot be encoded and is told so at once. -/
inductive Written where
  | written
  | noStreams
  | encodeError
  deriving DecidableEq, Repr

/-- How a query that was written ends. -/
inductive Outcome (Response : Type*) where
  | response (body : Response)
  | error (code : CassError) (message : String)
  | timeout

/-- The calls of `on_set`, `on_error` and `on_timeout`. -/
inductive Notified (Response : Type*) where
  | onSet (responses : AList fun _ : String => Option Response)
  | onError (code : CassError) (message : String)
  | onTimeout

/-- How far a query is. -/
inductive QueryState where
  | inFlight
  | answered
  | failed
  deriving DecidableEq, Repr

/-- How a query starts. -/
def Written.state (write : Written) : QueryState :=
  if write = .written then .inFlight else .failed

/-- `MultipleRequestCallback`, with the queries it has executed and what it was told. -/
structure MultipleRequestCallback (Response : Type*) where
  hasErrorsOrTimeouts : Bool
  remaining : Int
  responses : AList fun _ : String => Option Response
  queries : List (String × QueryState)
  notified : List (Notified Response)

namespace MultipleRequestCallback

variable {Response : Type*}

def new : MultipleRequestCallback Response where
  hasErrorsOrTimeouts := false
  remaining := 0
  responses := ∅
  queries := []
  notified := []

def notify (notified : Notified Response) (callback : MultipleRequestCallback Response) :
    MultipleRequestCallback Response :=
  { callback with notified := callback.notified ++ [notified] }

/-- `on_internal_error` and `on_internal_timeout`. -/
def onInternalFailure (notified : Notified Response) (callback : MultipleRequestCallback Response) :
    MultipleRequestCallback Response :=
  let callback := if callback.hasErrorsOrTimeouts then callback else callback.notify notified
  { callback with hasErrorsOrTimeouts := true }

/-- `on_internal_set`. -/
def onInternalSet (index : String) (body : Response) (callback : MultipleRequestCallback Response) :
    MultipleRequestCallback Response :=
  let callback :=
    { callback with
      responses := callback.responses.insert index (some body)
      remaining := callback.remaining - 1 }
  if callback.remaining = 0 ∧ ¬ callback.hasErrorsOrTimeouts then
    callback.notify (.onSet callback.responses)
  else
    callback

/-- Another query is executed. -/
def addQuery (index : String) (state : QueryState) (callback : MultipleRequestCallback Response) :
    MultipleRequestCallback Response :=
  { callback with queries := callback.queries ++ [(index, state)] }

/-- A query ends. -/
def setQuery (position : Nat) (index : String) (state : QueryState)
    (callback : MultipleRequestCallback Response) : MultipleRequestCallback Response :=
  { callback with queries := callback.queries.set position (index, state) }

/-- `execute_query`.  The query itself is only written. -/
def executeQuery (callback : MultipleRequestCallback Response) (query : String × Written) :
    MultipleRequestCallback Response :=
  if callback.hasErrorsOrTimeouts then
    callback
  else
    let callback :=
      { callback with
        responses := callback.responses.insert query.1 none
        remaining := callback.remaining + 1 }
    match query.2 with
    | .written => callback.addQuery query.1 .inFlight
    | .noStreams =>
      (callback.addQuery query.1 .failed).notify
        (.onError .libNoStreams "No more streams available")
    | .encodeError =>
      (callback.addQuery query.1 .failed).onInternalFailure
        (.onError .libMessageEncode "Operation unsupported by this protocol version")

/-- A query ends, if it was written and has not ended before. -/
def finish (callback : MultipleRequestCallback Response) (event : Nat × Outcome Response) :
    MultipleRequestCallback Response :=
  match callback.queries[event.1]? with
  | some (index, .inFlight) =>
    match event.2 with
    | .response body => (callback.setQuery event.1 index .answered).onInternalSet index body
    | .error code message =>
      (callback.setQuery event.1 index .failed).onInternalFailure (.onError code message)
    | .timeout => (callback.setQuery event.1 index .failed).onInternalFailure .onTimeout
  | _ => callback

/-- The queries are executed, and then end in some order. -/
def run (queries : List (String × Written)) (events : List (Nat × Outcome Response)) :
    MultipleRequestCallback Response :=
  events.foldl finish (queries.foldl executeQuery new)

/-- At most one notification, and `on_set` only when every query has its response. -/
structure NotifiesOnce (queries : List (String × Written))
    (callback : MultipleRequestCallback Response) : Prop where
  atMostOne : callback.notified.length ≤ 1
  complete : ∀ responses, .onSet responses ∈ callback.notified →
    callback.queries.map Prod.fst = queries.map Prod.fst ∧
      ∀ query ∈ callback.queries, query.2 = .answered

/-- The queries that are executed: an error that is reported at once stops the others. -/
def executed : List (String × Written) → List (String × Written)
  | [] => []
  | query :: queries => query :: if query.2 = .encodeError then [] else executed queries

/-! ## Nothing failed for lack of a stream -/

/-- How many queries have no response. -/
def unanswered (queries : List (String × QueryState)) : Nat :=
  queries.countP fun query => query.2 ≠ .answered

theorem unanswered_eq_zero {queries : List (String × QueryState)} :
    unanswered queries = 0 ↔ ∀ query ∈ queries, query.2 = .answered := by
  simp [unanswered, countP_eq_zero]

section Answer

variable {queries : List (String × QueryState)} {position : Nat} {index : String}

theorem unanswered_append :
    unanswered (queries ++ [(index, .inFlight)]) = unanswered queries + 1 := by
  simp [unanswered]

theorem unanswered_set (found : queries[position]? = some (index, .inFlight)) :
    unanswered (queries.set position (index, .answered)) + 1 = unanswered queries := by
  obtain ⟨inside, here⟩ := List.getElem?_eq_some_iff.mp found
  have counted : 0 < unanswered queries :=
    countP_pos_iff.mpr ⟨_, mem_of_getElem? found, rfl⟩
  rw [unanswered, countP_set inside, here, ← unanswered, if_pos (by simp), if_neg (by simp)]
  omega

theorem map_fst_set {before : QueryState} (found : queries[position]? = some (index, before))
    (after : QueryState) :
    (queries.set position (index, after)).map Prod.fst = queries.map Prod.fst := by
  have kept : (queries.map Prod.fst)[position]? = some index := by
    rw [getElem?_map, found, Option.map_some]
  obtain ⟨inside, here⟩ := List.getElem?_eq_some_iff.mp kept
  rw [map_set, ← here, set_getElem_self]

end Answer

/-- Nothing has failed: the queries without a response are counted, and the only notification is
that there are none. -/
structure Open (indexes : List String) (callback : MultipleRequestCallback Response) : Prop where
  noFailure : callback.hasErrorsOrTimeouts = false
  indexes : callback.queries.map Prod.fst = indexes
  remaining : callback.remaining = unanswered callback.queries
  notified : callback.notified = [] ∨
    (∃ responses, callback.notified = [.onSet responses]) ∧
      ∀ query ∈ callback.queries, query.2 = .answered

/-- Something has failed and that was said. -/
structure HasFailed (callback : MultipleRequestCallback Response) : Prop where
  failed : callback.hasErrorsOrTimeouts = true
  notified : ∃ notified, callback.notified = [notified] ∧ ∀ responses, notified ≠ .onSet responses

variable {callback : MultipleRequestCallback Response}

theorem HasFailed.onInternalFailure (failed : callback.HasFailed) (notified : Notified Response) :
    (callback.onInternalFailure notified).HasFailed := by
  rw [MultipleRequestCallback.onInternalFailure, if_pos failed.failed]
  exact ⟨rfl, failed.notified⟩

/-- The first failure is reported. -/
theorem hasFailed_onInternalFailure {notified : Notified Response}
    (isOpen : callback.hasErrorsOrTimeouts = false) (quiet : callback.notified = [])
    (isFailure : ∀ responses, notified ≠ .onSet responses) :
    (callback.onInternalFailure notified).HasFailed := by
  rw [MultipleRequestCallback.onInternalFailure, isOpen]
  exact ⟨rfl, notified, by rw [notify, quiet]; rfl, isFailure⟩

variable {queries : List (String × Written)} {indexes : List String}

/-- A query that is written waits for its response. -/
theorem Open.executeQuery (isOpen : callback.Open indexes)
    (quiet : callback.notified = []) (index : String) :
    (callback.executeQuery (index, .written)).Open (indexes ++ [index]) ∧
      (callback.executeQuery (index, .written)).notified = [] := by
  rw [MultipleRequestCallback.executeQuery, if_neg (by simp [isOpen.noFailure])]
  refine ⟨⟨isOpen.noFailure, ?_, ?_, .inl quiet⟩, quiet⟩
  · simp [addQuery, isOpen.indexes]
  · show callback.remaining + 1 = (unanswered (callback.queries ++ [(index, .inFlight)]) : Int)
    rw [unanswered_append, Int.natCast_add, isOpen.remaining]
    rfl

theorem Open.hasFailed_executeQuery (isOpen : callback.Open indexes)
    (quiet : callback.notified = []) (index : String) :
    (callback.executeQuery (index, .encodeError)).HasFailed := by
  rw [MultipleRequestCallback.executeQuery, if_neg (by simp [isOpen.noFailure])]
  exact hasFailed_onInternalFailure isOpen.noFailure quiet (by simp)

theorem HasFailed.executeQuery (failed : callback.HasFailed) (query : String × Written) :
    (callback.executeQuery query).HasFailed := by
  rw [MultipleRequestCallback.executeQuery, if_pos failed.failed]
  exact failed

theorem HasFailed.foldl_executeQuery (failed : callback.HasFailed)
    (queries : List (String × Written)) :
    (queries.foldl MultipleRequestCallback.executeQuery callback).HasFailed := by
  induction queries generalizing callback with
  | nil => exact failed
  | cons query queries ih => exact ih (failed.executeQuery query)

theorem HasFailed.finish (failed : callback.HasFailed) (event : Nat × Outcome Response) :
    (callback.finish event).HasFailed := by
  rw [MultipleRequestCallback.finish]
  split
  next index found =>
    have ended (state : QueryState) : (callback.setQuery event.1 index state).HasFailed :=
      ⟨failed.failed, failed.notified⟩
    cases event.2 with
    | response body =>
      dsimp only
      rw [onInternalSet, if_neg (by simp [setQuery, failed.failed])]
      exact ⟨failed.failed, failed.notified⟩
    | error code message => exact (ended .failed).onInternalFailure _
    | timeout => exact (ended .failed).onInternalFailure _
  · exact failed

theorem Open.finish (isOpen : callback.Open indexes) (event : Nat × Outcome Response) :
    (callback.finish event).Open indexes ∨ (callback.finish event).HasFailed := by
  rw [MultipleRequestCallback.finish]
  split
  next index found =>
    obtain ⟨inside, here⟩ := List.getElem?_eq_some_iff.mp found
    have quiet : callback.notified = [] := by
      refine isOpen.notified.resolve_right fun ⟨_, answered⟩ => ?_
      exact absurd (answered _ (mem_of_getElem? found)) (by simp)
    cases event.2 with
    | response body =>
      have counted := unanswered_set found
      have remaining := isOpen.remaining
      have same := (map_fst_set found .answered).trans isOpen.indexes
      left
      dsimp only
      rw [onInternalSet]
      split
      next last =>
        have none' : unanswered (callback.queries.set event.1 (index, .answered)) = 0 := by
          have zero : callback.remaining - 1 = 0 := last.1
          omega
        refine ⟨isOpen.noFailure, same, ?_, .inr ⟨⟨callback.responses.insert index body, ?_⟩,
          unanswered_eq_zero.mp none'⟩⟩
        · exact last.1.trans (by rw [notify, setQuery, none']; rfl)
        · exact (congrArg (· ++ _) quiet).trans (nil_append _)
      next more =>
        refine ⟨isOpen.noFailure, same, ?_, .inl quiet⟩
        show callback.remaining - 1 = _
        dsimp only [setQuery]
        omega
    | error code message =>
      exact .inr (hasFailed_onInternalFailure isOpen.noFailure quiet (by simp))
    | timeout => exact .inr (hasFailed_onInternalFailure isOpen.noFailure quiet (by simp))
  · exact .inl isOpen

/-- Queries that find a stream leave the callback open, or it has failed. -/
theorem foldl_executeQuery_keeps (streams : ∀ query ∈ executed queries, query.2 ≠ .noStreams)
    (isOpen : callback.Open indexes) (quiet : callback.notified = []) :
    (queries.foldl executeQuery callback).Open (indexes ++ queries.map Prod.fst) ∨
      (queries.foldl executeQuery callback).HasFailed := by
  induction queries generalizing callback indexes with
  | nil => exact .inl (by simpa using isOpen)
  | cons query queries ih =>
    obtain ⟨index, write⟩ := query
    cases write with
    | written =>
      obtain ⟨opened, silent⟩ := isOpen.executeQuery quiet index
      have later := ih (fun query member => streams query (.tail _ member)) opened silent
      simpa using later
    | noStreams => exact absurd rfl (streams _ (.head _))
    | encodeError =>
      exact .inr ((isOpen.hasFailed_executeQuery quiet index).foldl_executeQuery queries)

theorem new_open : (new : MultipleRequestCallback Response).Open [] :=
  ⟨rfl, rfl, rfl, .inl rfl⟩

/-- A callback whose queries find streams is told once. -/
theorem notifiesOnce_of_streams (streams : ∀ query ∈ executed queries, query.2 ≠ .noStreams)
    (events : List (Nat × Outcome Response)) : NotifiesOnce queries (run queries events) := by
  have start := foldl_executeQuery_keeps streams (@new_open Response) rfl
  rw [nil_append] at start
  have reached : (run queries events).Open (queries.map Prod.fst) ∨
      (run queries events).HasFailed := by
    unfold run
    generalize queries.foldl executeQuery new = callback at start ⊢
    induction events generalizing callback with
    | nil => exact start
    | cons event events ih =>
      refine ih _ ?_
      rcases start with isOpen | failed
      · exact isOpen.finish event
      · exact .inr (failed.finish event)
  rcases reached with isOpen | failed
  · rcases isOpen.notified with quiet | ⟨⟨responses, told⟩, answered⟩
    · exact ⟨by simp [quiet], by simp [quiet]⟩
    · exact ⟨by simp [told], fun _ _ => ⟨isOpen.indexes, answered⟩⟩
  · obtain ⟨notified, told, isFailure⟩ := failed.notified
    refine ⟨by simp [told], fun responses member => ?_⟩
    rw [told, mem_singleton] at member
    exact absurd member.symm (isFailure responses)

/-! ## A write without a stream -/

theorem executeQuery_spec (isOpen : callback.hasErrorsOrTimeouts = false) (index : String)
    (write : Written) :
    (callback.executeQuery (index, write)).queries = callback.queries ++ [(index, write.state)] ∧
      (callback.executeQuery (index, write)).notified.length =
        callback.notified.length + (if write = .written then 0 else 1) ∧
      (callback.executeQuery (index, write)).hasErrorsOrTimeouts = (write = .encodeError : Bool) := by
  cases write <;>
    simp [executeQuery, isOpen, addQuery, notify, onInternalFailure, Written.state]

theorem foldl_executeQuery_of_failed (failed : callback.hasErrorsOrTimeouts = true)
    (queries : List (String × Written)) : queries.foldl executeQuery callback = callback := by
  induction queries with
  | nil => rfl
  | cons query queries ih => rwa [foldl_cons, executeQuery, if_pos failed]

/-- What executing the queries leaves behind. -/
theorem foldl_executeQuery_spec (isOpen : callback.hasErrorsOrTimeouts = false)
    (queries : List (String × Written)) :
    (queries.foldl executeQuery callback).queries = callback.queries ++
        (executed queries).map (fun query => (query.1, query.2.state)) ∧
      (queries.foldl executeQuery callback).notified.length = callback.notified.length +
        ((executed queries).filter fun query => query.2 ≠ .written).length ∧
      ((queries.foldl executeQuery callback).hasErrorsOrTimeouts = true →
        ∃ query ∈ executed queries, query.2 = .encodeError) := by
  induction queries generalizing callback with
  | nil => simp [executed, isOpen]
  | cons query queries ih =>
    obtain ⟨index, write⟩ := query
    obtain ⟨queried, told, flag⟩ := executeQuery_spec isOpen index write
    rw [foldl_cons, executed]
    by_cases isError : write = .encodeError
    · subst isError
      rw [foldl_executeQuery_of_failed flag, queried, told]
      simp
    · obtain ⟨laterQueried, laterTold, laterFailed⟩ :=
        ih (flag.trans (decide_eq_false isError))
      rw [laterQueried, laterTold, queried, told, if_neg isError]
      refine ⟨by simp, ?_, fun failed => ?_⟩
      · by_cases isWritten : write = .written <;> simp [isWritten]; omega
      · obtain ⟨query, member, isError⟩ := laterFailed failed
        exact ⟨query, .tail _ member, isError⟩

theorem one_lt_length_executed (several : 1 < queries.length)
    {query : String × Written} (member : query ∈ executed queries)
    (noStream : query.2 = .noStreams) : 1 < (executed queries).length := by
  cases queries with
  | nil => cases several
  | cons first queries =>
    rw [executed] at member ⊢
    split at member
    next isError =>
      rw [mem_singleton.mp member, isError] at noStream
      cases noStream
    next notError =>
      cases queries with
      | nil => simp at several
      | cons second queries =>
        rw [if_neg notError, executed]
        simp

/-- Two notifications: a query has no stream, and another one fails. -/
theorem exists_two_notified (Response : Type*)
    (several : 1 < queries.length) {query : String × Written} (member : query ∈ executed queries)
    (noStream : query.2 = .noStreams) :
    ∃ events : List (Nat × Outcome Response), 1 < (run queries events).notified.length := by
  obtain ⟨queried, told, failed⟩ := foldl_executeQuery_spec (@new_open Response).noFailure queries
  replace queried := queried.trans (nil_append _)
  replace told := told.trans (Nat.zero_add _)
  by_cases twice : 1 < ((executed queries).filter fun query => query.2 ≠ .written).length
  · exact ⟨[], by rwa [run, foldl_nil, told]⟩
  · have fails : query ∈ (executed queries).filter fun query => query.2 ≠ .written :=
      mem_filter.mpr ⟨member, by simp [noStream]⟩
    have single : ((executed queries).filter fun query => query.2 ≠ .written).length = 1 :=
      Nat.le_antisymm (Nat.not_lt.mp twice) (length_pos_of_mem fails)
    -- the other queries are in flight, and the callback does not know of the failure
    have isOpen : (queries.foldl executeQuery (new : MultipleRequestCallback Response)
        ).hasErrorsOrTimeouts = false := by
      refine Bool.eq_false_iff.mpr fun isFailed => ?_
      obtain ⟨other, isExecuted, isError⟩ := failed isFailed
      obtain ⟨only, isOnly⟩ := length_eq_one_iff.mp single
      have otherFails : other ∈ (executed queries).filter fun query => query.2 ≠ .written :=
        mem_filter.mpr ⟨isExecuted, by simp [isError]⟩
      rw [isOnly, mem_singleton] at fails otherFails
      rw [otherFails, ← fails, noStream] at isError
      cases isError
    obtain ⟨other, isExecuted, isWritten⟩ : ∃ other ∈ executed queries, other.2 = .written := by
      by_contra none
      have all : (executed queries).filter (fun query => query.2 ≠ .written) = executed queries :=
        filter_eq_self.mpr fun other isExecuted =>
          decide_eq_true fun isWritten => none ⟨other, isExecuted, isWritten⟩
      have length := one_lt_length_executed several member noStream
      rw [all] at single
      omega
    obtain ⟨position, there⟩ := getElem?_of_mem isExecuted
    refine ⟨[(position, .timeout)], ?_⟩
    have inFlight : (queries.foldl executeQuery (new : MultipleRequestCallback Response)
        ).queries[position]? = some (other.1, .inFlight) := by
      rw [queried, getElem?_map, there, Option.map_some, Written.state, if_pos isWritten]
    rw [single] at told
    rw [run, foldl_cons, foldl_nil, finish, inFlight]
    simp [onInternalFailure, setQuery, notify, isOpen, told]

/-- The callback is told at most once, and of all responses, however its queries end, exactly if
there is one query, or all of those executed find a stream. -/
theorem notifiesOnce_iff (queries : List (String × Written)) :
    (∀ events : List (Nat × Outcome Response), NotifiesOnce queries (run queries events)) ↔
      queries.length ≤ 1 ∨ ∀ query ∈ executed queries, query.2 ≠ .noStreams := by
  constructor
  · intro once
    by_contra neither
    obtain ⟨several, hasNone⟩ := not_or.mp neither
    push Not at several hasNone
    obtain ⟨query, member, noStream⟩ := hasNone
    obtain ⟨events, twice⟩ := exists_two_notified Response several member noStream
    exact absurd (once events).atMostOne (Nat.not_le.mpr twice)
  · rintro (few | streams) events
    · by_cases streams : ∀ query ∈ executed queries, query.2 ≠ .noStreams
      · exact notifiesOnce_of_streams streams events
      · -- the only query was not written, so that nothing comes afterwards
        push Not at streams
        obtain ⟨⟨index, write⟩, member, rfl⟩ := streams
        obtain rfl : queries = [(index, .noStreams)] := by
          cases queries with
          | nil => cases member
          | cons query queries =>
            obtain rfl := length_eq_zero_iff.mp (Nat.le_zero.mp (Nat.le_of_succ_le_succ few))
            rw [executed, executed, ite_self, mem_singleton] at member
            rw [member]
        have idle : run [(index, .noStreams)] events =
            (new : MultipleRequestCallback Response).executeQuery (index, .noStreams) := by
          rw [run, foldl_cons, foldl_nil]
          induction events with
          | nil => rfl
          | cons event events ih =>
            obtain ⟨_ | position, outcome⟩ := event <;> exact ih
        rw [idle]
        exact ⟨le_rfl, by simp [executeQuery, new, notify, addQuery]⟩
    · exact notifiesOnce_of_streams streams events

/-- Both queries of `query_meta_hosts` find no stream, and the callback is told twice. -/
theorem noStreams_notified_twice :
    (run [("local", .noStreams), ("peers", .noStreams)] [] :
      MultipleRequestCallback Unit).notified.length = 2 := by
  decide

end MultipleRequestCallback

end DseDriver.Request
