import DseDriver.LoadBalancing.Plans

/-!
# Latency-aware plans

`LatencyAwareQueryPlan` defers the hosts of the wrapped plan that are much slower than the fastest
one.  The smallest average and the time are read once for each call, the latency of a host when the
wrapped plan returns it, and both move on while the plan is used.
-/

namespace DseDriver.LoadBalancing

open DseDriver.Lib List

/-- `TimestampedAverage`. -/
structure TimestampedAverage where
  average : Int
  timestamp : UInt64
  numMeasured : UInt64

/-- The settings that a plan reads.  The product with `exclusion_threshold`, a `double`, is a
parameter. -/
structure LatencySettings where
  excluded : Int → Int
  retryPeriodNs : UInt64
  minMeasured : UInt64

/-- What a call of `compute_next` reads first: `min_average_` and the time. -/
structure LatencyReading where
  min : Int
  now : UInt64

/-- Whether `compute_next` defers a host with this latency. -/
def LatencySettings.isTooSlow (settings : LatencySettings) (reading : LatencyReading)
    (latency : TimestampedAverage) : Bool :=
  if reading.min < 0 ∨ latency.average < 0 ∨ latency.numMeasured < settings.minMeasured ∨
      reading.now - latency.timestamp > settings.retryPeriodNs then
    false
  else
    ¬ latency.average ≤ settings.excluded reading.min

/-- `LatencyAwareQueryPlan` around a plan of any kind. -/
structure LatencyAwareQueryPlan (σ : Type*) where
  childPlan : σ
  skipped : List HostPtr
  skippedIndex : Nat

variable {σ : Type*} (settings : LatencySettings)

/-- `LatencyAwareQueryPlan::compute_next`.  The wrapped plan is asked for a host, whose latency is
read at once, at most `limit` times. -/
def LatencyAwareQueryPlan.computeNext
    (childNext : σ → Option (Option (HostPtr × TimestampedAverage) × σ)) (limit : Nat)
    (reading : LatencyReading) (plan : LatencyAwareQueryPlan σ) :
    Option (Option HostPtr × LatencyAwareQueryPlan σ) := do
  let (host, others, childPlan) ← nextWanted childNext
    (fun (_, latency) => !settings.isTooSlow reading latency) limit [] plan.childPlan
  let skipped := plan.skipped ++ others.map Prod.fst
  match host with
  | some (host, _) => return (some host, { plan with childPlan, skipped })
  | none =>
    match skipped[plan.skippedIndex]? with
    | some host =>
      return (some host, { childPlan, skipped, skippedIndex := plan.skippedIndex + 1 })
    | none => return (none, { plan with childPlan, skipped })

/-! ## What the plan returns -/

/-- The hosts of the wrapped plan with whether each is too slow when it is met.  The calls are
numbered, and each ends at a host that is not too slow. -/
def judged (readings : Nat → LatencyReading) :
    Nat → List (HostPtr × TimestampedAverage) → List (HostPtr × Bool)
  | _, [] => []
  | call, (host, latency) :: met =>
    if settings.isTooSlow (readings call) latency then
      (host, true) :: judged readings call met
    else
      (host, false) :: judged readings (call + 1) met

/-- The hosts with this verdict, in the order of the wrapped plan. -/
def withVerdict (verdict : Bool) (hosts : List (HostPtr × Bool)) : List HostPtr :=
  (hosts.filter fun entry => entry.2 = verdict).map Prod.fst

variable {settings} {readings : Nat → LatencyReading}

/-- A call returns the first host that is not too slow, and defers those that it has passed over. -/
theorem withVerdict_judged (call : Nat) (met : List (HostPtr × TimestampedAverage))
    (verdict : Bool) :
    withVerdict verdict (judged settings readings call met) =
      (if verdict then
          (met.takeWhile fun entry => settings.isTooSlow (readings call) entry.2).map Prod.fst
        else
          ((met.dropWhile fun entry => settings.isTooSlow (readings call) entry.2).head?.map
            Prod.fst).toList) ++
        withVerdict verdict (judged settings readings (call + 1)
          (met.dropWhile fun entry => settings.isTooSlow (readings call) entry.2).tail) := by
  induction met with
  | nil => cases verdict <;> rfl
  | cons entry met ih =>
    rw [judged]
    split
    next slow => cases verdict <;> simpa [slow, withVerdict] using ih
    next fast => cases verdict <;> simp [fast, withVerdict]

theorem map_fst_judged (call : Nat) (met : List (HostPtr × TimestampedAverage)) :
    (judged settings readings call met).map Prod.fst = met.map Prod.fst := by
  induction met generalizing call with
  | nil => rfl
  | cons entry met ih =>
    rw [judged]
    split <;> simp [ih]

/-- The plan returns the hosts of the wrapped plan in another order: first those that are not too
slow when they are met, then the deferred ones. -/
theorem latencyAware_plan {childNext : σ → Option (Option (HostPtr × TimestampedAverage) × σ)}
    {limit : Nat} {childPlan : σ} {met : List (HostPtr × TimestampedAverage)}
    (child : Gives (fun _ => childNext) 0 childPlan met) (enough : met.length < limit)
    (settings : LatencySettings) (readings : Nat → LatencyReading) :
    ∃ returned,
      Gives (fun call => LatencyAwareQueryPlan.computeNext settings childNext limit (readings call))
        0 ⟨childPlan, [], 0⟩ returned ∧
      returned = withVerdict false (judged settings readings 0 met) ++
        withVerdict true (judged settings readings 0 met) ∧
      returned.Perm (met.map Prod.fst) := by
  refine ⟨_, ?_, rfl, ?_⟩
  · refine gives_of_step (fun call plan items => ∃ met,
      Gives (fun _ => childNext) 0 plan.childPlan met ∧ met.length < limit ∧
        plan.skippedIndex ≤ plan.skipped.length ∧
        items = withVerdict false (judged settings readings call met) ++
          (plan.skipped.drop plan.skippedIndex ++
            withVerdict true (judged settings readings call met))) ?_
      ⟨met, child, enough, le_rfl, rfl⟩
    rintro call ⟨childPlan, skipped, skippedIndex⟩ _ ⟨met, child, enough, inside, rfl⟩
    obtain ⟨after, found, rest⟩ := Gives.nextWanted child
      (fun entry => !settings.isTooSlow (readings call) entry.2) enough []
    simp only [Bool.not_not] at found rest
    have shorter := (length_tail_dropWhile_le
      (fun entry => settings.isTooSlow (readings call) entry.2) met).trans_lt enough
    rw [withVerdict_judged call met false, withVerdict_judged call met true, if_pos rfl,
      if_neg Bool.false_ne_true]
    generalize met.takeWhile (fun entry => settings.isTooSlow (readings call) entry.2) = deferred
      at found ⊢
    generalize met.dropWhile (fun entry => settings.isTooSlow (readings call) entry.2) = others
      at found rest shorter ⊢
    rw [nil_append] at found
    rcases others with _ | ⟨⟨host, latency⟩, behind⟩
    · -- the deferred hosts come one by one when the wrapped plan is at its end
      have upcoming : skipped.drop skippedIndex ++ deferred.map Prod.fst =
          (skipped ++ deferred.map Prod.fst).drop skippedIndex :=
        (drop_append_of_le_length inside).symm
      simp only [head?_nil, Option.map_none, Option.toList_none, tail_nil, judged,
        withVerdict, filter_nil, map_nil, nil_append, append_nil, upcoming]
      cases next : (skipped ++ deferred.map Prod.fst)[skippedIndex]? with
      | some host =>
        refine ⟨⟨after, skipped ++ deferred.map Prod.fst, skippedIndex + 1⟩, ?_, [], rest, shorter,
          (List.getElem?_eq_some_iff.mp next).1, ?_⟩
        · simp [LatencyAwareQueryPlan.computeNext, found, next]
        · simp [judged]
      | none =>
        refine ⟨⟨after, skipped ++ deferred.map Prod.fst, skippedIndex⟩, ?_, [], rest, shorter,
          inside.trans (by simp), ?_⟩
        · simp [LatencyAwareQueryPlan.computeNext, found, next]
        · rw [drop_eq_nil_of_le (List.getElem?_eq_none_iff.mp next)]
          rfl
    · refine ⟨⟨after, skipped ++ deferred.map Prod.fst, skippedIndex⟩, ?_, behind, rest, shorter,
        inside.trans (by simp), ?_⟩
      · rw [LatencyAwareQueryPlan.computeNext, found]
        rfl
      · simp [drop_append_of_le_length inside]
  · have split := filter_append_perm (fun entry : HostPtr × Bool => entry.2 = false)
      (judged settings readings 0 met)
    have verdicts := split.map Prod.fst
    rw [map_append, map_fst_judged] at verdicts
    simpa [withVerdict] using verdicts

/-- A slow host and a fast one behind it. -/
def slowAndFast : List (HostPtr × TimestampedAverage) :=
  [(⟨⟨"10.0.0.1", 9042⟩, 1⟩, ⟨10, 0, 50⟩), (⟨⟨"10.0.0.2", 9042⟩, 2⟩, ⟨1, 0, 50⟩)]

theorem latencyAware_plan_slowAndFast :
    ∃ returned,
      Gives (fun _ => LatencyAwareQueryPlan.computeNext ⟨(2 * ·), 1000, 50⟩
        (fun met => some (met.head?, met.tail)) 3 ⟨1, 0⟩) 0 ⟨slowAndFast, [], 0⟩ returned ∧
      returned = [⟨⟨"10.0.0.2", 9042⟩, 2⟩, ⟨⟨"10.0.0.1", 9042⟩, 1⟩] := by
  obtain ⟨returned, gives, shape, -⟩ := latencyAware_plan (gives_list 0 slowAndFast)
    (show slowAndFast.length < 3 by decide) ⟨(2 * ·), 1000, 50⟩ fun _ => ⟨1, 0⟩
  exact ⟨returned, gives, shape.trans (by decide)⟩

/-! ## The plan in a chain of policies -/

/-- The hosts of a plan with their latencies, as long as these stay as they are. -/
def measured (next : σ → Option (Option HostPtr × σ)) (latency : HostPtr → TimestampedAverage) :
    σ → Option (Option (HostPtr × TimestampedAverage) × σ) :=
  fun state => (next state).map fun (host, after) => (host.map fun host => (host, latency host), after)

theorem nextWanted_measured {next : σ → Option (Option HostPtr × σ)}
    {latency : HostPtr → TimestampedAverage} {wanted : HostPtr × TimestampedAverage → Bool}
    (skipped : List HostPtr) (limit : Nat) (met : List (HostPtr × TimestampedAverage)) (state : σ) :
    nextWanted next (fun host => wanted (host, latency host)) limit (skipped ++ met.map Prod.fst)
        state =
      (nextWanted (measured next latency) wanted limit met state).map
        fun (host, others, after) => (host.map Prod.fst, skipped ++ others.map Prod.fst, after) := by
  induction limit generalizing met state with
  | zero => rfl
  | succ limit ih =>
    rw [nextWanted, nextWanted, measured]
    rcases next state with _ | ⟨_ | host, after⟩
    · rfl
    · rfl
    · cases isWanted : wanted (host, latency host) with
      | true => simp [isWanted]
      | false => simpa [isWanted] using ih (met ++ [(host, latency host)]) after

/-- In a chain the hosts that count as slow are those that are too slow. -/
theorem Policy.computeNext_latencyAware (limit : Nat) (heap : Heap) (settings : LatencySettings)
    (reading : LatencyReading) (latency : HostPtr → TimestampedAverage) (hosts skipped : List HostPtr)
    (policy : Policy) (plan : QueryPlan) (skippedIndex : Nat) :
    (Policy.latencyAware hosts policy).computeNext limit heap
        (fun host => settings.isTooSlow reading (latency host))
        (.latencyAware plan skipped skippedIndex) =
      (LatencyAwareQueryPlan.computeNext settings
        (measured (policy.computeNext limit heap
          fun host => settings.isTooSlow reading (latency host)) latency) limit reading
        ⟨plan, skipped, skippedIndex⟩).map
        fun (host, after) => (host, .latencyAware after.childPlan after.skipped after.skippedIndex) := by
  have asked := @nextWanted_measured _ (policy.computeNext limit heap
    fun host => settings.isTooSlow reading (latency host)) latency
    (fun (_, latency) => !settings.isTooSlow reading latency) skipped limit [] plan
  rw [map_nil, append_nil] at asked
  rw [computeNext, LatencyAwareQueryPlan.computeNext, asked]
  rcases nextWanted (measured _ latency) _ limit [] plan with _ | ⟨_ | entry, others, after⟩
  · rfl
  · cases next : (skipped ++ others.map Prod.fst)[skippedIndex]? <;> simp [next]
  · rfl

end DseDriver.LoadBalancing
