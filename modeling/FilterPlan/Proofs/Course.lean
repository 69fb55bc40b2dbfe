import FilterPlan.Proofs.Trials
import Mathlib.Algebra.Ring.Nat
import Mathlib.Algebra.BigOperators.Group.List.Basic

set_option autoImplicit false

namespace FilterPlan

def Metric.rows? : Metric → Option Nat
  | .leafResolved rows => some rows
  | _ => none

namespace Trial

variable {σ : Type} (evaluation : Evaluation σ) (trial : Trial σ)

def rows? : Option Nat :=
  match (trial.ended evaluation).result with
  | .ok rows => some rows.size
  | .error _ => none

def Answers : Prop := ∃ rows, (trial.ended evaluation).result = .ok rows

def marks : List Metric := List.replicate trial.last .resolverRetry ++ [trial.closingMetric evaluation]

theorem marks_retries : (trial.marks evaluation).count .resolverRetry = trial.last := by
  rw [marks, closingMetric]
  cases (trial.ended evaluation).result <;> simp [List.count_append]

theorem marks_rows : (trial.marks evaluation).filterMap Metric.rows? = (trial.rows? evaluation).toList := by
  rw [marks, closingMetric, rows?]
  cases (trial.ended evaluation).result <;> simp [Metric.rows?]

theorem marks_skips : (trial.marks evaluation).count .leafSkipped = 0 := by
  rw [marks, closingMetric]
  cases (trial.ended evaluation).result <;> simp [List.count_append, List.count_replicate]

theorem marks_failures : (trial.marks evaluation).count .resolverFailure =
    match (trial.ended evaluation).result with
    | .ok _ => 0
    | .error _ => 1 := by
  rw [marks, closingMetric]
  cases (trial.ended evaluation).result <;> simp [List.count_append, List.count_replicate]

end Trial

namespace Evaluation

variable {σ : Type}

inductive Ending (evaluation : Evaluation σ) : List (Trial σ) → Except EvaluateError Store → Prop where
  | stored (trials : List (Trial σ)) (results : List Stored) (store : Store)
      (all : trials.map Trial.placed = evaluation.known) (recorded : store.Records results)
      (answers : trials.map (fun trial => (trial.placed.path, (trial.ended evaluation).result)) =
        results.map fun stored => (stored.1, .ok stored.2)) : Ending evaluation trials (.ok store)
  | failed (before : List (Trial σ)) (trial : Trial σ) (source : ResolverError)
      (earlier : ∀ other ∈ before, other.Answers evaluation) (ended : (trial.ended evaluation).result = .error source) :
      Ending evaluation (before ++ [trial])
        (.error (.resolver trial.placed.leaf.filter trial.placed.path (trial.last + 1) source))

/-- The course of an evaluation that is under no deadline: what calls it makes, in which worlds, what it tells at its
own level, and how it ends. -/
structure Course (evaluation : Evaluation σ) (world : World σ) (trials : List (Trial σ))
    (outcome : Outcome σ EvaluateError Store) : Prop where
  begun : trials.map Trial.placed <+: evaluation.known
  registered : ∀ trial ∈ trials, trial.Registered evaluation
  settled : ∀ trial ∈ trials, trial.Settled evaluation
  chained : Trial.Chained evaluation world trials
  handed : ∀ trial ∈ trials, ∀ attempt ≤ trial.last, ∃ context, evaluation.Handed trial.placed attempt context ∧
    trial.reply evaluation attempt = (trial.resolver trial.placed.leaf.instruction context).perform
      evaluation.engine.serve (evaluation.worldBefore trial.placed trial.resolver trial.before attempt)
  ending : evaluation.Ending trials outcome.result
  -- A failure inside a nested run ends the calls of the leaf, whatever lies inside the failure.
  nested : ∀ trial ∈ trials, ∀ attempt ≤ trial.last, ∀ error,
    (trial.reply evaluation attempt).result = .error (.nested error) → attempt = trial.last
  told : outcome.journal.own evaluation.engine.level = evaluation.telling trials outcome.result
  calls : (outcome.journal.own evaluation.engine.level).filterMap Event.call? = trials.flatMap Trial.calls
  retries : (outcome.journal.ownMetrics evaluation.engine.level).count .resolverRetry = (trials.map Trial.last).sum
  resolved : (outcome.journal.ownMetrics evaluation.engine.level).filterMap Metric.rows? =
    trials.filterMap (Trial.rows? evaluation)
  skipped : (outcome.journal.ownMetrics evaluation.engine.level).count .leafSkipped = evaluation.missing.length
  failures : (outcome.journal.ownMetrics evaluation.engine.level).count .resolverFailure =
    if outcome.result.isOk then 0 else 1

theorem tried_ending (evaluation : Evaluation σ) (world : World σ) (trials : List (Trial σ))
    (tried : Except EvaluateError (List Stored)) (isTried : evaluation.Tried evaluation.known world trials tried)
    (result : Except EvaluateError Store) (kept : Kept tried result) : evaluation.Ending trials result := by
  cases kept with
  | stored results store recorded =>
      obtain ⟨all, answers⟩ := evaluation.tried_answered _ _ _ _ isTried results rfl
      exact .stored trials results store all recorded answers
  | failed error =>
      obtain ⟨before, trial, source, rfl, earlier, ended, rfl⟩ := evaluation.tried_failed _ _ _ _ isTried error rfl
      exact .failed before trial source earlier ended

theorem opened_metrics (evaluation : Evaluation σ) : evaluation.opened.filterMap Event.metric? =
    [.planEvaluated evaluation.places.length evaluation.plan.isUnfiltered] := by
  rw [opened, places, Plan.places, Plan.isUnfiltered]
  cases evaluation.plan.root <;> rfl

theorem opened_calls (evaluation : Evaluation σ) : evaluation.opened.filterMap Event.call? = [] := by
  rw [opened]
  cases evaluation.plan.root <;> rfl

theorem faulted_metrics (evaluation : Evaluation σ) (result : Except EvaluateError Store) :
    (evaluation.faulted result).filterMap Event.metric? = [] := by
  cases result <;> rfl

theorem faulted_calls (evaluation : Evaluation σ) (result : Except EvaluateError Store) :
    (evaluation.faulted result).filterMap Event.call? = [] := by
  cases result <;> rfl

section Told

variable (evaluation : Evaluation σ) (trials : List (Trial σ)) (result : Except EvaluateError Store)

theorem telling_metrics : (evaluation.telling trials result).filterMap Event.metric? =
    .planEvaluated evaluation.places.length evaluation.plan.isUnfiltered ::
      (List.replicate evaluation.missing.length .leafSkipped ++ trials.flatMap (Trial.marks evaluation)) := by
  have skips : (fun placed => (evaluation.skipMarks placed).filterMap Event.metric?) = fun _ => [.leafSkipped] := rfl
  have tells : (fun trial => (Trial.told evaluation trial).filterMap Event.metric?) = Trial.marks evaluation :=
    funext fun trial => trial.told_metrics evaluation
  rw [telling, List.filterMap_append, evaluation.opened_metrics, List.filterMap_append, List.filterMap_append,
    List.filterMap_flatMap, List.filterMap_flatMap, skips, tells, evaluation.faulted_metrics,
    ← List.map_eq_flatMap, List.map_const', List.append_nil]
  rfl

theorem telling_calls : (evaluation.telling trials result).filterMap Event.call? = trials.flatMap Trial.calls := by
  have skips : (fun placed => (evaluation.skipMarks placed).filterMap Event.call?) = fun _ => [] := rfl
  have tells : (fun trial => (Trial.told evaluation trial).filterMap Event.call?) = Trial.calls :=
    funext fun trial => trial.told_calls evaluation
  rw [telling, List.filterMap_append, evaluation.opened_calls, List.filterMap_append, List.filterMap_append,
    List.filterMap_flatMap, List.filterMap_flatMap, skips, tells, evaluation.faulted_calls]
  simp

theorem telling_count (metric : Metric) (other : ∀ leaves unfiltered, metric ≠ .planEvaluated leaves unfiltered) :
    ((evaluation.telling trials result).filterMap Event.metric?).count metric =
      (List.replicate evaluation.missing.length Metric.leafSkipped).count metric +
        (trials.map fun trial => (trial.marks evaluation).count metric).sum := by
  rw [evaluation.telling_metrics, List.count_cons_of_ne (other _ _).symm, List.count_append, List.count_flatMap]
  rfl

theorem telling_retries :
    ((evaluation.telling trials result).filterMap Event.metric?).count .resolverRetry = (trials.map Trial.last).sum := by
  have marks : (fun trial => (Trial.marks evaluation trial).count .resolverRetry) = Trial.last :=
    funext fun trial => trial.marks_retries evaluation
  rw [evaluation.telling_count trials result _ (by simp), marks]
  simp [List.count_replicate]

theorem telling_resolved : ((evaluation.telling trials result).filterMap Event.metric?).filterMap Metric.rows? =
    trials.filterMap (Trial.rows? evaluation) := by
  have marks : (fun trial => (Trial.marks evaluation trial).filterMap Metric.rows?) =
      fun trial => (Trial.rows? evaluation trial).toList :=
    funext fun trial => trial.marks_rows evaluation
  have none : (List.replicate evaluation.missing.length Metric.leafSkipped).filterMap Metric.rows? = [] := by
    simp [Metric.rows?]
  rw [evaluation.telling_metrics, List.filterMap_cons_none rfl, List.filterMap_append, none, List.filterMap_flatMap,
    marks, List.filterMap_eq_flatMap_toList]
  rfl

theorem telling_skipped :
    ((evaluation.telling trials result).filterMap Event.metric?).count .leafSkipped = evaluation.missing.length := by
  have marks : (fun trial => (Trial.marks evaluation trial).count .leafSkipped) = fun _ => 0 :=
    funext fun trial => trial.marks_skips evaluation
  rw [evaluation.telling_count trials result _ (by simp), marks]
  simp

theorem telling_failures (ending : evaluation.Ending trials result) :
    ((evaluation.telling trials result).filterMap Event.metric?).count .resolverFailure =
      if result.isOk then 0 else 1 := by
  have answered (some : List (Trial σ)) (all : ∀ trial ∈ some, trial.Answers evaluation) :
      (some.map fun trial => (trial.marks evaluation).count .resolverFailure).sum = 0 := by
    apply List.sum_eq_zero
    intro count inside
    obtain ⟨trial, among, rfl⟩ := List.mem_map.mp inside
    obtain ⟨rows, ended⟩ := all trial among
    rw [trial.marks_failures, ended]
  rw [evaluation.telling_count trials result _ (by simp)]
  cases ending with
  | stored trials results store all recorded answers =>
      have all (trial : Trial σ) (among : trial ∈ trials) : trial.Answers evaluation := by
        have listed := List.mem_map_of_mem (f := fun trial => (trial.placed.path, (trial.ended evaluation).result)) among
        rw [answers] at listed
        obtain ⟨stored, _, same⟩ := List.mem_map.mp listed
        exact ⟨stored.2, (Prod.mk.inj same).2.symm⟩
      rw [answered trials all]
      simp [List.count_replicate, Except.isOk, Except.toBool]
  | failed before trial source earlier ended =>
      rw [List.map_append, List.sum_append, answered before earlier, List.map_singleton, trial.marks_failures, ended]
      simp [List.count_replicate, Except.isOk, Except.toBool]

end Told

theorem course_told (evaluation : Evaluation σ) (world : World σ) (trials : List (Trial σ))
    (tried : Except EvaluateError (List Stored)) (isTried : evaluation.Tried evaluation.known world trials tried)
    (outcome : Outcome σ EvaluateError Store) (kept : Kept tried outcome.result)
    (told : outcome.journal.own evaluation.engine.level = evaluation.telling trials outcome.result) :
    evaluation.Course world trials outcome := by
  have each := evaluation.tried_each _ _ _ _ isTried
  have ending := evaluation.tried_ending world trials tried isTried outcome.result kept
  constructor
  case begun => exact evaluation.tried_begins _ _ _ _ isTried
  case registered => exact fun trial among => (each trial among).1
  case settled => exact fun trial among => (each trial among).2
  case chained => exact evaluation.tried_chained _ _ _ _ isTried
  case handed =>
    exact fun trial _ attempt _ => ⟨evaluation.context trial.placed.path attempt,
      evaluation.context_handed trial.placed attempt,
      evaluation.reply_before trial.placed trial.resolver trial.before attempt⟩
  case ending => exact ending
  case nested => exact fun trial among => trial.nested_last evaluation (each trial among).2
  case told => exact told
  case calls => rw [told, evaluation.telling_calls]
  case retries => rw [Journal.ownMetrics, told, evaluation.telling_retries]
  case resolved => rw [Journal.ownMetrics, told, evaluation.telling_resolved]
  case skipped => rw [Journal.ownMetrics, told, evaluation.telling_skipped]
  case failures => rw [Journal.ownMetrics, told, evaluation.telling_failures trials _ ending]

-- Without a deadline, resolvers are called for the known leaves in document order, each until it does not fail for a
-- passing reason or no retry is left, and for no leaf after one that fails. Where an unknown filter is an error,
-- nothing is called for a plan that has one.
theorem leaves_tried_in_order (evaluation : Evaluation σ) (used : evaluation.engine.Used)
    (unlimited : evaluation.engine.deadline.limitMs = none) (world : World σ) :
    evaluation.places.map PlacedLeaf.leaf = evaluation.plan.leaves ∧
      (evaluation.engine.config.missingFilter = .skip ∨ evaluation.Knows evaluation.places →
        ∃ trials, evaluation.Course world trials (evaluation.evaluate world)) ∧
      (evaluation.engine.config.missingFilter = .reject →
        ∀ placed, evaluation.places.find? evaluation.unknown = some placed →
          (evaluation.evaluate world).result = .error (.registry (.unknownFilter placed.leaf.filter)) ∧
            (evaluation.evaluate world).world = world ∧
            ∀ entry ∈ (evaluation.evaluate world).journal, entry.event.call? = none) := by
  refine ⟨evaluation.plan.places_leaves, ?_, ?_⟩
  · intro admitted
    obtain ⟨trials, ⟨tried, isTried, kept⟩, told⟩ := evaluation.evaluate_unlimited unlimited used admitted world
    exact ⟨trials, evaluation.course_told world trials tried isTried _ kept told⟩
  · intro rejects placed found
    cases planned : evaluation.plan.root with
    | none => simp [places, Plan.places, planned] at found
    | some root =>
        rw [places, evaluation.plan.places_root root planned] at found
        rw [evaluation.evaluate_root root planned, evaluation.rejecting_outcome rejects root [] placed found]
        exact ⟨rfl, rfl, by simp [opening, Event.call?]⟩

end Evaluation

def busyResolver : Resolver Nat := fun instruction context =>
  .look fun calls => .change (calls + 1)
    (.done (if calls % 2 = 0 then .error (.transient "busy")
      else .ok (named (instruction ++ " at " ++ context.path.text ++ " #" ++ toString context.attempt))))

def busyRows (placed : PlacedLeaf) (attempt : Nat) : IdentitySet :=
  named (placed.leaf.instruction ++ " at " ++ placed.path.text ++ " #" ++ toString attempt)

def busyEvaluation : Evaluation Nat :=
  .ofPlan ⟨{ Config.default with resolverRetries := 2 }, .unbounded, 0, none⟩ (.only "f" busyResolver)
    (.ofNode Evaluation.mixedNode)

theorem busy_registered (trial : Trial Nat) (registered : trial.Registered busyEvaluation) :
    trial.resolver = busyResolver := by
  obtain ⟨filter, found, isResolver⟩ := registered
  change (Registry.only "f" busyResolver).find _ = _ at found
  rw [Registry.only_find] at found
  by_cases same : "f" = trial.placed.leaf.filter
  · rw [if_pos same] at found
    rw [isResolver, ← Except.ok.inj found]
  · simp [same] at found

theorem busy_ask (placed : PlacedLeaf) (attempt : Nat) (world : World Nat) :
    (busyEvaluation.ask placed busyResolver attempt world).result =
        (if world.state % 2 = 0 then .error (.transient "busy") else .ok (busyRows placed attempt)) ∧
      (busyEvaluation.ask placed busyResolver attempt world).world.state = world.state + 1 := ⟨rfl, rfl⟩

theorem busy_trial (trial : Trial Nat) (registered : trial.Registered busyEvaluation)
    (settled : trial.Settled busyEvaluation) (even : trial.before.state % 2 = 0) :
    trial.last = 1 ∧ (trial.ended busyEvaluation).result = .ok (busyRows trial.placed 1) ∧
      (trial.ended busyEvaluation).world.state % 2 = 0 := by
  have busy := busy_registered trial registered
  have first : (trial.reply busyEvaluation 0).result = .error (.transient "busy") ∧
      (trial.reply busyEvaluation 0).world.state = trial.before.state + 1 := by
    rw [Trial.reply, busy, Evaluation.reply, (busy_ask _ _ _).1, (busy_ask _ _ _).2, if_pos even]
    exact ⟨rfl, rfl⟩
  have second : (trial.reply busyEvaluation 1).result = .ok (busyRows trial.placed 1) ∧
      (trial.reply busyEvaluation 1).world.state = trial.before.state + 2 := by
    have isSecond : trial.reply busyEvaluation 1 =
        busyEvaluation.ask trial.placed trial.resolver 1 (trial.reply busyEvaluation 0).world := rfl
    rw [isSecond, busy, (busy_ask _ _ _).1, (busy_ask _ _ _).2, first.2, if_neg (by omega)]
    exact ⟨rfl, rfl⟩
  have isLast : trial.last = 1 := by
    by_contra other
    by_cases none : trial.last = 0
    · rcases settled.final with exhausted | final
      · rw [none] at exhausted
        cases exhausted
      · rw [none] at final
        exact final ⟨"busy", first.1⟩
    · obtain ⟨message, passing⟩ := settled.passing 1 (by omega)
      rw [second.1] at passing
      cases passing
  rw [Trial.ended, isLast, second.2]
  exact ⟨rfl, second.1, by omega⟩

theorem busy_trials (trials : List (Trial Nat))
    (registered : ∀ trial ∈ trials, trial.Registered busyEvaluation)
    (settled : ∀ trial ∈ trials, trial.Settled busyEvaluation) (world : World Nat)
    (chained : Trial.Chained busyEvaluation world trials) (even : world.state % 2 = 0) :
    ∀ trial ∈ trials, trial.last = 1 ∧
      (trial.ended busyEvaluation).result = .ok (busyRows trial.placed 1) := by
  induction trials generalizing world with
  | nil => simp
  | cons trial rest ih =>
      obtain ⟨isBefore, later⟩ := chained
      obtain ⟨isRegistered, registeredRest⟩ := List.forall_mem_cons.mp registered
      obtain ⟨isSettled, settledRest⟩ := List.forall_mem_cons.mp settled
      obtain ⟨isLast, ended, evenAfter⟩ := busy_trial trial isRegistered isSettled (by rwa [isBefore])
      exact List.forall_mem_cons.mpr ⟨⟨isLast, ended⟩, ih registeredRest settledRest _ later evenAfter⟩

theorem busy_ends (trials : List (Trial Nat)) (twice : ∀ trial ∈ trials, trial.last = 1 ∧
      (trial.ended busyEvaluation).result = .ok (busyRows trial.placed 1))
    (result : Except EvaluateError Store) (ending : busyEvaluation.Ending trials result) :
    trials.map Trial.placed = busyEvaluation.known ∧ ∃ store, result = .ok store ∧
      store.Records (busyEvaluation.known.map fun placed => (placed.path, busyRows placed 1)) := by
  cases ending with
  | failed before trial source earlier ended =>
      have answered := (twice trial (by simp)).2
      rw [ended] at answered
      cases answered
  | stored trials results store all recorded answers =>
      have same : results = busyEvaluation.known.map fun placed => (placed.path, busyRows placed 1) := by
        have tagged : Function.Injective fun stored : Stored =>
            (stored.1, (.ok stored.2 : Except ResolverError IdentitySet)) := fun first second equal => by
          simpa [Prod.ext_iff] using equal
        apply List.map_injective_iff.mpr tagged
        rw [← answers, ← all, List.map_map, List.map_map]
        exact List.map_congr_left fun trial among => Prod.ext rfl (twice trial among).2
      exact ⟨all, store, rfl, same ▸ recorded⟩

theorem busy_known : busyEvaluation.known =
    [⟨[⟨.op .and, 0⟩, ⟨.filter "f", 0⟩], ⟨"f", "x"⟩⟩,
      ⟨[⟨.op .and, 0⟩, ⟨.op .not, 0⟩, ⟨.operand .a, 0⟩, ⟨.filter "f", 0⟩], ⟨"f", "y"⟩⟩,
      ⟨[⟨.op .and, 0⟩, ⟨.filter "f", 1⟩], ⟨"f", "w"⟩⟩] := by
  have knows : busyEvaluation.knows = fun placed => decide ("f" = placed.leaf.filter) :=
    funext fun placed => Registry.only_contains "f" busyResolver placed.leaf.filter
  rw [Evaluation.known, knows]
  rfl

theorem leaves_tried_in_order_busy :
    let outcome := busyEvaluation.evaluate ⟨0, 0⟩
    busyEvaluation.engine.Used ∧ busyEvaluation.engine.deadline.limitMs = none ∧
      busyEvaluation.engine.config.missingFilter = .skip ∧
      (∃ trials, busyEvaluation.Course ⟨0, 0⟩ trials outcome) ∧
      (outcome.journal.own 0).filterMap Event.call? = busyEvaluation.known.flatMap (fun placed =>
        [(placed.path, placed.leaf.filter, placed.leaf.instruction, 0),
          (placed.path, placed.leaf.filter, placed.leaf.instruction, 1)]) ∧
      (outcome.journal.ownMetrics 0).count .resolverRetry = 3 ∧
      ∃ store, outcome.result = .ok store ∧
        store.Records (busyEvaluation.known.map fun placed => (placed.path, busyRows placed 1)) := by
  intro outcome
  have used : busyEvaluation.engine.Used := .alone _ _
  obtain ⟨trials, course⟩ := (busyEvaluation.leaves_tried_in_order used rfl ⟨0, 0⟩).2.1 (Or.inl rfl)
  have twice := busy_trials trials course.registered course.settled _ course.chained rfl
  obtain ⟨all, store, isResult, recorded⟩ := busy_ends trials twice _ course.ending
  refine ⟨used, rfl, rfl, ⟨trials, course⟩, ?_, ?_, store, isResult, recorded⟩
  · apply course.calls.trans
    rw [← all, List.flatMap_map]
    apply List.flatMap_congr
    intro trial among
    rw [Trial.calls, (twice trial among).1]
    rfl
  · apply course.retries.trans
    have once : trials.map Trial.last = trials.map fun _ => 1 :=
      List.map_congr_left fun trial among => (twice trial among).1
    have three : trials.length = 3 := by
      rw [← List.length_map Trial.placed, all, busy_known]
      rfl
    rw [once, List.map_const', List.sum_replicate, three]
    rfl

end FilterPlan
