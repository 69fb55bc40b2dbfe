import FilterPlan.Proofs.FilterCheck

set_option autoImplicit false

namespace FilterPlan

def Event.metric? : Event → Option Metric
  | .counted metric => some metric
  | _ => none

def Event.request? : Event → Option PlanRequest
  | .planRequested request => some request
  | _ => none

def Journal.ownMetrics (level : Nat) (journal : Journal) : List Metric := (journal.own level).filterMap Event.metric?

namespace Journal

theorem metrics_events (journal : Journal) : journal.metrics = (journal.map Entry.event).filterMap Event.metric? := by
  rw [List.filterMap_map]
  rfl

theorem requests_events (journal : Journal) :
    journal.requests = (journal.map Entry.event).filterMap Event.request? := by
  rw [List.filterMap_map]
  rfl

end Journal

theorem ResolverError.transient_iff (error : ResolverError) :
    error.isTransient = true ↔ ∃ message, error = .transient message := by
  cases error <;> simp [isTransient]

theorem Deadline.check_unlimited {σ : Type} (deadline : Deadline) (unlimited : deadline.limitMs = none) (world : World σ)
    (post : Except EvaluateError Unit → World σ → Journal → Prop) :
    deadline.check.Does world post ↔ post (.ok ()) world [] := by
  rw [Action.Does, check, Evaluation.timeout_unlimited _ unlimited]

namespace Evaluation

variable {σ : Type}

def ask (evaluation : Evaluation σ) (placed : PlacedLeaf) (resolver : Resolver σ) (attempt : Nat) :
    Action σ ResolverError IdentitySet :=
  (resolver placed.leaf.instruction (evaluation.context placed.path attempt)).perform evaluation.engine.serve

def reply (evaluation : Evaluation σ) (placed : PlacedLeaf) (resolver : Resolver σ) (before : World σ) :
    Nat → Outcome σ ResolverError IdentitySet
  | 0 => evaluation.ask placed resolver 0 before
  | attempt + 1 =>
      evaluation.ask placed resolver (attempt + 1) (evaluation.reply placed resolver before attempt).world

def worldBefore (evaluation : Evaluation σ) (placed : PlacedLeaf) (resolver : Resolver σ) (before : World σ) :
    Nat → World σ
  | 0 => before
  | attempt + 1 => (evaluation.reply placed resolver before attempt).world

structure Handed (evaluation : Evaluation σ) (placed : PlacedLeaf) (attempt : Nat) (context : ResolveContext) : Prop where
  path : context.path = placed.path
  plan : context.plan = evaluation.plan
  fingerprint : context.fingerprint = evaluation.plan.fingerprint
  attempt : context.attempt = attempt
  depth : context.depth = evaluation.engine.depth
  managed : context.managed = evaluation.engine.scope.isSome

theorem context_handed (evaluation : Evaluation σ) (placed : PlacedLeaf) (attempt : Nat) :
    evaluation.Handed placed attempt (evaluation.context placed.path attempt) := by
  constructor <;> simp

theorem reply_before (evaluation : Evaluation σ) (placed : PlacedLeaf) (resolver : Resolver σ) (before : World σ)
    (attempt : Nat) :
    evaluation.reply placed resolver before attempt =
      evaluation.ask placed resolver attempt (evaluation.worldBefore placed resolver before attempt) := by
  cases attempt <;> rfl

end Evaluation

/-- The calls of one leaf's resolver: the first is made in the world `before`, and no call comes after that with the
number `last`. -/
structure Trial (σ : Type) where
  placed : PlacedLeaf
  resolver : Resolver σ
  before : World σ
  last : Nat

namespace Trial

variable {σ : Type} (evaluation : Evaluation σ) (trial : Trial σ)

def reply (attempt : Nat) : Outcome σ ResolverError IdentitySet :=
  evaluation.reply trial.placed trial.resolver trial.before attempt

def ended : Outcome σ ResolverError IdentitySet := trial.reply evaluation trial.last

def Passes (attempt : Nat) : Prop := ∃ message, (trial.reply evaluation attempt).result = .error (.transient message)

def Registered : Prop :=
  ∃ filter, evaluation.registry.find trial.placed.leaf.filter = .ok filter ∧ trial.resolver = filter.resolver

structure Settled : Prop where
  allowed : trial.last ≤ evaluation.engine.config.resolverRetries
  passing : ∀ attempt, attempt < trial.last → trial.Passes evaluation attempt
  final : trial.last = evaluation.engine.config.resolverRetries ∨ ¬ trial.Passes evaluation trial.last

structure SettledFrom (attempt limit : Nat) : Prop where
  begun : attempt ≤ trial.last
  allowed : trial.last ≤ limit
  passing : ∀ between, attempt ≤ between → between < trial.last → trial.Passes evaluation between
  final : trial.last = limit ∨ ¬ trial.Passes evaluation trial.last

theorem settled_from_start (settled : trial.SettledFrom evaluation 0 evaluation.engine.config.resolverRetries) :
    trial.Settled evaluation :=
  ⟨settled.allowed, fun attempt sooner => settled.passing attempt (Nat.zero_le _) sooner, settled.final⟩

theorem settled_last (limit : Nat) (allowed : trial.last ≤ limit)
    (final : trial.last = limit ∨ ¬ trial.Passes evaluation trial.last) :
    trial.SettledFrom evaluation trial.last limit :=
  ⟨Nat.le_refl _, allowed, fun _ after sooner => absurd sooner (Nat.not_lt_of_le after), final⟩

theorem settled_sooner {attempt limit : Nat} (passes : trial.Passes evaluation attempt)
    (settled : trial.SettledFrom evaluation (attempt + 1) limit) : trial.SettledFrom evaluation attempt limit := by
  refine ⟨Nat.le_of_succ_le settled.begun, settled.allowed, fun between after sooner => ?_, settled.final⟩
  by_cases here : between = attempt
  · exact here ▸ passes
  · exact settled.passing between (by omega) sooner

def Chained (world : World σ) : List (Trial σ) → Prop
  | [] => True
  | trial :: rest => trial.before = world ∧ Chained (trial.ended evaluation).world rest

-- What fails in a run inside a call ends the calls, also when a failure that would pass lies inside it.
theorem nested_last (settled : trial.Settled evaluation) (attempt : Nat) (called : attempt ≤ trial.last)
    (error : PipelineError) (failed : (trial.reply evaluation attempt).result = .error (.nested error)) :
    attempt = trial.last := by
  by_contra other
  obtain ⟨message, passing⟩ := settled.passing attempt (by omega)
  rw [failed] at passing
  cases passing

def verdict : Except EvaluateError IdentitySet :=
  match (trial.ended evaluation).result with
  | .ok rows => .ok rows
  | .error source => .error (.resolver trial.placed.leaf.filter trial.placed.path (trial.last + 1) source)

theorem verdict_answered (rows : IdentitySet) (ended : (trial.ended evaluation).result = .ok rows) :
    trial.verdict evaluation = .ok rows := by
  rw [verdict, ended]

theorem verdict_failed (source : ResolverError) (ended : (trial.ended evaluation).result = .error source) :
    trial.verdict evaluation =
      .error (.resolver trial.placed.leaf.filter trial.placed.path (trial.last + 1) source) := by
  rw [verdict, ended]

def called (attempt : Nat) : List Event :=
  [.resolverCalled trial.placed.path trial.placed.leaf.filter trial.placed.leaf.instruction attempt,
    .resolverReturned trial.placed.path (trial.reply evaluation attempt).result]

def retried (attempt : Nat) : List Event := trial.called evaluation attempt ++ [.counted .resolverRetry]

def closing : List Event :=
  match (trial.ended evaluation).result with
  | .ok rows => [.counted (.leafResolved rows.size),
      .traced evaluation.fingerprint
        (.leafResolved trial.placed.path trial.placed.leaf.filter rows.size (trial.last + 1))]
  | .error _ => [.counted .resolverFailure]

def toldFrom (attempt : Nat) : List Event :=
  (List.range' attempt (trial.last - attempt)).flatMap (trial.retried evaluation) ++
    (trial.called evaluation trial.last ++ trial.closing evaluation)

structure Told (attempt : Nat) (result : Except EvaluateError IdentitySet) (after : World σ) (journal : Journal) :
    Prop where
  isVerdict : result = trial.verdict evaluation
  isWorld : after = (trial.ended evaluation).world
  isTold : journal.own evaluation.engine.level = trial.toldFrom evaluation attempt

def told : List Event := trial.toldFrom evaluation 0

theorem told_last : trial.toldFrom evaluation trial.last =
    trial.called evaluation trial.last ++ trial.closing evaluation := by
  simp [toldFrom]

theorem told_more (attempt : Nat) (more : attempt < trial.last) :
    trial.toldFrom evaluation attempt = trial.retried evaluation attempt ++ trial.toldFrom evaluation (attempt + 1) := by
  obtain ⟨left, isLeft⟩ : ∃ left, trial.last - attempt = left + 1 := ⟨trial.last - attempt - 1, by omega⟩
  have others : trial.last - (attempt + 1) = left := by omega
  rw [toldFrom, toldFrom, isLeft, others, List.range'_succ]
  simp

def closingMetric : Metric :=
  match (trial.ended evaluation).result with
  | .ok rows => .leafResolved rows.size
  | .error _ => .resolverFailure

theorem closing_metrics :
    (trial.closing evaluation).filterMap Event.metric? = [trial.closingMetric evaluation] := by
  rw [closing, closingMetric]
  cases (trial.ended evaluation).result <;> rfl

theorem told_metrics :
    (trial.told evaluation).filterMap Event.metric? =
      List.replicate trial.last .resolverRetry ++ [trial.closingMetric evaluation] := by
  have retries : (fun attempt => (trial.retried evaluation attempt).filterMap Event.metric?) =
      fun _ => [.resolverRetry] := rfl
  have none : (trial.called evaluation trial.last).filterMap Event.metric? = [] := rfl
  rw [told, toldFrom, List.filterMap_append, List.filterMap_append, none, trial.closing_metrics,
    List.filterMap_flatMap, retries, ← List.map_eq_flatMap, List.map_const', List.length_range']
  rfl

def calls : List (Path × String × String × Nat) :=
  (List.range (trial.last + 1)).map fun attempt =>
    (trial.placed.path, trial.placed.leaf.filter, trial.placed.leaf.instruction, attempt)

theorem closing_calls : (trial.closing evaluation).filterMap Event.call? = [] := by
  rw [closing]
  cases (trial.ended evaluation).result <;> rfl

theorem told_calls : (trial.told evaluation).filterMap Event.call? = trial.calls := by
  have each : (fun attempt => (trial.retried evaluation attempt).filterMap Event.call?) =
      fun attempt => [(trial.placed.path, trial.placed.leaf.filter, trial.placed.leaf.instruction, attempt)] := rfl
  have final : (trial.called evaluation trial.last).filterMap Event.call? =
      [(trial.placed.path, trial.placed.leaf.filter, trial.placed.leaf.instruction, trial.last)] := rfl
  rw [told, toldFrom, List.filterMap_append, List.filterMap_append, final, trial.closing_calls,
    List.filterMap_flatMap, each, ← List.map_eq_flatMap, calls, List.range_succ, List.map_append, Nat.sub_zero,
    ← List.range_eq_range']
  rfl

end Trial

namespace Evaluation

variable {σ : Type}

section Unlimited

variable (evaluation : Evaluation σ) (unlimited : evaluation.engine.deadline.limitMs = none)
include unlimited

theorem call_unlimited (placed : PlacedLeaf) (resolver : Resolver σ) (attempt : Nat) (world : World σ)
    (post : Except EvaluateError (Except ResolverError IdentitySet) → World σ → Journal → Prop) :
    (evaluation.call placed resolver attempt).Does world post ↔
      (evaluation.ask placed resolver attempt).Does world fun result after journal => post (.ok result) after
        (⟨evaluation.engine.site, world.now,
            .resolverCalled placed.path placed.leaf.filter placed.leaf.instruction attempt⟩ ::
          (journal ++ [⟨evaluation.engine.site, after.now, .resolverReturned placed.path result⟩])) := by
  rw [call]
  simp only [Action.bind_does, Deadline.check_unlimited _ unlimited, Action.record_does, Action.attempt_does]
  simp [ask]

theorem call_own (used : evaluation.engine.Used) (placed : PlacedLeaf) (resolver : Resolver σ) (before : World σ)
    (attempt : Nat) :
    (evaluation.call placed resolver attempt).Does (evaluation.worldBefore placed resolver before attempt)
      fun result after journal =>
        result = .ok (evaluation.reply placed resolver before attempt).result ∧
          after = (evaluation.reply placed resolver before attempt).world ∧
          journal.own evaluation.engine.level = Trial.called evaluation ⟨placed, resolver, before, 0⟩ attempt := by
  rw [evaluation.call_unlimited unlimited, Action.Does, ← evaluation.reply_before placed resolver before attempt]
  have served : evaluation.engine.Served (evaluation.reply placed resolver before attempt).journal := by
    rw [evaluation.reply_before placed resolver before attempt]
    exact evaluation.engine.perform_served _ _
  have nested := Journal.own_deeper _ _ (evaluation.engine.used_served_deeper used _ served)
  refine ⟨rfl, rfl, ?_⟩
  simp [nested, Trial.called, Trial.reply]

end Unlimited

theorem settle_told (evaluation : Evaluation σ) (trial : Trial σ) (journal : Journal)
    (isCalled : journal.own evaluation.engine.level = trial.called evaluation trial.last) :
    (match (trial.ended evaluation).result with
      | .ok rows => evaluation.accept trial.placed trial.last rows
      | .error source => evaluation.giveUp trial.placed trial.last source).Does (trial.ended evaluation).world
        fun result after rest => trial.Told evaluation trial.last result after (journal ++ rest) := by
  have told (result : Except EvaluateError IdentitySet) (rest : Journal) (isVerdict : result = trial.verdict evaluation)
      (isClosing : rest.own evaluation.engine.level = trial.closing evaluation) :
      trial.Told evaluation trial.last result (trial.ended evaluation).world (journal ++ rest) := by
    refine ⟨isVerdict, rfl, ?_⟩
    rw [Journal.own_append, isCalled, isClosing, trial.told_last]
  cases ended : (trial.ended evaluation).result with
  | ok rows =>
      simp only [accept, count, trace, Action.bind_does, Action.count_does, Action.record_does, Action.pure_does]
      exact told _ _ (by simp [Trial.verdict, ended]) (by simp [Trial.closing, ended])
  | error source =>
      simp only [giveUp, count, Action.bind_does, Action.count_does, Action.fail_does]
      exact told _ _ (by simp [Trial.verdict, ended]) (by simp [Trial.closing, ended])

section Rows

variable (evaluation : Evaluation σ) (unlimited : evaluation.engine.deadline.limitMs = none)
  (used : evaluation.engine.Used) (placed : PlacedLeaf) (resolver : Resolver σ) (before : World σ)
include unlimited used

theorem rows_of_last (retries attempt : Nat)
    (final : retries = 0 ∨ ¬ (Trial.mk placed resolver before attempt).Passes evaluation attempt) :
    (evaluation.rowsOf placed resolver retries attempt).Does (evaluation.worldBefore placed resolver before attempt)
      ((Trial.mk placed resolver before attempt).Told evaluation attempt) := by
  let trial : Trial σ := ⟨placed, resolver, before, attempt⟩
  have called := evaluation.call_own unlimited used placed resolver before attempt
  cases retries with
  | zero =>
      rw [rowsOf, Action.bind_does]
      apply Action.does_weaken called
      rintro _ _ journal ⟨rfl, rfl, isCalled⟩
      exact evaluation.settle_told trial journal isCalled
  | succ retries =>
      have stays := final.resolve_left (Nat.succ_ne_zero retries)
      rw [rowsOf, Action.bind_does]
      apply Action.does_weaken called
      rintro _ _ journal ⟨rfl, rfl, isCalled⟩
      have settles := evaluation.settle_told trial journal isCalled
      change (match (evaluation.reply placed resolver before attempt).result with
        | .ok rows => evaluation.accept placed attempt rows
        | .error source => evaluation.giveUp placed attempt source).Does _ _ at settles
      cases isReply : (evaluation.reply placed resolver before attempt).result with
      | ok rows =>
          rw [isReply] at settles
          exact settles
      | error source =>
          have final : ¬ source.isTransient = true := fun passing => by
            obtain ⟨message, rfl⟩ := source.transient_iff.mp passing
            exact stays ⟨message, isReply⟩
          rw [isReply] at settles
          simp only [if_neg final]
          exact settles

theorem rows_of_more (retries attempt last : Nat) (more : attempt < last)
    (passes : (Trial.mk placed resolver before last).Passes evaluation attempt)
    (later : (evaluation.rowsOf placed resolver retries (attempt + 1)).Does
      (evaluation.worldBefore placed resolver before (attempt + 1))
      ((Trial.mk placed resolver before last).Told evaluation (attempt + 1))) :
    (evaluation.rowsOf placed resolver (retries + 1) attempt).Does
      (evaluation.worldBefore placed resolver before attempt)
      ((Trial.mk placed resolver before last).Told evaluation attempt) := by
  obtain ⟨message, isReply⟩ := passes
  change (evaluation.reply placed resolver before attempt).result = _ at isReply
  rw [rowsOf, Action.bind_does]
  apply Action.does_weaken (evaluation.call_own unlimited used placed resolver before attempt)
  rintro _ _ journal ⟨rfl, rfl, isCalled⟩
  rw [isReply]
  simp only [ResolverError.isTransient, if_true, count, Action.bind_does, Action.count_does]
  apply Action.does_weaken later
  intro result after rest told
  refine ⟨told.isVerdict, told.isWorld, ?_⟩
  have isCalled : journal.own evaluation.engine.level =
      Trial.called evaluation ⟨placed, resolver, before, last⟩ attempt := isCalled
  rw [Trial.told_more _ _ _ more, Trial.retried]
  simp [isCalled, told.isTold]

theorem rows_of_unlimited (retries attempt : Nat) :
    ∃ last, (Trial.mk placed resolver before last).SettledFrom evaluation attempt (attempt + retries) ∧
      (evaluation.rowsOf placed resolver retries attempt).Does (evaluation.worldBefore placed resolver before attempt)
        ((Trial.mk placed resolver before last).Told evaluation attempt) := by
  induction retries generalizing attempt with
  | zero =>
      let trial : Trial σ := ⟨placed, resolver, before, attempt⟩
      refine ⟨attempt, trial.settled_last evaluation _ (Nat.le_refl _) (Or.inl rfl), ?_⟩
      exact evaluation.rows_of_last unlimited used placed resolver before 0 attempt (Or.inl rfl)
  | succ retries ih =>
      let trial : Trial σ := ⟨placed, resolver, before, attempt⟩
      by_cases passes : trial.Passes evaluation attempt
      · obtain ⟨last, settled, does⟩ := ih (attempt + 1)
        have passed : (Trial.mk placed resolver before last).Passes evaluation attempt := passes
        have isSettled := Trial.settled_sooner evaluation _ passed settled
        rw [Nat.add_right_comm] at isSettled
        refine ⟨last, isSettled, ?_⟩
        exact evaluation.rows_of_more unlimited used placed resolver before retries attempt last settled.begun passed does
      · refine ⟨attempt, trial.settled_last evaluation _ (Nat.le_add_right _ _) (Or.inr passes), ?_⟩
        exact evaluation.rows_of_last unlimited used placed resolver before _ attempt (Or.inr passes)

end Rows

theorem resolve_unlimited (evaluation : Evaluation σ) (unlimited : evaluation.engine.deadline.limitMs = none)
    (used : evaluation.engine.Used) (placed : PlacedLeaf) (filter : Filter σ)
    (registered : evaluation.registry.find placed.leaf.filter = .ok filter) (world : World σ) :
    ∃ last, (Trial.mk placed filter.resolver world last).Settled evaluation ∧
      (evaluation.resolve placed).Does world ((Trial.mk placed filter.resolver world last).Told evaluation 0) := by
  obtain ⟨last, settled, does⟩ := evaluation.rows_of_unlimited unlimited used placed filter.resolver world
    evaluation.engine.config.resolverRetries 0
  rw [Nat.zero_add] at settled
  refine ⟨last, Trial.settled_from_start evaluation _ settled, ?_⟩
  rw [resolve, registered]
  exact does

end Evaluation

end FilterPlan
