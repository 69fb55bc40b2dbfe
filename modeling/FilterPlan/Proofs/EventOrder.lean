import FilterPlan.Proofs.Metrics
import Mathlib.Logic.Relation

set_option autoImplicit false

namespace FilterPlan

theorem Operations.counter_ext (operations other : Operations)
    (same : ∀ counter, operations.counter counter = other.counter counter) : operations = other := by
  cases operations
  cases other
  simp only [mk.injEq]
  exact ⟨same .plansEvaluated, same .plansUnfiltered, same .planLeaves, same .leavesResolved, same .leavesSkipped,
    same .rowsResolved, same .resolverRetries, same .resolverFailures, same .timeouts, same .merges, same .rowsMerged,
    same .planRetries, same .planFailures, same .nestedRuns⟩

theorem PipelineCounters.counter_ext (counters other : PipelineCounters)
    (same : ∀ counter, counters.counter counter = other.counter counter) : counters = other := by
  cases counters
  cases other
  simp only [mk.injEq]
  exact ⟨same .runs, same .nestedRuns, same .rowsReturned, same .failures⟩

namespace Counter

theorem add_least (counter : Counter) (amount : Nat) :
    (counter.add amount).value = min maxWord64 (counter.value + amount) :=
  Nat.min_comm _ _

theorem add_grows (counter : Counter) (amount : Nat) : counter.value ≤ (counter.add amount).value := by
  have bounded := counter.bounded
  rw [add_least]
  omega

end Counter

namespace Metric

def pipeline? : Metric → Option String
  | .pipelineStart pipeline _ | .pipelineFinish pipeline _ | .pipelineError pipeline => some pipeline
  | _ => none

theorem total_perm (counter : OperationCounter) (events other : List Metric) (arranged : events.Perm other) :
    total counter events = total counter other :=
  (arranged.map _).sum_nat

theorem total_of_perm (name : String) (counter : PipelineCounter) (events other : List Metric)
    (arranged : events.Perm other) : totalOf name counter events = totalOf name counter other :=
  (arranged.map _).sum_nat

end Metric

namespace Metrics

def Lists (metrics : Metrics) (name : String) : Prop := (metrics.pipelines.find? name).isSome = true

theorem count_pipeline_lists (metrics : Metrics) (named : String) (change : PipelineCounters → PipelineCounters)
    (name : String) : (metrics.countPipeline named change).Lists name ↔ metrics.Lists name ∨ named = name := by
  rw [Lists, Lists, countPipeline, NameMap.find_update]
  by_cases same : named = name <;> simp [same]

theorem count_lists (metrics : Metrics) (event : Metric) (name : String) :
    (metrics.count event).Lists name ↔ metrics.Lists name ∨ event.pipeline? = some name := by
  cases event with
  | pipelineStart pipeline nested =>
      rw [count, count_pipeline_lists, Metric.pipeline?, Option.some.injEq]
      exact Iff.rfl
  | pipelineFinish pipeline rows => rw [count, count_pipeline_lists, Metric.pipeline?, Option.some.injEq]
  | pipelineError pipeline => rw [count, count_pipeline_lists, Metric.pipeline?, Option.some.injEq]
  | _ => simp [count, Lists, Metric.pipeline?]

theorem count_all_lists (metrics : Metrics) (events : List Metric) (name : String) :
    (metrics.countAll events).Lists name ↔
      metrics.Lists name ∨ ∃ event ∈ events, event.pipeline? = some name := by
  induction events generalizing metrics with
  | nil => simp [countAll]
  | cons event rest ih =>
      have later := ih (metrics.count event)
      rw [count_lists, or_assoc] at later
      rw [countAll, List.foldl_cons]
      simpa [countAll] using later

theorem counter_ext (metrics other : Metrics)
    (operations : ∀ counter, metrics.operations.counter counter = other.operations.counter counter)
    (listed : ∀ name, metrics.Lists name ↔ other.Lists name)
    (pipelines : ∀ name counter, (metrics.pipeline name).counter counter = (other.pipeline name).counter counter) :
    metrics = other := by
  have found (name : String) : metrics.pipelines.find? name = other.pipelines.find? name := by
    have sameCounters := PipelineCounters.counter_ext _ _ (pipelines name)
    have sameEntry := listed name
    rw [Lists, Lists] at sameEntry
    rw [pipeline, pipeline] at sameCounters
    cases here : metrics.pipelines.find? name with
    | none => simp_all
    | some counters =>
        obtain ⟨others, there⟩ := Option.isSome_iff_exists.mp (sameEntry.mp (by rw [here]; rfl))
        rw [here, there] at sameCounters
        rw [there]
        exact congrArg some sameCounters
  have sameOperations := Operations.counter_ext _ _ operations
  have samePipelines := NameMap.find_ext _ _ found
  cases metrics
  cases other
  simp_all

theorem count_all_perm (metrics : Metrics) (events other : List Metric) (arranged : events.Perm other) :
    metrics.countAll events = metrics.countAll other := by
  apply counter_ext
  · intro counter
    rw [count_all_operation, count_all_operation, Metric.total_perm counter events other arranged]
  · intro name
    rw [count_all_lists, count_all_lists]
    simp only [arranged.mem_iff]
  · intro name counter
    rw [count_all_of_pipeline, count_all_of_pipeline, Metric.total_of_perm name counter events other arranged]

structure Within (metrics later : Metrics) : Prop where
  operations : ∀ counter, (metrics.operations.counter counter).value ≤ (later.operations.counter counter).value
  pipelines : ∀ name counter,
    ((metrics.pipeline name).counter counter).value ≤ ((later.pipeline name).counter counter).value
  listed : ∀ name, metrics.Lists name → later.Lists name

theorem within_count_all (metrics : Metrics) (events : List Metric) : metrics.Within (metrics.countAll events) := by
  constructor
  case operations =>
    intro counter
    rw [count_all_operation]
    exact Counter.add_grows _ _
  case pipelines =>
    intro name counter
    rw [count_all_of_pipeline]
    exact Counter.add_grows _ _
  case listed =>
    intro name listed
    exact (metrics.count_all_lists events name).mpr (Or.inl listed)

theorem within_trans (first second third : Metrics) (within : first.Within second)
    (later : second.Within third) : first.Within third := by
  constructor
  case operations =>
    intro counter
    exact Nat.le_trans (within.operations counter) (later.operations counter)
  case pipelines =>
    intro name counter
    exact Nat.le_trans (within.pipelines name counter) (later.pipelines name counter)
  case listed =>
    intro name listed
    exact later.listed name (within.listed name listed)

end Metrics

/-- Workers that record their events in shared metrics, each its own events in order. -/
structure Pool where
  metrics : Metrics
  workers : List (List Metric)

namespace Pool

inductive Step : Pool → Pool → Prop where
  | record (metrics : Metrics) (before : List (List Metric)) (event : Metric) (rest : List Metric)
      (after : List (List Metric)) :
      Step ⟨metrics, before ++ (event :: rest) :: after⟩ ⟨metrics.count event, before ++ rest :: after⟩

abbrev Run : Pool → Pool → Prop := Relation.ReflTransGen Step

def pending (pool : Pool) : List Metric := pool.workers.flatten

def Finished (pool : Pool) : Prop := pool.pending = []

def outcome (pool : Pool) : Metrics := pool.metrics.countAll pool.pending

theorem pending_split (before after : List (List Metric)) (event : Metric) (rest : List Metric) :
    (before ++ (event :: rest) :: after).flatten.Perm (event :: (before ++ rest :: after).flatten) := by
  simp only [List.flatten_append, List.flatten_cons, List.cons_append]
  exact List.perm_middle

theorem step_outcome (pool next : Pool) (step : Step pool next) : next.outcome = pool.outcome := by
  cases step with
  | record metrics before event rest after =>
      have arranged := pending_split before after event rest
      rw [outcome, outcome, pending, pending, metrics.count_all_perm _ _ arranged]
      rfl

theorem run_outcome (pool next : Pool) (run : Run pool next) : next.outcome = pool.outcome := by
  induction run with
  | refl => rfl
  | tail _ step ih => exact (step_outcome _ _ step).trans ih

theorem step_pending (pool next : Pool) (step : Step pool next) :
    next.pending.length < pool.pending.length := by
  cases step with
  | record metrics before event rest after =>
      have longer := (pending_split before after event rest).length_eq
      rw [pending, pending, longer]
      exact Nat.lt_succ_self _

theorem step_exists (pool : Pool) (unfinished : ¬ pool.Finished) : ∃ next, Step pool next := by
  obtain ⟨metrics, workers⟩ := pool
  have left : ∃ worker ∈ workers, worker ≠ [] := by
    simpa [Finished, pending] using unfinished
  obtain ⟨worker, inside, busy⟩ := left
  obtain ⟨before, after, rfl⟩ := List.append_of_mem inside
  obtain ⟨event, rest, rfl⟩ := List.exists_cons_of_ne_nil busy
  exact ⟨_, .record metrics before event rest after⟩

theorem run_finishes (pool : Pool) : ∃ final, Run pool final ∧ final.Finished := by
  by_cases finished : pool.Finished
  · exact ⟨pool, .refl, finished⟩
  · obtain ⟨next, step⟩ := pool.step_exists finished
    have fewer := step_pending pool next step
    obtain ⟨final, run, done⟩ := run_finishes next
    exact ⟨final, .head step run, done⟩
termination_by pool.pending.length

theorem finished_outcome (pool : Pool) (finished : pool.Finished) : pool.outcome = pool.metrics := by
  rw [outcome, finished]
  rfl

theorem step_within (pool next : Pool) (step : Step pool next) : pool.metrics.Within next.metrics := by
  cases step with
  | record metrics before event rest after => exact metrics.within_count_all [event]

theorem run_within (pool next : Pool) (run : Run pool next) : pool.metrics.Within next.metrics := by
  induction run with
  | refl => exact pool.metrics.within_count_all []
  | tail _ step ih => exact Metrics.within_trans _ _ _ ih (step_within _ _ step)

end Pool

namespace Metrics

-- The metrics that a list of events comes to do not depend on their order: each counter is the exact sum of what the
-- events add to it, up to the bound. So counters never fall, and however the events are spread over the workers of a
-- pool and whichever worker goes next, all runs of the pool end with the same metrics.
theorem order_irrelevant (metrics : Metrics) (events : List Metric) :
    (∀ other, events.Perm other → metrics.countAll other = metrics.countAll events) ∧
      (∀ counter, ((metrics.countAll events).operations.counter counter).value =
        min maxWord64 ((metrics.operations.counter counter).value + (events.map (Metric.share counter)).sum)) ∧
      (∀ name counter, (((metrics.countAll events).pipeline name).counter counter).value =
        min maxWord64 (((metrics.pipeline name).counter counter).value +
          (events.map (Metric.shareOf name counter)).sum)) ∧
      (∀ name, (metrics.countAll events).Lists name ↔
        metrics.Lists name ∨ ∃ event ∈ events, event.pipeline? = some name) ∧
      metrics.Within (metrics.countAll events) ∧
      ∀ workers : List (List Metric), workers.flatten.Perm events → ∀ reached, Pool.Run ⟨metrics, workers⟩ reached →
        metrics.Within reached.metrics ∧ reached.metrics.Within (metrics.countAll events) ∧
          (reached.Finished → reached.metrics = metrics.countAll events) ∧
          ∃ final, Pool.Run reached final ∧ final.Finished := by
  refine ⟨?_, ?_, ?_, metrics.count_all_lists events, metrics.within_count_all events, ?_⟩
  · intro other arranged
    exact (metrics.count_all_perm events other arranged).symm
  · intro counter
    rw [count_all_operation, Counter.add_least]
    rfl
  · intro name counter
    rw [count_all_of_pipeline, Counter.add_least]
    rfl
  · intro workers spread reached run
    have outcome : reached.outcome = metrics.countAll events :=
      (Pool.run_outcome _ _ run).trans (metrics.count_all_perm _ _ spread)
    refine ⟨Pool.run_within _ _ run, ?_, ?_, reached.run_finishes⟩
    · rw [← outcome]
      exact reached.metrics.within_count_all reached.pending
    · intro finished
      rw [← outcome, reached.finished_outcome finished]

example : ((zero.countAll [.pipelineFinish "p" maxWord64, .pipelineFinish "p" 1]).pipeline "p").rowsReturned.value =
    maxWord64 := by decide

end Metrics

end FilterPlan
