import FilterPlan.Journal
import FilterPlan.Proofs.NameMap
import Mathlib.Algebra.Ring.Nat

set_option autoImplicit false

namespace FilterPlan

namespace NameMap

variable {α : Type}

-- A sum over all entries changes as the updated entry does. A missing entry counts as the default, which is nothing.
theorem sum_update_in (measure : α → Nat) (name : String) (default : α) (nothing : measure default = 0)
    (change : α → α) (entries : List (String × α))
    (ascending : entries.Pairwise fun a b => compare a.1 b.1 = .lt) :
    ((updateIn name default change entries).map fun entry => measure entry.2).sum +
        measure (((entries.find? fun entry => entry.1 = name).map Prod.snd).getD default) =
      (entries.map fun entry => measure entry.2).sum +
        measure (change (((entries.find? fun entry => entry.1 = name).map Prod.snd).getD default)) := by
  fun_induction updateIn name default change entries with
  | case1 => simp [nothing]
  | case2 first value rest less =>
      have before : ∀ entry ∈ (first, value) :: rest, compare name entry.1 = .lt := by
        intro entry inside
        rcases List.mem_cons.mp inside with rfl | later
        · exact less
        · exact Std.TransCmp.lt_trans less ((List.pairwise_cons.mp ascending).1 entry later)
      rw [find_none_before name _ before]
      simp only [Option.map_none, Option.getD_none, List.map_cons, List.sum_cons, nothing]
      omega
  | case3 first value rest equal =>
      have isFirst : name = first := Std.LawfulEqCmp.eq_of_compare equal
      subst isFirst
      simp only [List.find?_cons, decide_true, Option.map_some, Option.getD_some, List.map_cons, List.sum_cons]
      omega
  | case4 first value rest more ih =>
      have different : first ≠ name := (ne_of_compare (by simp [more])).symm
      have later := ih (List.pairwise_cons.mp ascending).2
      simp only [List.find?_cons, different, decide_false, List.map_cons, List.sum_cons]
      omega

theorem sum_update (measure : α → Nat) (map : NameMap α) (name : String) (default : α) (nothing : measure default = 0)
    (change : α → α) :
    ((map.update name default change).entries.map fun entry => measure entry.2).sum +
        measure ((map.find? name).getD default) =
      (map.entries.map fun entry => measure entry.2).sum + measure (change ((map.find? name).getD default)) :=
  sum_update_in measure name default nothing change map.entries map.ascending

end NameMap

namespace Counter

@[simp] theorem add_zero (counter : Counter) : counter.add 0 = counter := by
  obtain ⟨value, bounded⟩ := counter
  simpa [add] using Nat.min_eq_left bounded

theorem add_value (counter : Counter) (amount : Nat) (fits : counter.value + amount ≤ maxWord64) :
    (counter.add amount).value = counter.value + amount :=
  Nat.min_eq_left fits

end Counter

inductive OperationCounter where
  | plansEvaluated | plansUnfiltered | planLeaves | leavesResolved | leavesSkipped | rowsResolved | resolverRetries
  | resolverFailures | timeouts | merges | rowsMerged | planRetries | planFailures | nestedRuns
deriving DecidableEq, Repr

inductive PipelineCounter where
  | runs | nestedRuns | rowsReturned | failures
deriving DecidableEq, Repr

def Operations.counter (operations : Operations) : OperationCounter → Counter
  | .plansEvaluated => operations.plansEvaluated
  | .plansUnfiltered => operations.plansUnfiltered
  | .planLeaves => operations.planLeaves
  | .leavesResolved => operations.leavesResolved
  | .leavesSkipped => operations.leavesSkipped
  | .rowsResolved => operations.rowsResolved
  | .resolverRetries => operations.resolverRetries
  | .resolverFailures => operations.resolverFailures
  | .timeouts => operations.timeouts
  | .merges => operations.merges
  | .rowsMerged => operations.rowsMerged
  | .planRetries => operations.planRetries
  | .planFailures => operations.planFailures
  | .nestedRuns => operations.nestedRuns

def PipelineCounters.counter (counters : PipelineCounters) : PipelineCounter → Counter
  | .runs => counters.runs
  | .nestedRuns => counters.nestedRuns
  | .rowsReturned => counters.rowsReturned
  | .failures => counters.failures

theorem count_sum {α : Type} (items : List α) (counted : α → Bool) :
    (items.map fun item => if counted item then 1 else 0).sum = items.countP counted := by
  induction items with
  | nil => rfl
  | cons item rest ih => rw [List.map_cons, List.sum_cons, ih, List.countP_cons, Nat.add_comm]

namespace Metric

def share : OperationCounter → Metric → Nat
  | .plansEvaluated, .planEvaluated _ _ => 1
  | .plansUnfiltered, .planEvaluated _ unfiltered => if unfiltered then 1 else 0
  | .planLeaves, .planEvaluated leaves _ => leaves
  | .leavesResolved, .leafResolved _ => 1
  | .leavesSkipped, .leafSkipped => 1
  | .rowsResolved, .leafResolved rows => rows
  | .resolverRetries, .resolverRetry => 1
  | .resolverFailures, .resolverFailure => 1
  | .timeouts, .timeout => 1
  | .merges, .mergeFinish _ => 1
  | .rowsMerged, .mergeFinish rows => rows
  | .planRetries, .planRetry => 1
  | .planFailures, .planFailure => 1
  | .nestedRuns, .pipelineStart _ nested => if nested then 1 else 0
  | _, _ => 0

def shareOf (name : String) : PipelineCounter → Metric → Nat
  | .runs, .pipelineStart pipeline _ => if pipeline = name then 1 else 0
  | .nestedRuns, .pipelineStart pipeline nested => if pipeline = name then if nested then 1 else 0 else 0
  | .rowsReturned, .pipelineFinish pipeline rows => if pipeline = name then rows else 0
  | .failures, .pipelineError pipeline => if pipeline = name then 1 else 0
  | _, _ => 0

def total (counter : OperationCounter) (events : List Metric) : Nat := (events.map (share counter)).sum

def totalOf (name : String) (counter : PipelineCounter) (events : List Metric) : Nat :=
  (events.map (shareOf name counter)).sum

-- No counter is asked to go beyond its bound.
def Unsaturated (events : List Metric) : Prop :=
  (∀ counter, total counter events ≤ maxWord64) ∧ ∀ name counter, totalOf name counter events ≤ maxWord64

end Metric

namespace Metrics

def pipeline (metrics : Metrics) (name : String) : PipelineCounters := (metrics.pipelines.find? name).getD .zero

theorem count_pipeline_find (metrics : Metrics) (name : String) (change : PipelineCounters → PipelineCounters)
    (other : String) :
    (metrics.countPipeline name change).pipeline other =
      if name = other then change (metrics.pipeline other) else metrics.pipeline other := by
  rw [pipeline, countPipeline, NameMap.find_update]
  by_cases same : name = other <;> simp [same, pipeline]

theorem count_operation (metrics : Metrics) (event : Metric) (counter : OperationCounter) :
    (metrics.count event).operations.counter counter =
      (metrics.operations.counter counter).add (event.share counter) := by
  cases event <;> cases counter <;>
    simp [count, countPipeline, Operations.counter, Metric.share]

theorem count_of_pipeline (metrics : Metrics) (event : Metric) (name : String) (counter : PipelineCounter) :
    ((metrics.count event).pipeline name).counter counter =
      ((metrics.pipeline name).counter counter).add (event.shareOf name counter) := by
  cases event with
  | pipelineStart pipeline nested =>
      rw [count, count_pipeline_find]
      by_cases same : pipeline = name <;> cases counter <;>
        simp [same, Metric.shareOf, PipelineCounters.counter, Metrics.pipeline]
  | pipelineFinish pipeline rows =>
      rw [count, count_pipeline_find]
      by_cases same : pipeline = name <;> cases counter <;> simp [same, Metric.shareOf, PipelineCounters.counter]
  | pipelineError pipeline =>
      rw [count, count_pipeline_find]
      by_cases same : pipeline = name <;> cases counter <;> simp [same, Metric.shareOf, PipelineCounters.counter]
  | _ => cases counter <;> simp [count, Metric.shareOf, PipelineCounters.counter, Metrics.pipeline]

theorem count_all_operation (metrics : Metrics) (events : List Metric) (counter : OperationCounter) :
    (metrics.countAll events).operations.counter counter =
      (metrics.operations.counter counter).add (Metric.total counter events) := by
  induction events generalizing metrics with
  | nil => simp [countAll, Metric.total]
  | cons event rest ih =>
      have later := ih (metrics.count event)
      rw [count_operation, Counter.add_add] at later
      simpa [countAll, Metric.total] using later

theorem count_all_of_pipeline (metrics : Metrics) (events : List Metric) (name : String) (counter : PipelineCounter) :
    ((metrics.countAll events).pipeline name).counter counter =
      ((metrics.pipeline name).counter counter).add (Metric.totalOf name counter events) := by
  induction events generalizing metrics with
  | nil => simp [countAll, Metric.totalOf]
  | cons event rest ih =>
      have later := ih (metrics.count event)
      rw [count_of_pipeline, Counter.add_add] at later
      simpa [countAll, Metric.totalOf] using later

theorem operation_total (events : List Metric) (counter : OperationCounter)
    (fits : Metric.total counter events ≤ maxWord64) :
    ((zero.countAll events).operations.counter counter).value = Metric.total counter events := by
  have isZero : (zero.operations.counter counter).value = 0 := by cases counter <;> rfl
  rw [count_all_operation, Counter.add_value, isZero, Nat.zero_add]
  rwa [isZero, Nat.zero_add]

theorem pipeline_total (events : List Metric) (name : String) (counter : PipelineCounter)
    (fits : Metric.totalOf name counter events ≤ maxWord64) :
    (((zero.countAll events).pipeline name).counter counter).value = Metric.totalOf name counter events := by
  have isZero : ((zero.pipeline name).counter counter).value = 0 := by cases counter <;> rfl
  rw [count_all_of_pipeline, Counter.add_value, isZero, Nat.zero_add]
  rwa [isZero, Nat.zero_add]

end Metrics

namespace Metric

theorem nested_share_le (name : String) (event : Metric) :
    event.shareOf name .nestedRuns ≤ event.share .nestedRuns := by
  cases event <;> simp only [shareOf, share, Nat.le_refl]
  split <;> simp

theorem nested_total_le (name : String) (events : List Metric) :
    totalOf name .nestedRuns events ≤ total .nestedRuns events := by
  induction events with
  | nil => exact Nat.le_refl 0
  | cons event rest ih =>
      have first := nested_share_le name event
      simp only [totalOf, total, List.map_cons, List.sum_cons] at ih ⊢
      omega

end Metric

namespace Metrics

def nestedRuns (metrics : Metrics) : Nat :=
  (metrics.pipelines.entries.map fun entry => entry.2.nestedRuns.value).sum

theorem count_pipeline_nested (metrics : Metrics) (name : String) (change : PipelineCounters → PipelineCounters) :
    (metrics.countPipeline name change).nestedRuns + (metrics.pipeline name).nestedRuns.value =
      metrics.nestedRuns + (change (metrics.pipeline name)).nestedRuns.value :=
  NameMap.sum_update (fun counters : PipelineCounters => counters.nestedRuns.value) metrics.pipelines name .zero rfl
    change

theorem count_nested (metrics : Metrics) (event : Metric)
    (fits : ∀ name, (metrics.pipeline name).nestedRuns.value + event.shareOf name .nestedRuns ≤ maxWord64) :
    (metrics.count event).nestedRuns = metrics.nestedRuns + event.share .nestedRuns := by
  cases event with
  | pipelineStart pipeline nested =>
      let amount := if nested then 1 else 0
      have enough := fits pipeline
      simp only [Metric.shareOf, if_true] at enough
      have added := Counter.add_value (metrics.pipeline pipeline).nestedRuns amount enough
      have changed := metrics.count_pipeline_nested pipeline fun counters =>
        { counters with runs := counters.runs.add 1, nestedRuns := counters.nestedRuns.add amount }
      have balanced : (metrics.count (.pipelineStart pipeline nested)).nestedRuns +
          (metrics.pipeline pipeline).nestedRuns.value =
            metrics.nestedRuns + ((metrics.pipeline pipeline).nestedRuns.add amount).value := changed
      rw [added] at balanced
      change _ = metrics.nestedRuns + amount
      omega
  | pipelineFinish pipeline rows =>
      have changed := metrics.count_pipeline_nested pipeline
        fun counters => { counters with rowsReturned := counters.rowsReturned.add rows }
      exact Nat.add_right_cancel changed
  | pipelineError pipeline =>
      have changed := metrics.count_pipeline_nested pipeline
        fun counters => { counters with failures := counters.failures.add 1 }
      exact Nat.add_right_cancel changed
  | _ => rfl

theorem count_all_nested (metrics : Metrics) (events : List Metric)
    (fits : ∀ name, (metrics.pipeline name).nestedRuns.value + Metric.totalOf name .nestedRuns events ≤ maxWord64) :
    (metrics.countAll events).nestedRuns = metrics.nestedRuns + Metric.total .nestedRuns events := by
  induction events generalizing metrics with
  | nil => rfl
  | cons event rest ih =>
      simp only [Metric.totalOf, List.map_cons, List.sum_cons] at fits
      have first : ∀ name, (metrics.pipeline name).nestedRuns.value + event.shareOf name .nestedRuns ≤ maxWord64 :=
        fun name => by have := fits name; omega
      have later := ih (metrics.count event) fun name => by
        have counted := metrics.count_of_pipeline event name .nestedRuns
        simp only [PipelineCounters.counter] at counted
        rw [counted, Counter.add_value _ _ (first name), Metric.totalOf, Nat.add_assoc]
        exact fits name
      rw [metrics.count_nested event first] at later
      simpa [countAll, Metric.total, Nat.add_assoc] using later

theorem nested_runs_total (events : List Metric) (fits : Metric.total .nestedRuns events ≤ maxWord64) :
    (zero.countAll events).nestedRuns = Metric.total .nestedRuns events := by
  have none : zero.nestedRuns = 0 := rfl
  rw [count_all_nested, none, Nat.zero_add]
  intro name
  have among := Metric.nested_total_le name events
  have isZero : (zero.pipeline name).nestedRuns.value = 0 := rfl
  omega

end Metrics

namespace Journal

@[simp] theorem metrics_nil : Journal.metrics [] = [] := rfl

theorem metrics_counted (site : Site) (time : Nat) (metric : Metric) (rest : Journal) :
    Journal.metrics (⟨site, time, .counted metric⟩ :: rest) = metric :: Journal.metrics rest := rfl

theorem metrics_uncounted (entry : Entry) (rest : Journal) (uncounted : ∀ metric, entry.event ≠ .counted metric) :
    Journal.metrics (entry :: rest) = Journal.metrics rest := by
  rw [metrics, List.filterMap_cons_none]
  · rfl
  · cases isEvent : entry.event with
    | counted metric => exact absurd isEvent (uncounted metric)
    | _ => rfl

@[simp] theorem metrics_append (before after : Journal) :
    Journal.metrics (before ++ after) = Journal.metrics before ++ Journal.metrics after := by
  simp [Journal.metrics]

@[simp] theorem trace_append (before after : Journal) :
    Journal.trace (before ++ after) = Journal.trace before ++ Journal.trace after := by
  simp [Journal.trace]

end Journal

end FilterPlan
