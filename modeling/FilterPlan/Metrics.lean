import FilterPlan.Json
import FilterPlan.NameMap
import FilterPlan.Word

set_option autoImplicit false

namespace FilterPlan

structure Counter where
  value : Nat
  bounded : value ≤ maxWord64
deriving DecidableEq

namespace Counter

def zero : Counter := ⟨0, Nat.zero_le _⟩

def add (counter : Counter) (amount : Nat) : Counter :=
  ⟨min (counter.value + amount) maxWord64, Nat.min_le_right _ _⟩

theorem add_add (counter : Counter) (m n : Nat) : (counter.add m).add n = counter.add (m + n) := by
  simp only [add, mk.injEq]
  omega

def ofJson? (value : Json) : Option Counter :=
  match value.natural? maxWord64 with
  | none => none
  | some value => if bounded : value ≤ maxWord64 then some ⟨value, bounded⟩ else none

def toJson (counter : Counter) : Json := .natural counter.value

end Counter

inductive Metric where
  | planEvaluated (leaves : Nat) (unfiltered : Bool)
  | leafResolved (rows : Nat)
  | leafSkipped
  | resolverRetry
  | resolverFailure
  | timeout
  | mergeFinish (rows : Nat)
  | planRetry
  | planFailure
  | pipelineStart (pipeline : String) (nested : Bool)
  | pipelineFinish (pipeline : String) (rows : Nat)
  | pipelineError (pipeline : String)
deriving DecidableEq, Repr

structure Operations where
  plansEvaluated : Counter
  plansUnfiltered : Counter
  planLeaves : Counter
  leavesResolved : Counter
  leavesSkipped : Counter
  rowsResolved : Counter
  resolverRetries : Counter
  resolverFailures : Counter
  timeouts : Counter
  merges : Counter
  rowsMerged : Counter
  planRetries : Counter
  planFailures : Counter
  nestedRuns : Counter
deriving DecidableEq

structure PipelineCounters where
  runs : Counter
  nestedRuns : Counter
  rowsReturned : Counter
  failures : Counter
deriving DecidableEq

def Operations.zero : Operations :=
  ⟨.zero, .zero, .zero, .zero, .zero, .zero, .zero, .zero, .zero, .zero, .zero, .zero, .zero, .zero⟩

def PipelineCounters.zero : PipelineCounters := ⟨.zero, .zero, .zero, .zero⟩

structure Metrics where
  operations : Operations
  pipelines : NameMap PipelineCounters

namespace Metrics

def zero : Metrics := ⟨.zero, .empty⟩

def countPipeline (metrics : Metrics) (name : String) (change : PipelineCounters → PipelineCounters) : Metrics :=
  { metrics with pipelines := metrics.pipelines.update name .zero change }

def count (metrics : Metrics) : Metric → Metrics
  | .planEvaluated leaves unfiltered =>
      let ops := metrics.operations
      { metrics with operations :=
        { ops with
          plansEvaluated := ops.plansEvaluated.add 1
          plansUnfiltered := ops.plansUnfiltered.add (if unfiltered then 1 else 0)
          planLeaves := ops.planLeaves.add leaves } }
  | .leafResolved rows =>
      let ops := metrics.operations
      { metrics with operations :=
        { ops with leavesResolved := ops.leavesResolved.add 1, rowsResolved := ops.rowsResolved.add rows } }
  | .leafSkipped =>
      let ops := metrics.operations
      { metrics with operations := { ops with leavesSkipped := ops.leavesSkipped.add 1 } }
  | .resolverRetry =>
      let ops := metrics.operations
      { metrics with operations := { ops with resolverRetries := ops.resolverRetries.add 1 } }
  | .resolverFailure =>
      let ops := metrics.operations
      { metrics with operations := { ops with resolverFailures := ops.resolverFailures.add 1 } }
  | .timeout =>
      let ops := metrics.operations
      { metrics with operations := { ops with timeouts := ops.timeouts.add 1 } }
  | .mergeFinish rows =>
      let ops := metrics.operations
      { metrics with operations :=
        { ops with merges := ops.merges.add 1, rowsMerged := ops.rowsMerged.add rows } }
  | .planRetry =>
      let ops := metrics.operations
      { metrics with operations := { ops with planRetries := ops.planRetries.add 1 } }
  | .planFailure =>
      let ops := metrics.operations
      { metrics with operations := { ops with planFailures := ops.planFailures.add 1 } }
  | .pipelineStart pipeline nested =>
      let ops := metrics.operations
      let amount := if nested then 1 else 0
      countPipeline { metrics with operations := { ops with nestedRuns := ops.nestedRuns.add amount } } pipeline
        fun counters =>
          { counters with runs := counters.runs.add 1, nestedRuns := counters.nestedRuns.add amount }
  | .pipelineFinish pipeline rows =>
      metrics.countPipeline pipeline fun counters =>
        { counters with rowsReturned := counters.rowsReturned.add rows }
  | .pipelineError pipeline =>
      metrics.countPipeline pipeline fun counters => { counters with failures := counters.failures.add 1 }

def countAll (metrics : Metrics) (events : List Metric) : Metrics := events.foldl count metrics

end Metrics

-- Reports

def Operations.fieldNames : List String :=
  ["plans_evaluated", "plans_unfiltered", "plan_leaves", "leaves_resolved", "leaves_skipped", "rows_resolved",
    "resolver_retries", "resolver_failures", "timeouts", "merges", "rows_merged", "plan_retries",
    "plan_failures", "nested_runs"]

def Operations.counters (ops : Operations) : List Counter :=
  [ops.plansEvaluated, ops.plansUnfiltered, ops.planLeaves, ops.leavesResolved, ops.leavesSkipped,
    ops.rowsResolved, ops.resolverRetries, ops.resolverFailures, ops.timeouts, ops.merges, ops.rowsMerged,
    ops.planRetries, ops.planFailures, ops.nestedRuns]

def Operations.toJson (ops : Operations) : Json :=
  .object (List.zipWith (fun name counter => (name, Counter.toJson counter)) fieldNames ops.counters)

def Counter.allOf? (names : List String) (value : Json) : Option (List Counter) :=
  match value.fields? names with
  | none => none
  | some fields => fields.mapM fun field => field.bind Counter.ofJson?

def Operations.ofJson? (value : Json) : Option Operations :=
  match Counter.allOf? fieldNames value with
  | some [a, b, c, d, e, f, g, h, i, j, k, l, m, n] => some ⟨a, b, c, d, e, f, g, h, i, j, k, l, m, n⟩
  | _ => none

def PipelineCounters.fieldNames : List String := ["runs", "nested_runs", "rows_returned", "failures"]

def PipelineCounters.toJson (counters : PipelineCounters) : Json :=
  .object (List.zipWith (fun name counter => (name, Counter.toJson counter)) fieldNames
    [counters.runs, counters.nestedRuns, counters.rowsReturned, counters.failures])

def PipelineCounters.ofJson? (value : Json) : Option PipelineCounters :=
  match Counter.allOf? fieldNames value with
  | some [runs, nestedRuns, rowsReturned, failures] => some ⟨runs, nestedRuns, rowsReturned, failures⟩
  | _ => none

namespace Metrics

def toJson (metrics : Metrics) : Json :=
  .object [("ops", metrics.operations.toJson),
    ("pipelines", .object (metrics.pipelines.entries.map fun entry => (entry.1, entry.2.toJson)))]

def ofJson? (value : Json) : Option Metrics := do
  match ← value.fields? ["ops", "pipelines"] with
  | [some ops, some (.object members)] =>
      let operations ← Operations.ofJson? ops
      let pipelines ← members.mapM fun member => do some (member.1, ← PipelineCounters.ofJson? member.2)
      some ⟨operations, .ofList pipelines⟩
  | _ => none

end Metrics

end FilterPlan
