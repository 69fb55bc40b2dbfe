import FilterPlan.Proofs.Accounts
import FilterPlan.Proofs.Missing
import Mathlib.Algebra.BigOperators.Group.List.Basic

set_option autoImplicit false

namespace FilterPlan

structure Execution (σ : Type) where
  pipeline : Pipeline σ
  engine : Engine σ
  plan : Plan
  world : World σ

namespace Execution

variable {σ : Type}

def outcome (execution : Execution σ) : Outcome σ PipelineError IdentitySet :=
  execution.pipeline.execute execution.engine execution.plan execution.world

def leaves (execution : Execution σ) : List PlacedLeaf :=
  match execution.plan.root with
  | none => []
  | some root => root.placedLeaves []

def counts (execution : Execution σ) (time : Nat) (metric : Metric) : Entry :=
  ⟨execution.engine.site, time, .counted metric⟩

def tells (execution : Execution σ) (time : Nat) (note : TraceNote) : Entry :=
  ⟨execution.engine.site, time, .traced execution.plan.fingerprint note⟩

def opening (execution : Execution σ) (counted traced : Nat) : Journal :=
  [execution.counts counted (.planEvaluated execution.leaves.length false),
    execution.tells traced (.planStart execution.leaves.length execution.engine.depth)]

def merging (execution : Execution σ) (rows : IdentitySet) (counted traced : Nat) : Journal :=
  [execution.counts counted (.mergeFinish rows.size), execution.tells traced (.mergeFinish rows.size)]

def failing (execution : Execution σ) (failureClass : FailureClass) (origin : Origin) (traced : Nat) : Journal :=
  [execution.tells traced (.error failureClass origin)]

def selecting (execution : Execution σ) (rows : IdentitySet) (counted traced : Nat) : Journal :=
  [execution.counts counted (.planEvaluated 0 true), execution.tells traced (.mergeFinish rows.size)]

@[simp] theorem opening_metrics (execution : Execution σ) (counted traced : Nat) :
    (execution.opening counted traced).metrics = [.planEvaluated execution.leaves.length false] := rfl

@[simp] theorem opening_trace (execution : Execution σ) (counted traced : Nat) :
    (execution.opening counted traced).trace =
      [(execution.plan.fingerprint, .planStart execution.leaves.length execution.engine.depth)] := rfl

@[simp] theorem merging_metrics (execution : Execution σ) (rows : IdentitySet) (counted traced : Nat) :
    (execution.merging rows counted traced).metrics = [.mergeFinish rows.size] := rfl

@[simp] theorem merging_trace (execution : Execution σ) (rows : IdentitySet) (counted traced : Nat) :
    (execution.merging rows counted traced).trace = [(execution.plan.fingerprint, .mergeFinish rows.size)] := rfl

@[simp] theorem failing_metrics (execution : Execution σ) (failureClass : FailureClass) (origin : Origin)
    (traced : Nat) : (execution.failing failureClass origin traced).metrics = [] := rfl

@[simp] theorem failing_trace (execution : Execution σ) (failureClass : FailureClass) (origin : Origin)
    (traced : Nat) : (execution.failing failureClass origin traced).trace =
      [(execution.plan.fingerprint, .error failureClass origin)] := rfl

end Execution

def Event.Aside : Event → Prop
  | .traced _ _ | .counted (.planEvaluated _ _) | .counted (.leafResolved _) | .counted (.leafSkipped)
  | .counted (.mergeFinish _) => False
  | _ => True

theorem Event.plain_aside (event : Event) (plain : event.Plain) : event.Aside := by
  cases event with
  | counted metric => cases metric <;> simp_all [Plain, Aside]
  | _ => simp_all [Plain, Aside]

/-- Journals in which trace and metrics tell the same story: what is traced is counted beside it. In the scope of an
execution, the listed leaves are dealt with in this order, each by one event of the execution's own. Every start of
an execution is closed by its end, under the same fingerprint and in the same place, and what lies between is what
the execution wrote; when it ends with a merge, the leaves that it dealt with are those of its plan. -/
inductive Told {σ : Type} : (scope : Option (Execution σ)) → List PlacedLeaf → Journal → Prop where
  | nothing (scope : Option (Execution σ)) : Told scope [] []
  | aside {scope : Option (Execution σ)} {leaves : List PlacedLeaf} {rest : Journal} (entry : Entry)
      (isAside : entry.event.Aside) (later : Told scope leaves rest) : Told scope leaves (entry :: rest)
  | resolved {execution : Execution σ} {leaves : List PlacedLeaf} {rest : Journal} (counted traced : Nat)
      (placed : PlacedLeaf) (rows attempts : Nat) (later : Told (some execution) leaves rest) :
      Told (some execution) (placed :: leaves) (execution.counts counted (.leafResolved rows) ::
        execution.tells traced (.leafResolved placed.path placed.leaf.filter rows attempts) :: rest)
  | skipped {execution : Execution σ} {leaves : List PlacedLeaf} {rest : Journal} (counted traced : Nat)
      (placed : PlacedLeaf) (later : Told (some execution) leaves rest) :
      Told (some execution) (placed :: leaves) (execution.counts counted .leafSkipped ::
        execution.tells traced (.leafSkipped placed.path placed.leaf.filter) :: rest)
  | unfiltered {scope : Option (Execution σ)} {leaves : List PlacedLeaf} {rest : Journal} (execution : Execution σ)
      (isUnfiltered : execution.plan.isUnfiltered = true) (counted traced : Nat) (rows : IdentitySet)
      (isResult : execution.outcome.result = .ok rows)
      (isJournal : execution.outcome.journal = execution.selecting rows counted traced)
      (later : Told scope leaves rest) : Told scope leaves (execution.selecting rows counted traced ++ rest)
  | merged {scope : Option (Execution σ)} {own leaves : List PlacedLeaf} {inside rest : Journal}
      (execution : Execution σ) (isFiltered : execution.plan.isUnfiltered = false)
      (opened started counted traced : Nat) (rows : IdentitySet) (isResult : execution.outcome.result = .ok rows)
      (isJournal : execution.outcome.journal =
        execution.opening opened started ++ (inside ++ execution.merging rows counted traced))
      (within : Told (some execution) own inside) (all : own.Perm execution.leaves) (later : Told scope leaves rest) :
      Told scope leaves
        (execution.opening opened started ++ (inside ++ (execution.merging rows counted traced ++ rest)))
  | failed {scope : Option (Execution σ)} {own leaves : List PlacedLeaf} {inside rest : Journal}
      (execution : Execution σ) (isFiltered : execution.plan.isUnfiltered = false) (opened started traced : Nat)
      (error : PipelineError) (failureClass : FailureClass) (origin : Origin)
      (isResult : execution.outcome.result = .error error)
      (isJournal : execution.outcome.journal =
        execution.opening opened started ++ (inside ++ execution.failing failureClass origin traced))
      (within : Told (some execution) own inside) (later : Told scope leaves rest) :
      Told scope leaves
        (execution.opening opened started ++ (inside ++ (execution.failing failureClass origin traced ++ rest)))

namespace Told

variable {σ : Type}

theorem append {inner scope : Option (Execution σ)} {first second : List PlacedLeaf} {before after : Journal}
    (toldBefore : Told inner first before) (wider : inner = none ∨ inner = scope)
    (toldAfter : Told scope second after) : Told scope (first ++ second) (before ++ after) := by
  induction toldBefore with
  | nothing scope => exact toldAfter
  | aside entry isAside _ ih => exact .aside entry isAside (ih wider)
  | resolved counted traced placed rows attempts _ ih =>
      obtain rfl := wider.resolve_left (by simp)
      exact .resolved counted traced placed rows attempts (ih (Or.inr rfl))
  | skipped counted traced placed _ ih =>
      obtain rfl := wider.resolve_left (by simp)
      exact .skipped counted traced placed (ih (Or.inr rfl))
  | unfiltered execution isUnfiltered counted traced rows isResult isJournal _ ih =>
      simpa using Told.unfiltered execution isUnfiltered counted traced rows isResult isJournal (ih wider)
  | merged execution isFiltered opened started counted traced rows isResult isJournal within all _ _ ih =>
      simpa using Told.merged execution isFiltered opened started counted traced rows isResult isJournal within all
        (ih wider)
  | failed execution isFiltered opened started traced error failureClass origin isResult isJournal within _ _ ih =>
      simpa using Told.failed execution isFiltered opened started traced error failureClass origin isResult isJournal
        within (ih wider)

theorem asides (scope : Option (Execution σ)) (journal : Journal) (aside : ∀ entry ∈ journal, entry.event.Aside) :
    Told scope [] journal := by
  induction journal with
  | nil => exact .nothing scope
  | cons entry rest ih =>
      exact .aside entry (aside entry List.mem_cons_self) (ih fun other inside =>
        aside other (List.mem_cons_of_mem _ inside))

end Told

namespace Manager

variable {σ : Type}

theorem dealt_told (manager : Manager σ) (query : Query) (depth : Nat) (execution : Execution σ)
    (isEngine : execution.engine = manager.engineAt query depth)
    (deeper : manager.Deeper (fun _ journal => Told (none : Option (Execution σ)) [] journal) query depth)
    (leaves : List PlacedLeaf) (journal : Journal)
    (dealt : (Evaluation.ofPlan execution.engine execution.pipeline.registry execution.plan).Dealt leaves journal) :
    Told (some execution) leaves journal := by
  induction dealt with
  | nothing => exact .nothing _
  | plain time event isPlain _ ih => exact .aside _ (event.plain_aside isPlain) ih
  | called opened closed path filter instruction attempt outcome served _ ih =>
      have isServed : (manager.engineAt query depth).Served _ := isEngine ▸ served
      have inside := manager.served_kept (fun _ journal => Told (none : Option (Execution σ)) [] journal)
        (fun _ => .nothing none) (fun _ before after first second => first.append (Or.inl rfl) second) query depth deeper
        _ isServed
      exact .aside _ trivial (inside.append (Or.inl rfl) (.aside _ trivial ih))
  | resolved counted traced placed rows attempts _ ih => exact .resolved counted traced placed rows attempts ih
  | skipped counted traced placed tolerated _ ih => exact .skipped counted traced placed ih

theorem execute_told (manager : Manager σ) (query : Query) (depth : Nat)
    (deeper : manager.Deeper (fun _ journal => Told (none : Option (Execution σ)) [] journal) query depth)
    (pipeline : Pipeline σ) (plan : Plan) (world : World σ) :
    Told (none : Option (Execution σ)) [] (pipeline.execute (manager.engineAt query depth) plan world).journal := by
  let execution : Execution σ := ⟨pipeline, manager.engineAt query depth, plan, world⟩
  have isLeaves (root : Node) (planned : plan.root = some root) : root.placedLeaves [] = execution.leaves := by
    rw [Execution.leaves, planned]
  have executed := pipeline.execute_writes (manager.engineAt query depth) plan world
  change Told _ [] execution.outcome.journal
  change pipeline.Executed _ plan execution.outcome.result execution.outcome.journal at executed
  generalize isResult : execution.outcome.result = result at executed
  generalize isJournal : execution.outcome.journal = journal at executed
  cases executed with
  | unfiltered isUnfiltered counted traced =>
      exact .unfiltered execution (by simp [Plan.isUnfiltered, execution, isUnfiltered]) counted traced pipeline.domain
        isResult isJournal (.nothing none)
  | merged root planned opened started counted traced leaves inside rows dealt all =>
      rw [isLeaves root planned] at isJournal all ⊢
      exact .merged execution (by simp [Plan.isUnfiltered, execution, planned]) opened started counted traced rows
        isResult isJournal (manager.dealt_told query depth execution rfl deeper leaves inside dealt) all
        (.nothing none)
  | failed root planned opened started traced leaves inside error ofRun failureClass origin dealt =>
      rw [isLeaves root planned] at isJournal ⊢
      exact .failed execution (by simp [Plan.isUnfiltered, execution, planned]) opened started traced error failureClass
        origin isResult isJournal (manager.dealt_told query depth execution rfl deeper leaves inside dealt)
        (.nothing none)

theorem run_told (manager : Manager σ) (query : Query) (depth : Nat)
    (deeper : manager.Deeper (fun _ journal => Told (none : Option (Execution σ)) [] journal) query depth)
    (pipeline : Pipeline σ) (question : String) (world : World σ) :
    Told (none : Option (Execution σ)) [] (pipeline.run (manager.engineAt query depth) question world).journal := by
  have ran := pipeline.run_writes (manager.engineAt query depth) question world
  generalize (pipeline.run (manager.engineAt query depth) question world).result = result at ran
  generalize (pipeline.run (manager.engineAt query depth) question world).journal = journal at ran
  have planned (planning : Journal) (quiet : (manager.engineAt query depth).Quiet planning) :
      Told (none : Option (Execution σ)) [] planning :=
    .asides none planning fun entry inside => entry.event.plain_aside (quiet entry inside).2
  have closes (time : Nat) (result : Except PipelineError IdentitySet) : Told (none : Option (Execution σ)) []
      [⟨(manager.engineAt query depth).site, time, .counted (Pipeline.closing pipeline.name result)⟩] :=
    .aside _ (by cases result <;> trivial) (.nothing none)
  cases ran with
  | unplanned opened closed planning error ofPlanning quiet =>
      exact .aside _ trivial ((planned planning quiet).append (Or.inr rfl) (closes closed _))
  | executed opened closed planning plan later quiet checked =>
      have executed := manager.execute_told query depth deeper pipeline plan later
      exact .aside _ trivial (((planned planning quiet).append (Or.inr rfl) executed).append (Or.inr rfl)
        (closes closed _))

-- Whatever a resolver reaches is told in a journal of its own, to which the leaf around it does not belong.
theorem deeper_told (manager : Manager σ) (query : Query) (depth : Nat) :
    manager.Deeper (fun _ journal => Told (none : Option (Execution σ)) [] journal) query depth := by
  refine manager.deeper_kept (fun _ journal => Told (none : Option (Execution σ)) [] journal) (fun _ => .nothing none)
    ?_ ?_ ?_ query depth
  · exact fun level deadline time => .aside _ trivial (.nothing none)
  · intro query depth name question pipeline world within found deeper
    rw [manager.run_at_found query depth within name question pipeline found]
    exact manager.run_told query depth deeper pipeline question world
  · exact fun query name pipeline plan world found deeper => manager.execute_told query 0 deeper pipeline plan world

theorem session_told (manager : Manager σ) (world : World σ) (steps : List (Step σ)) :
    Told (none : Option (Execution σ)) [] (manager.session world steps) := by
  refine session_kept (Told (none : Option (Execution σ)) []) (.nothing none)
    (fun before after first second => first.append (Or.inr rfl) second) ?_ manager world steps
  intro step manager world
  refine manager.step_kept (Told (none : Option (Execution σ)) []) (.nothing none) ?_ ?_ step world
  · intro deadline
    refine manager.run_at_kept _ (.nothing none) (manager.outermost deadline) 0 fun name question pipeline world within
      found => ?_
    rw [manager.run_at_found _ 0 within name question pipeline found]
    exact manager.run_told _ 0 (manager.deeper_told _ 0) pipeline question world
  · exact fun deadline name pipeline plan world found =>
      manager.execute_told _ 0 (manager.deeper_told (manager.outermost deadline) 0) pipeline plan world

end Manager

-- A plan whose end is awaited: how many leaves were announced, and how many were dealt with since. A plan without
-- filters is announced by its count only, so its fingerprint is not known yet.
structure Frame where
  fingerprint : Option Fingerprint
  leaves : Nat
  dealt : Nat

namespace Frame

def advance (dealt : Nat) : List Frame → List Frame
  | [] => []
  | frame :: frames => { frame with dealt := frame.dealt + dealt } :: frames

theorem advance_none (frames : List Frame) : advance 0 frames = frames := by
  cases frames <;> rfl

theorem advance_more (first second : Nat) (frames : List Frame) :
    advance second (advance first frames) = advance (first + second) frames := by
  cases frames with
  | nil => rfl
  | cons frame frames => simp [advance, Nat.add_assoc]

def awaits (frame : Frame) (fingerprint : Fingerprint) : Bool :=
  frame.fingerprint = none ∨ frame.fingerprint = some fingerprint

-- The plans whose ends are awaited after some events, the innermost first. There is no answer when an event is not
-- told of the innermost of them, or when a plan is merged before each of its leaves was dealt with once.
def scan : List Frame → List Event → Option (List Frame)
  | frames, [] => some frames
  | frames, .counted (.planEvaluated leaves true) :: rest => scan (⟨none, leaves, 0⟩ :: frames) rest
  | frames, .traced fingerprint (.planStart leaves _) :: rest => scan (⟨some fingerprint, leaves, 0⟩ :: frames) rest
  | frame :: frames, .traced fingerprint (.leafResolved _ _ _ _) :: rest
  | frame :: frames, .traced fingerprint (.leafSkipped _ _) :: rest =>
      if frame.fingerprint = some fingerprint then scan (advance 1 (frame :: frames)) rest else none
  | frame :: frames, .traced fingerprint (.mergeFinish _) :: rest =>
      if frame.awaits fingerprint ∧ frame.dealt = frame.leaves then scan frames rest else none
  | frame :: frames, .traced fingerprint (.error _ _) :: rest =>
      if frame.fingerprint = some fingerprint then scan frames rest else none
  | [], .traced _ _ :: _ => none
  | frames, _ :: rest => scan frames rest

end Frame

namespace Journal

def events (journal : Journal) : List Event := journal.map Entry.event

theorem events_append (before after : Journal) : events (before ++ after) = before.events ++ after.events :=
  List.map_append

end Journal

namespace Told

variable {σ : Type}

theorem scan_aside (frames : List Frame) (event : Event) (isAside : event.Aside) (rest : List Event) :
    Frame.scan frames (event :: rest) = Frame.scan frames rest := by
  cases event with
  | counted metric => cases metric <;> first | exact absurd isAside id | rw [Frame.scan] <;> simp
  | traced fingerprint note => exact absurd isAside id
  | _ => rw [Frame.scan] <;> simp

def Awaited (scope : Option (Execution σ)) (frames : List Frame) : Prop :=
  ∀ execution, scope = some execution →
    ∃ frame others, frames = frame :: others ∧ frame.fingerprint = some execution.plan.fingerprint

theorem awaited_advance (scope : Option (Execution σ)) (frames : List Frame) (dealt : Nat)
    (awaited : Awaited scope frames) : Awaited scope (Frame.advance dealt frames) := by
  intro execution isScope
  obtain ⟨frame, others, rfl, isFingerprint⟩ := awaited execution isScope
  exact ⟨_, others, rfl, isFingerprint⟩

theorem awaited_opened (execution : Execution σ) (frames : List Frame) :
    Awaited (some execution) (⟨some execution.plan.fingerprint, execution.leaves.length, 0⟩ :: frames) := by
  intro other isScope
  obtain rfl := Option.some.inj isScope
  exact ⟨_, frames, rfl, rfl⟩

theorem scan_opening (execution : Execution σ) (counted traced : Nat) (frames : List Frame) (rest : List Event) :
    Frame.scan frames ((execution.opening counted traced).events ++ rest) =
      Frame.scan (⟨some execution.plan.fingerprint, execution.leaves.length, 0⟩ :: frames) rest := rfl

theorem scanned {scope : Option (Execution σ)} {leaves : List PlacedLeaf} {journal : Journal}
    (told : Told scope leaves journal) (frames : List Frame) (awaited : Awaited scope frames) (rest : List Event) :
    Frame.scan frames (journal.events ++ rest) = Frame.scan (Frame.advance leaves.length frames) rest := by
  induction told generalizing frames rest with
  | nothing scope => rw [List.length_nil, Frame.advance_none, Journal.events, List.map_nil, List.nil_append]
  | aside entry isAside _ ih => exact (scan_aside frames entry.event isAside _).trans (ih frames awaited rest)
  | resolved counted traced placed rows attempts _ ih =>
      obtain ⟨frame, others, rfl, isFingerprint⟩ := awaited _ rfl
      refine (if_pos isFingerprint).trans ((ih _ (awaited_advance _ _ 1 awaited) rest).trans ?_)
      rw [Frame.advance_more, List.length_cons, Nat.add_comm]
  | skipped counted traced placed _ ih =>
      obtain ⟨frame, others, rfl, isFingerprint⟩ := awaited _ rfl
      refine (if_pos isFingerprint).trans ((ih _ (awaited_advance _ _ 1 awaited) rest).trans ?_)
      rw [Frame.advance_more, List.length_cons, Nat.add_comm]
  | unfiltered execution isUnfiltered counted traced rows isResult isJournal _ ih => exact ih frames awaited rest
  | @merged scope own leaves inside later execution isFiltered opened started counted traced rows isResult isJournal
      within all _ ihWithin ihLater =>
      have opens := scan_opening execution opened started frames
        (Journal.events (inside ++ (execution.merging rows counted traced ++ later)) ++ rest)
      rw [Journal.events_append, List.append_assoc, opens, Journal.events_append, List.append_assoc,
        ihWithin _ (awaited_opened execution frames)]
      exact (if_pos ⟨by simp [Frame.awaits], by simp [all.length_eq]⟩).trans (ihLater frames awaited rest)
  | @failed scope own leaves inside later execution isFiltered opened started traced error failureClass origin isResult
      isJournal within _ ihWithin ihLater =>
      have opens := scan_opening execution opened started frames
        (Journal.events (inside ++ (execution.failing failureClass origin traced ++ later)) ++ rest)
      rw [Journal.events_append, List.append_assoc, opens, Journal.events_append, List.append_assoc,
        ihWithin _ (awaited_opened execution frames)]
      exact (if_pos rfl).trans (ihLater frames awaited rest)

end Told

inductive TraceCounter where
  | starts | leaves | resolved | rows | skipped | merged
deriving DecidableEq, Repr

def TraceNote.share : TraceCounter → TraceNote → Nat
  | .starts, .planStart _ _ => 1
  | .leaves, .planStart leaves _ => leaves
  | .resolved, .leafResolved _ _ _ _ => 1
  | .rows, .leafResolved _ _ rows _ => rows
  | .skipped, .leafSkipped _ _ => 1
  | .merged, .mergeFinish _ => 1
  | _, _ => 0

def TraceNote.total (counter : TraceCounter) (trace : List (Fingerprint × TraceNote)) : Nat :=
  (trace.map fun event => event.2.share counter).sum

def Metric.told : TraceCounter → Metric → Nat
  | .starts, .planEvaluated _ unfiltered => if unfiltered then 0 else 1
  | .leaves, .planEvaluated leaves _ => leaves
  | .resolved, .leafResolved _ => 1
  | .rows, .leafResolved rows => rows
  | .skipped, .leafSkipped => 1
  | .merged, .planEvaluated _ unfiltered => if unfiltered then 1 else 0
  | .merged, .mergeFinish _ => 1
  | _, _ => 0

namespace Metric

theorem aside_told (metric : Metric) (isAside : (Event.counted metric).Aside) (counter : TraceCounter) :
    metric.told counter = 0 := by
  cases metric <;> first | exact absurd isAside id | cases counter <;> rfl

theorem start_told (counter : TraceCounter) (leaves depth : Nat) :
    (Metric.planEvaluated leaves false).told counter = (TraceNote.planStart leaves depth).share counter := by
  cases counter <;> rfl

theorem resolved_told (counter : TraceCounter) (path : Path) (filter : String) (rows attempts : Nat) :
    (Metric.leafResolved rows).told counter = (TraceNote.leafResolved path filter rows attempts).share counter := by
  cases counter <;> rfl

theorem skipped_told (counter : TraceCounter) (path : Path) (filter : String) :
    Metric.leafSkipped.told counter = (TraceNote.leafSkipped path filter).share counter := by
  cases counter <;> rfl

theorem merged_told (counter : TraceCounter) (rows : Nat) :
    (Metric.mergeFinish rows).told counter = (TraceNote.mergeFinish rows).share counter := by
  cases counter <;> rfl

theorem unfiltered_told (counter : TraceCounter) (rows : Nat) :
    (Metric.planEvaluated 0 true).told counter = (TraceNote.mergeFinish rows).share counter := by
  cases counter <;> rfl

theorem failed_told (counter : TraceCounter) (failureClass : FailureClass) (origin : Origin) :
    (TraceNote.error failureClass origin).share counter = 0 := by
  cases counter <;> rfl

end Metric

theorem Told.totals {σ : Type} {scope : Option (Execution σ)} {leaves : List PlacedLeaf} {journal : Journal}
    (told : Told scope leaves journal) (counter : TraceCounter) :
    (journal.metrics.map (Metric.told counter)).sum = TraceNote.total counter journal.trace := by
  rw [TraceNote.total]
  induction told with
  | nothing scope => rfl
  | aside entry isAside _ ih =>
      obtain ⟨depth, time, event⟩ := entry
      cases event with
      | counted metric =>
          rw [Journal.metrics_counted, List.map_cons, List.sum_cons, metric.aside_told isAside, Nat.zero_add]
          exact ih
      | traced fingerprint note => exact absurd isAside id
      | _ => exact ih
  | resolved counted traced placed rows attempts _ ih =>
      have same := Metric.resolved_told counter placed.path placed.leaf.filter rows attempts
      exact congrArg₂ (· + ·) same ih
  | skipped counted traced placed _ ih =>
      have same := Metric.skipped_told counter placed.path placed.leaf.filter
      exact congrArg₂ (· + ·) same ih
  | unfiltered execution isUnfiltered counted traced rows isResult isJournal _ ih =>
      have same := Metric.unfiltered_told counter rows.size
      exact congrArg₂ (· + ·) same ih
  | merged execution isFiltered opened started counted traced rows isResult isJournal within all _ ihWithin ihLater =>
      have opens := Metric.start_told counter execution.leaves.length execution.engine.depth
      have merges := Metric.merged_told counter rows.size
      simp [ihWithin, ihLater, opens, merges]
  | failed execution isFiltered opened started traced error failureClass origin isResult isJournal within _ ihWithin
      ihLater =>
      have opens := Metric.start_told counter execution.leaves.length execution.engine.depth
      have fails := Metric.failed_told counter failureClass origin
      simp [ihWithin, ihLater, opens, fails]

structure Agrees (trace : List (Fingerprint × TraceNote)) (operations : Operations) : Prop where
  started : TraceNote.total .starts trace + operations.plansUnfiltered.value = operations.plansEvaluated.value
  planned : TraceNote.total .leaves trace = operations.planLeaves.value
  resolved : TraceNote.total .resolved trace = operations.leavesResolved.value
  returned : TraceNote.total .rows trace = operations.rowsResolved.value
  skipped : TraceNote.total .skipped trace = operations.leavesSkipped.value
  merged : TraceNote.total .merged trace = operations.merges.value + operations.plansUnfiltered.value

namespace Metric

theorem starts_share (metric : Metric) :
    metric.told .starts + metric.share .plansUnfiltered = metric.share .plansEvaluated := by
  cases metric with
  | planEvaluated leaves unfiltered => cases unfiltered <;> rfl
  | _ => rfl

theorem merged_share (metric : Metric) :
    metric.told .merged = metric.share .merges + metric.share .plansUnfiltered := by
  cases metric with
  | planEvaluated leaves unfiltered => cases unfiltered <;> rfl
  | _ => rfl

theorem total_starts (events : List Metric) :
    (events.map (told .starts)).sum + total .plansUnfiltered events = total .plansEvaluated events := by
  rw [total, total, ← List.sum_map_add]
  exact congrArg List.sum (List.map_congr_left fun metric _ => metric.starts_share)

theorem total_merged (events : List Metric) :
    (events.map (told .merged)).sum = total .merges events + total .plansUnfiltered events := by
  rw [total, total, ← List.sum_map_add]
  exact congrArg List.sum (List.map_congr_left fun metric _ => metric.merged_share)

end Metric

theorem Told.agrees {σ : Type} {journal : Journal} (told : Told (none : Option (Execution σ)) [] journal)
    (unsaturated : Metric.Unsaturated journal.metrics) :
    Agrees journal.trace (Metrics.zero.countAll journal.metrics).operations := by
  have shows (counter : OperationCounter) :
      ((Metrics.zero.countAll journal.metrics).operations.counter counter).value =
        Metric.total counter journal.metrics :=
    Metrics.operation_total _ counter (unsaturated.1 counter)
  have same (traced : TraceCounter) (counter : OperationCounter)
      (pointwise : ∀ metric, Metric.told traced metric = Metric.share counter metric) :
      TraceNote.total traced journal.trace =
        ((Metrics.zero.countAll journal.metrics).operations.counter counter).value := by
    rw [shows, ← told.totals, funext pointwise, Metric.total]
  refine ⟨?_, same .leaves .planLeaves ?_, same .resolved .leavesResolved ?_, same .rows .rowsResolved ?_,
    same .skipped .leavesSkipped ?_, ?_⟩
  · rw [← told.totals]
    exact (congrArg _ (shows .plansUnfiltered)).trans ((Metric.total_starts _).trans (shows .plansEvaluated).symm)
  · exact fun metric => by cases metric <;> rfl
  · exact fun metric => by cases metric <;> rfl
  · exact fun metric => by cases metric <;> rfl
  · exact fun metric => by cases metric <;> rfl
  · rw [← told.totals, Metric.total_merged]
    exact (congrArg₂ (· + ·) (shows .merges) (shows .plansUnfiltered)).symm

namespace Manager

variable {σ : Type}

-- In every session the trace is nested as the evaluations are, and the counters agree with it.
theorem trace_agrees (manager : Manager σ) (world : World σ) (steps : List (Step σ)) :
    Told (none : Option (Execution σ)) [] (manager.session world steps) ∧
      Frame.scan [] (manager.session world steps).events = some [] ∧
      (Metric.Unsaturated (manager.session world steps).metrics →
        Agrees (manager.session world steps).trace
          (Metrics.zero.countAll (manager.session world steps).metrics).operations) := by
  have told := manager.session_told world steps
  have scanned := told.scanned [] (by simp [Told.Awaited]) []
  rw [List.append_nil] at scanned
  exact ⟨told, scanned, told.agrees⟩

end Manager

def oddNode : Node := .leaf ⟨"odd", "which?"⟩

def oddSteps : List (Step Unit) :=
  [.execute "wide" (.ofNode oddNode), .run "wide" "all", .execute "wide" (.ofNode bothNode)]

theorem odd_leaves : oddNode.placedLeaves [] = [⟨[.first (.filter "odd")], ⟨"odd", "which?"⟩⟩] := by
  rw [Node.placed_leaves_positions]
  rfl

theorem odd_unknown : widePipeline.registry.contains "odd" = false := by
  change (Registry.only "both" bothResolver).contains "odd" = false
  rw [Registry.only_contains]
  decide

theorem odd_chosen (evaluation : Evaluation Unit) (isRegistry : evaluation.registry = widePipeline.registry)
    (skips : evaluation.engine.config.missingFilter = .skip) (path : Path) :
    evaluation.choose [⟨path, ⟨"odd", "which?"⟩⟩] = (evaluation.count .leafSkipped >>= fun _ =>
      evaluation.trace (.leafSkipped path "odd") >>= fun _ => .done []) := by
  rw [Evaluation.choose, skips]
  simp [Evaluation.skipUnknown, isRegistry, odd_unknown]

theorem odd_execute (engine : Engine Unit) (skips : engine.config.missingFilter = .skip) (world : World Unit) :
    (widePipeline.execute engine (.ofNode oddNode) world).world = world ∧
      (widePipeline.execute engine (.ofNode oddNode) world).journal.metrics =
        [.planEvaluated 1 false, .leafSkipped, .mergeFinish 0] := by
  let evaluation := Evaluation.ofPlan engine widePipeline.registry (.ofNode oddNode)
  obtain ⟨journal, ends, isMetrics⟩ : ∃ journal,
      (evaluation.evaluate.mapError PipelineError.evaluate) world = ⟨.ok .empty, world, journal⟩ ∧
        journal.metrics = [.planEvaluated 1 false, .leafSkipped] := by
    rw [evaluation.evaluate_root oddNode rfl, Evaluation.evaluateNode, Evaluation.storeLeaves, odd_leaves,
      odd_chosen evaluation rfl skips]
    exact ⟨_, rfl, rfl⟩
  have isFiltered : (Plan.ofNode oddNode).isUnfiltered = false := rfl
  simp only [Pipeline.execute, isFiltered, Bool.false_eq_true, if_false]
  rw [Action.bind_after ends, Pipeline.merge, empty_merged, Journal.metrics_append, isMetrics]
  exact ⟨rfl, rfl⟩

theorem odd_metrics : (wideManager.session ⟨(), 0⟩ oddSteps).metrics =
    [.planEvaluated 1 false, .leafSkipped, .mergeFinish 0,
      .pipelineStart "wide" false, .planEvaluated 0 true, .pipelineFinish "wide" 0] ++ bothMetrics := by
  have skips : (wideManager.engineAt ⟨⟨0, none⟩, 0, 999 + 1⟩ 0).config.missingFilter = .skip := by
    rw [wide_engine]
    rfl
  obtain ⟨kept, isMetrics⟩ := odd_execute _ skips ⟨(), 0⟩
  rw [← wide_execute (.ofNode oddNode) ⟨(), 0⟩] at kept isMetrics
  have executed : (wideManager.execute "wide" (.ofNode bothNode) ⟨(), 0⟩).journal.metrics = bothMetrics := by
    rw [wide_execute]
    exact (both_executed 0 0 999 ⟨(), 0⟩).2.1
  simp only [oddSteps, Manager.session, Step.take, Journal.metrics_append, kept, isMetrics, wide_run_all, executed]
  rfl

theorem odd_unsaturated : Metric.Unsaturated (wideManager.session ⟨(), 0⟩ oddSteps).metrics := by
  rw [odd_metrics]
  refine ⟨fun counter => ?_, fun name counter => ?_⟩
  · cases counter <;> decide
  · by_cases same : "wide" = name <;> cases counter <;>
      simp [bothMetrics, Metric.totalOf, Metric.shareOf, same, maxWord64]

theorem trace_agrees_odd :
    Metric.Unsaturated (wideManager.session ⟨(), 0⟩ oddSteps).metrics ∧
      Agrees (wideManager.session ⟨(), 0⟩ oddSteps).trace
        (Metrics.zero.countAll (wideManager.session ⟨(), 0⟩ oddSteps).metrics).operations ∧
      TraceNote.total .starts (wideManager.session ⟨(), 0⟩ oddSteps).trace = 2 ∧
      TraceNote.total .skipped (wideManager.session ⟨(), 0⟩ oddSteps).trace = 1 ∧
      TraceNote.total .merged (wideManager.session ⟨(), 0⟩ oddSteps).trace = 4 := by
  have agrees := (wideManager.trace_agrees ⟨(), 0⟩ oddSteps).2.2 odd_unsaturated
  refine ⟨odd_unsaturated, agrees, ?_, ?_, ?_⟩
  · have started := agrees.started
    rw [odd_metrics] at started
    exact Nat.add_right_cancel (started.trans (by decide : _ = 2 + _))
  · rw [agrees.skipped, odd_metrics]
    decide
  · rw [agrees.merged, odd_metrics]
    decide

end FilterPlan
