import FilterPlan.Proofs.Attempts
import FilterPlan.Proofs.Metrics
import FilterPlan.Proofs.Nesting

set_option autoImplicit false

namespace FilterPlan

namespace Run

variable {σ : Type}

def succeeded (run : Run σ) : Bool :=
  match run.outcome.result with
  | .ok _ => true
  | .error _ => false

def returned (run : Run σ) : Nat :=
  match run.outcome.result with
  | .ok rows => rows.size
  | .error _ => 0

def marks (run : Run σ) : List Metric :=
  [.pipelineStart run.name (run.depth > 0), Pipeline.closing run.name run.outcome.result]

def of (name : String) (runs : List (Run σ)) : List (Run σ) := runs.filter fun run => run.name = name

end Run

namespace Metric

-- The pipelines whose runs are still open after some events, the innermost first. There is no answer when an
-- event closes another run than the innermost.
def unclosed : List String → List Metric → Option (List String)
  | names, [] => some names
  | names, .pipelineStart name _ :: rest => unclosed (name :: names) rest
  | name :: names, .pipelineFinish closed _ :: rest | name :: names, .pipelineError closed :: rest =>
      if closed = name then unclosed names rest else none
  | [], .pipelineFinish _ _ :: _ | [], .pipelineError _ :: _ => none
  | names, _ :: rest => unclosed names rest

theorem unclosed_inner (names : List String) (metric : Metric) (rest : List Metric)
    (isInner : (Event.counted metric).Inner) : unclosed names (metric :: rest) = unclosed names rest := by
  cases metric <;> first | rfl | exact absurd isInner id

theorem unclosed_closing (name : String) (names : List String) (result : Except PipelineError IdentitySet)
    (rest : List Metric) :
    unclosed (name :: names) (Pipeline.closing name result :: rest) = unclosed names rest := by
  cases result <;> simp [Pipeline.closing, unclosed]

end Metric

namespace Bracketed

variable {σ : Type} {level : Nat} {journal : Journal} {runs : List (Run σ)}

theorem closed (bracketed : Bracketed level journal runs) (names : List String) (rest : List Metric) :
    Metric.unclosed names (journal.metrics ++ rest) = Metric.unclosed names rest := by
  induction bracketed generalizing names rest with
  | nothing level => rfl
  | inner site time event isInner _ ih =>
      cases event with
      | counted metric =>
          rw [Journal.metrics_counted, List.cons_append, Metric.unclosed_inner names metric _ isInner]
          exact ih names rest
      | _ => exact ih names rest
  | call site opened closed path filter instruction attempt outcome _ _ ihWithin ihLater =>
      change Metric.unclosed names (Journal.metrics (_ ++ _) ++ rest) = _
      rw [Journal.metrics_append, List.append_assoc, ihWithin]
      exact ihLater names rest
  | run run opened closed isJournal _ _ ihWithin ihLater =>
      rw [Run.opening, Run.closing, Journal.metrics_counted, Journal.metrics_append, Journal.metrics_counted,
        List.cons_append, List.append_assoc, Metric.unclosed, ihWithin, List.cons_append, Metric.unclosed_closing]
      exact ihLater names rest

theorem sum_marks (bracketed : Bracketed level journal runs) (measure : Metric → Nat)
    (inner : ∀ metric, (Event.counted metric).Inner → measure metric = 0) :
    (journal.metrics.map measure).sum = (runs.map fun run => (run.marks.map measure).sum).sum := by
  induction bracketed with
  | nothing level => rfl
  | inner site time event isInner _ ih =>
      cases event with
      | counted metric =>
          rw [Journal.metrics_counted, List.map_cons, List.sum_cons, inner metric isInner, Nat.zero_add]
          exact ih
      | _ => exact ih
  | call site opened closed path filter instruction attempt outcome _ _ ihWithin ihLater =>
      change ((Journal.metrics (_ ++ _)).map measure).sum = _
      rw [Journal.metrics_append, List.map_append, List.sum_append, ihWithin, List.map_append, List.sum_append,
        ← ihLater]
      rfl
  | run run opened closed isJournal _ _ ihWithin ihLater =>
      rw [Run.opening, Run.closing, Journal.metrics_counted, Journal.metrics_append, Journal.metrics_counted]
      simp only [List.map_cons, List.map_append, List.sum_cons, List.sum_append, ihWithin, ihLater, Run.marks,
        List.map_nil, List.sum_nil]
      omega

end Bracketed

namespace Run

variable {σ : Type}

def figure : PipelineCounter → Run σ → Nat
  | .runs, _ => 1
  | .nestedRuns, run => if run.depth > 0 then 1 else 0
  | .rowsReturned, run => run.returned
  | .failures, run => if !run.succeeded then 1 else 0

theorem marks_share (run : Run σ) (name : String) (counter : PipelineCounter) :
    (run.marks.map (Metric.shareOf name counter)).sum = if run.name = name then run.figure counter else 0 := by
  cases ended : run.outcome.result <;> cases counter <;>
    simp [marks, Pipeline.closing, Metric.shareOf, figure, returned, succeeded, ended]

theorem sum_of (name : String) (runs : List (Run σ)) (measure : Run σ → Nat) :
    (runs.map fun run => if run.name = name then measure run else 0).sum = ((Run.of name runs).map measure).sum := by
  induction runs with
  | nil => rfl
  | cons run rest ih =>
      rw [of] at ih
      by_cases same : run.name = name <;> simp [of, same, ih]

theorem sum_returned (runs : List (Run σ)) :
    (runs.map returned).sum = ((runs.filter succeeded).map returned).sum := by
  induction runs with
  | nil => rfl
  | cons run rest ih =>
      cases ended : run.outcome.result <;> simp [returned, succeeded, ended, ih]

end Run

theorem Bracketed.totals {σ : Type} {level : Nat} {journal : Journal} {runs : List (Run σ)}
    (bracketed : Bracketed level journal runs) (name : String) (counter : PipelineCounter) :
    Metric.totalOf name counter journal.metrics = ((Run.of name runs).map (Run.figure counter)).sum := by
  have inner (metric : Metric) (isInner : (Event.counted metric).Inner) : metric.shareOf name counter = 0 := by
    cases metric <;> first | exact absurd isInner id | cases counter <;> rfl
  rw [Metric.totalOf, bracketed.sum_marks _ inner, ← Run.sum_of]
  simp only [Run.marks_share]

structure Balanced {σ : Type} (runs : List (Run σ)) (metrics : Metrics) : Prop where
  started : ∀ name, (metrics.pipeline name).runs.value = (Run.of name runs).length
  failed : ∀ name, (metrics.pipeline name).failures.value = (Run.of name runs).countP fun run => !run.succeeded
  ended : ∀ name, (metrics.pipeline name).runs.value =
    (Run.of name runs).countP Run.succeeded + (metrics.pipeline name).failures.value
  nested : ∀ name, (metrics.pipeline name).nestedRuns.value = (Run.of name runs).countP fun run => run.depth > 0
  nested_among : ∀ name, (metrics.pipeline name).nestedRuns.value ≤ (metrics.pipeline name).runs.value
  returned : ∀ name, (metrics.pipeline name).rowsReturned.value =
    (((Run.of name runs).filter Run.succeeded).map Run.returned).sum
  nested_total : metrics.operations.nestedRuns.value = metrics.nestedRuns

theorem Bracketed.balanced {σ : Type} {level : Nat} {journal : Journal} {runs : List (Run σ)}
    (bracketed : Bracketed level journal runs) (unsaturated : Metric.Unsaturated journal.metrics) :
    Balanced runs (Metrics.zero.countAll journal.metrics) := by
  have shows (name : String) (counter : PipelineCounter) :
      (((Metrics.zero.countAll journal.metrics).pipeline name).counter counter).value =
        ((Run.of name runs).map (Run.figure counter)).sum := by
    rw [Metrics.pipeline_total _ _ _ (unsaturated.2 name counter), bracketed.totals]
  have started (name : String) : ((Metrics.zero.countAll journal.metrics).pipeline name).runs.value =
      (Run.of name runs).length := by
    have counted := (shows name .runs).trans (count_sum _ fun _ => true)
    rwa [List.countP_true] at counted
  have failed (name : String) : ((Metrics.zero.countAll journal.metrics).pipeline name).failures.value =
      (Run.of name runs).countP fun run => !run.succeeded :=
    (shows name .failures).trans (count_sum _ _)
  have nested (name : String) : ((Metrics.zero.countAll journal.metrics).pipeline name).nestedRuns.value =
      (Run.of name runs).countP fun run => run.depth > 0 := by
    have counted := count_sum (Run.of name runs) fun run => run.depth > 0
    simp only [decide_eq_true_eq] at counted
    exact (shows name .nestedRuns).trans counted
  refine ⟨started, failed, fun name => ?_, nested, fun name => ?_, fun name => ?_, ?_⟩
  · rw [started, failed, List.length_eq_countP_add_countP Run.succeeded]
    simp
  · rw [nested, started]
    exact List.countP_le_length
  · exact (shows name .rowsReturned).trans (Run.sum_returned _)
  · have fits := unsaturated.1 .nestedRuns
    exact (Metrics.operation_total _ .nestedRuns fits).trans (Metrics.nested_runs_total _ fits).symm

namespace Manager

variable {σ : Type}

theorem session_brackets (manager : Manager σ) (world : World σ) (steps : List (Step σ)) :
    ∃ runs : List (Run σ), Bracketed 0 (manager.session world steps) runs := by
  refine session_kept (fun journal => ∃ runs : List (Run σ), Bracketed 0 journal runs) ⟨[], .nothing 0⟩ ?_ ?_
    manager world steps
  · rintro before after ⟨first, bracketedBefore⟩ ⟨second, bracketedAfter⟩
    exact ⟨first ++ second, .append 0 before after first second bracketedBefore bracketedAfter⟩
  · intro step manager world
    obtain ⟨runs, bracketed, _⟩ := manager.step_brackets step world
    exact ⟨runs, bracketed⟩

structure Accounted (manager : Manager σ) : Prop where
  sessions : ∀ (world : World σ) (steps : List (Step σ)), ∃ runs : List (Run σ),
    Bracketed 0 (manager.session world steps) runs ∧
    Metric.unclosed [] (manager.session world steps).metrics = some [] ∧
    (Metric.Unsaturated (manager.session world steps).metrics →
      Balanced runs (Metrics.zero.countAll (manager.session world steps).metrics))
  requested : ∀ query depth, depth ≤ manager.config.maxNestingDepth →
    ∀ name question pipeline, manager.find name = .ok pipeline → ∀ world, ∃ nested : List (Run σ),
      Bracketed (query.level + depth) (manager.runAt query depth name question world).journal
        (⟨manager, query, depth, name, question, world⟩ :: nested) ∧
      ∀ run ∈ nested, query.level + depth < run.level
  refused : ∀ query depth name question,
    (manager.config.maxNestingDepth < depth ∨ ∃ error, manager.find name = .error error) →
      ∀ world, ∃ error, manager.runAt query depth name question world = ⟨.error error, world, []⟩
  executed : ∀ name plan world, ∃ nested : List (Run σ),
    Bracketed 0 (manager.execute name plan world).journal nested ∧ ∀ run ∈ nested, 0 < run.level
  -- What a resolver asks for stands one deeper in the same query. A run that it starts by a call of the manager is
  -- the first of a query, and is therefore not told to be nested though it stands inside a call of a resolver.
  asked : ∀ query depth name question world,
    ((manager.engineAt query depth).serve.ask name question world).journal =
      (manager.runAt query (depth + 1) name question world).journal
  entered : ∀ deadline level stack depth name question pipeline, manager.find name = .ok pipeline → ∀ world,
    ∃ nested : List (Run σ), Bracketed (level + depth + 1)
        ((manager.engineAt ⟨deadline, level, stack + 1⟩ depth).serve.enter (.run name question) world).journal
        (⟨manager, ⟨⟨world.now, manager.config.queryTimeoutMs⟩, level + depth + 1, stack⟩, 0, name, question, world⟩
          :: nested) ∧
      ∀ run ∈ nested, level + depth + 1 < run.level
  -- A run is told to be nested if and only if it is not the first of its query. Where resolvers only ask, that is if
  -- and only if it is started inside a call of a resolver.
  flagged : ∀ (step : Step σ) world, ∀ entry ∈ step.journal manager world, ∀ name nested,
    entry.event = .counted (.pipelineStart name nested) → (nested = true ↔ 0 < entry.site.depth) ∧
      (manager.Asks → (nested = true ↔ 0 < entry.site.level))

theorem begins_flagged (manager : Manager σ) (step : Step σ) (world : World σ) (entry : Entry)
    (inside : entry ∈ step.journal manager world) (name : String) (nested : Bool)
    (starts : entry.event = .counted (.pipelineStart name nested)) :
    (nested = true ↔ 0 < entry.site.depth) ∧ (manager.Asks → (nested = true ↔ 0 < entry.site.level)) := by
  obtain ⟨runs, bracketed, _⟩ := manager.step_brackets step world
  obtain ⟨run, _, isSite, _, isFlag⟩ := bracketed.starts _ _ _ name nested entry inside starts
  have isDepth : nested = true ↔ 0 < entry.site.depth := by
    rw [isFlag, ← isSite, decide_eq_true_iff]
    rfl
  refine ⟨isDepth, fun asks => ?_⟩
  obtain ⟨counted, bracketed, counts⟩ := manager.step_counts asks step world
  obtain ⟨other, among, isSite, _⟩ := bracketed.starts _ _ _ name nested entry inside starts
  have isLevel : entry.site.depth = entry.site.level := by
    rw [← isSite]
    exact (counts other among).2
  rw [isDepth, isLevel]

theorem entered_bracket (manager : Manager σ) (deadline : Deadline) (level stack depth : Nat) (name question : String)
    (pipeline : Pipeline σ) (found : manager.find name = .ok pipeline) (world : World σ) :
    ∃ nested : List (Run σ), Bracketed (level + depth + 1)
        ((manager.engineAt ⟨deadline, level, stack + 1⟩ depth).serve.enter (.run name question) world).journal
        (⟨manager, ⟨⟨world.now, manager.config.queryTimeoutMs⟩, level + depth + 1, stack⟩, 0, name, question, world⟩
          :: nested) ∧
      ∀ run ∈ nested, level + depth + 1 < run.level := by
  let query : Query := ⟨⟨world.now, manager.config.queryTimeoutMs⟩, level + depth + 1, stack⟩
  have isJournal : ((manager.engineAt ⟨deadline, level, stack + 1⟩ depth).serve.enter (.run name question) world).journal =
      (manager.runAt query 0 name question world).journal := by
    change (((manager.scopeAt ⟨deadline, level, stack + 1⟩ depth).fresh (.run name question)).bind _ world).journal = _
    rw [Engine.enter_journal]
    exact Action.bind_pure_journal (manager.beginRun (manager.meetWithin stack) (level + depth + 1) name question) _ world
  obtain ⟨nested, bracketed, known⟩ := manager.run_at_bracket manager.Owns query 0 (Nat.zero_le _) name question
    pipeline found world (manager.deeper_brackets query 0)
  rw [isJournal]
  exact ⟨nested, bracketed, fun run inside => (known run inside).2⟩

theorem runs_accounted (manager : Manager σ) : manager.Accounted where
  sessions := by
    intro world steps
    obtain ⟨runs, bracketed⟩ := manager.session_brackets world steps
    have closed := bracketed.closed [] []
    rw [List.append_nil] at closed
    exact ⟨runs, bracketed, closed, bracketed.balanced⟩
  requested := by
    intro query depth within name question pipeline found world
    obtain ⟨nested, bracketed, known⟩ := manager.run_at_bracket manager.Owns query depth within name question pipeline
      found world (manager.deeper_brackets query depth)
    exact ⟨nested, bracketed, fun run inside => (known run inside).2⟩
  refused := manager.run_at_refused
  executed := by
    intro name plan world
    obtain ⟨nested, bracketed, known⟩ := manager.execute_nests name plan world
    exact ⟨nested, bracketed, fun run inside => (known run inside).2⟩
  asked := fun _ _ _ _ _ => rfl
  entered := manager.entered_bracket
  flagged := manager.begins_flagged

end Manager

def bothResolver : Resolver Unit := fun _ _ =>
  .ask "wide" "all" fun _ => .enter (.run "wide" "all") fun _ => .done (.error (.failed "no rows"))

def widePipeline : Pipeline Unit :=
  ⟨"wide", "Selects everything", .only "both" bothResolver, .empty,
    fun request state =>
      ⟨if request.question = "all" then .ok .unfiltered else .error (.failed "not everything"), state, 0⟩, none⟩

def wideManager : Manager Unit := .only .default "wide" widePipeline

theorem wide_found : wideManager.find "wide" = .ok widePipeline := Manager.only_find .default "wide" widePipeline

theorem wide_config : wideManager.config = .default := Manager.only_config .default "wide" widePipeline

theorem wide_engine (query : Query) (depth : Nat) : wideManager.engineAt query depth =
    ⟨.default, query.deadline, depth, some (wideManager.scopeAt query depth)⟩ := by
  rw [Manager.engineAt, wide_config]

theorem wide_all (started level stack depth : Nat) (within : depth ≤ 4) (world : World Unit) :
    ∃ inside : Journal, wideManager.runAt ⟨⟨started, none⟩, level, stack⟩ depth "wide" "all" world = ⟨.ok .empty, world,
        ⟨⟨depth, level + depth, ⟨started, none⟩⟩, world.now, .counted (.pipelineStart "wide" (depth > 0))⟩ :: inside⟩ ∧
      inside.metrics = [.planEvaluated 0 true, .pipelineFinish "wide" 0] := by
  have within : depth ≤ wideManager.config.maxNestingDepth := by rwa [wide_config]
  rw [Manager.run_at_found _ _ _ within _ _ _ wide_found, wide_engine]
  exact ⟨_, rfl, rfl⟩

theorem wide_some (started level stack : Nat) (world : World Unit) :
    let outcome := wideManager.runAt ⟨⟨started, none⟩, level, stack⟩ 0 "wide" "some" world
    outcome.world = world ∧ outcome.journal.metrics =
      [.pipelineStart "wide" false, .planRetry, .planRetry, .planFailure, .pipelineError "wide"] := by
  rw [Manager.run_at_found _ _ _ (Nat.zero_le _) _ _ _ wide_found, wide_engine]
  exact ⟨rfl, rfl⟩

theorem wide_met (level stack : Nat) (world : World Unit) :
    ∃ inside : Journal, wideManager.meetWithin (stack + 1) level (.run "wide" "all") world =
        ⟨.ok (.ok ⟨"wide", .empty⟩), world,
          ⟨⟨0, level, ⟨world.now, none⟩⟩, world.now, .counted (.pipelineStart "wide" false)⟩ :: inside⟩ ∧
      inside.metrics = [.planEvaluated 0 true, .pipelineFinish "wide" 0] := by
  obtain ⟨inside, ran, isMetrics⟩ := wide_all world.now level stack 0 (by decide) world
  refine ⟨inside, ?_, isMetrics⟩
  have begun : wideManager.beginRun (wideManager.meetWithin stack) level "wide" "all" world =
      ⟨.ok .empty, world,
        ⟨⟨0, level, ⟨world.now, none⟩⟩, world.now, .counted (.pipelineStart "wide" false)⟩ :: inside⟩ := by
    rw [Manager.begin_run_at, wide_config, Manager.start_then]
    exact ran
  have met : wideManager.meet (wideManager.meetWithin stack) level (.run "wide" "all") world =
      ⟨.ok ⟨"wide", .empty⟩, world,
        ⟨⟨0, level, ⟨world.now, none⟩⟩, world.now, .counted (.pipelineStart "wide" false)⟩ :: inside ++ []⟩ :=
    Action.bind_after begun
  rw [Manager.meetWithin, Action.attempt, met, List.append_nil]

def bothNode : Node := .leaf ⟨"both", "x"⟩

theorem both_leaves : bothNode.placedLeaves [] = [⟨[.first (.filter "both")], ⟨"both", "x"⟩⟩] := by
  rw [Node.placed_leaves_positions]
  rfl

theorem both_performed (started level stack : Nat) (world : World Unit) (context : ResolveContext) :
    ∃ asked met : Journal,
      ((bothResolver "x" context).perform (wideManager.engineAt ⟨⟨started, none⟩, level, stack + 1⟩ 0).serve) world =
        ⟨.error (.failed "no rows"), world,
          ⟨⟨1, level + 1, ⟨started, none⟩⟩, world.now, .counted (.pipelineStart "wide" true)⟩ :: asked ++
            ⟨⟨0, level + 1, ⟨world.now, none⟩⟩, world.now, .counted (.pipelineStart "wide" false)⟩ :: met⟩ ∧
      asked.metrics = [.planEvaluated 0 true, .pipelineFinish "wide" 0] ∧
      met.metrics = [.planEvaluated 0 true, .pipelineFinish "wide" 0] := by
  obtain ⟨asked, ran, askedMetrics⟩ := wide_all started level (stack + 1) 1 (by decide) world
  obtain ⟨met, entered, metMetrics⟩ := wide_met (level + 1) stack world
  refine ⟨asked, met, ?_, askedMetrics, metMetrics⟩
  let access := (wideManager.engineAt ⟨⟨started, none⟩, level, stack + 1⟩ 0).serve
  let answers (_ : Option (Except PipelineError Answer)) : Action Unit ResolverError IdentitySet :=
    .ofExcept (.error (.failed "no rows"))
  let calls (_ : Except ResolverError IdentitySet) : Action Unit ResolverError IdentitySet :=
    access.enter (.run "wide" "all") >>= answers
  have enters : access.enter (.run "wide" "all") world = _ := Action.bind_after entered
  have called : calls (.ok .empty) world = _ := Action.bind_after enters
  have performed : ((access.ask "wide" "all").attempt >>= calls) world = _ :=
    Action.bind_after (Action.attempt_ended (Action.map_error_ended ResolverError.nested ran))
  refine performed.trans ?_
  rw [Except.mapError, called]
  simp [answers, Action.ofExcept, Action.done]

def bothPlaced : PlacedLeaf := ⟨[.first (.filter "both")], ⟨"both", "x"⟩⟩

def bothEvaluation (started level stack : Nat) : Evaluation Unit :=
  .ofPlan (wideManager.engineAt ⟨⟨started, none⟩, level, stack + 1⟩ 0) widePipeline.registry (.ofNode bothNode)

theorem both_found : widePipeline.registry.find "both" = .ok ⟨"", bothResolver⟩ := by
  change (Registry.only "both" bothResolver).find "both" = _
  rw [Registry.only_find, if_pos rfl]

theorem both_chosen (started level stack : Nat) :
    (bothEvaluation started level stack).choose [bothPlaced] = .done [bothPlaced] := by
  apply Evaluation.choose_known
  intro placed inside
  rw [List.mem_singleton.mp inside]
  exact (widePipeline.registry.contains_find "both").mpr ⟨_, both_found⟩

structure BothTold (level now : Nat) (journal : Journal) : Prop where
  metrics : journal.metrics = [.pipelineStart "wide" true, .planEvaluated 0 true, .pipelineFinish "wide" 0,
    .pipelineStart "wide" false, .planEvaluated 0 true, .pipelineFinish "wide" 0, .resolverFailure]
  fresh : ⟨⟨0, level + 1, ⟨now, none⟩⟩, now, .counted (.pipelineStart "wide" false)⟩ ∈ journal

theorem both_resolved (started level stack : Nat) (world : World Unit) :
    ((bothEvaluation started level stack).resolve bothPlaced).Does world fun result after journal =>
      result = .error (.resolver "both" bothPlaced.path 1 (.failed "no rows")) ∧ after = world ∧
        BothTold level world.now journal := by
  obtain ⟨asked, met, performed, askedMetrics, metMetrics⟩ := both_performed started level stack world
    ((bothEvaluation started level stack).context bothPlaced.path 0)
  have retries : (bothEvaluation started level stack).engine.config.resolverRetries = 0 := by
    change wideManager.config.resolverRetries = 0
    rw [wide_config]
    rfl
  have found : (bothEvaluation started level stack).registry.find bothPlaced.leaf.filter = .ok ⟨"", bothResolver⟩ :=
    both_found
  rw [Evaluation.resolve, found, retries]
  change ((bothEvaluation started level stack).rowsOf bothPlaced bothResolver 0 0).Does world _
  have asks : (bothEvaluation started level stack).ask bothPlaced bothResolver 0 world = _ := performed
  rw [Evaluation.rowsOf, Action.bind_does, Evaluation.call_unlimited _ rfl, Action.Does, asks]
  simp only [Evaluation.giveUp, Evaluation.count, Action.bind_does, Action.count_does, Action.fail_does]
  exact ⟨rfl, trivial, by simp [Journal.metrics_counted, Journal.metrics_uncounted, askedMetrics, metMetrics], by simp⟩

def bothMetrics : List Metric :=
  [.planEvaluated 1 false, .pipelineStart "wide" true, .planEvaluated 0 true, .pipelineFinish "wide" 0,
    .pipelineStart "wide" false, .planEvaluated 0 true, .pipelineFinish "wide" 0, .resolverFailure]

theorem both_executed (started level stack : Nat) (world : World Unit) :
    (widePipeline.execute (wideManager.engineAt ⟨⟨started, none⟩, level, stack + 1⟩ 0) (.ofNode bothNode)).Does world
      fun _ after journal => after = world ∧ journal.metrics = bothMetrics ∧
        ⟨⟨0, level + 1, ⟨world.now, none⟩⟩, world.now, .counted (.pipelineStart "wide" false)⟩ ∈ journal := by
  let evaluation := bothEvaluation started level stack
  have chooses : evaluation.choose [bothPlaced] = .done [bothPlaced] := both_chosen started level stack
  have leaves : bothNode.placedLeaves [] = [bothPlaced] := both_leaves
  have isFiltered : (Plan.ofNode bothNode).isUnfiltered = false := rfl
  simp only [Pipeline.execute, isFiltered, Bool.false_eq_true, if_false]
  change (evaluation.evaluate.mapError PipelineError.evaluate >>= _).Does world _
  rw [Action.bind_does, Action.map_error_does, evaluation.evaluate_root bothNode rfl, Evaluation.evaluateNode]
  apply Action.on_failure_does
  rw [Evaluation.storeLeaves, leaves, chooses]
  simp only [Evaluation.count, Evaluation.trace, Action.bind_does, Action.count_does, Action.record_does,
    Action.done_does, Evaluation.resolveAll]
  apply Action.does_weaken (both_resolved started level stack world)
  rintro _ _ journal ⟨rfl, rfl, told⟩
  dsimp only
  rw [Action.Does, Evaluation.fault_outcome]
  refine ⟨rfl, rfl, ?_, ?_⟩
  · simp [Journal.metrics_counted, Journal.metrics_uncounted, told.metrics, bothMetrics, Evaluation.faultMarks,
      EvaluateError.isTimeout]
  · simp [told.fresh]

theorem wide_outermost (deadline : Deadline) : wideManager.outermost deadline = ⟨deadline, 0, 999 + 1⟩ :=
  congrArg (Query.mk deadline 0) (Manager.only_stack .default "wide" widePipeline)

theorem wide_run_all (world : World Unit) :
    (wideManager.run "wide" "all" world).world = world ∧ (wideManager.run "wide" "all" world).journal.metrics =
      [.pipelineStart "wide" false, .planEvaluated 0 true, .pipelineFinish "wide" 0] := by
  obtain ⟨inside, ran, isMetrics⟩ := wide_all world.now 0 (999 + 1) 0 (Nat.zero_le _) world
  rw [Manager.run_from_start, wide_config, Manager.start_then, wide_outermost]
  exact ⟨congrArg Outcome.world ran, (congrArg (fun outcome => outcome.journal.metrics) ran).trans
    ((Journal.metrics_counted _ _ _ inside).trans (congrArg _ isMetrics))⟩

theorem wide_run_some (world : World Unit) :
    (wideManager.run "wide" "some" world).world = world ∧ (wideManager.run "wide" "some" world).journal.metrics =
      [.pipelineStart "wide" false, .planRetry, .planRetry, .planFailure, .pipelineError "wide"] := by
  rw [Manager.run_from_start, wide_config, Manager.start_then, wide_outermost]
  exact wide_some world.now 0 (999 + 1) world

theorem wide_execute (plan : Plan) (world : World Unit) : wideManager.execute "wide" plan world =
    widePipeline.execute (wideManager.engineAt ⟨⟨world.now, none⟩, 0, 999 + 1⟩ 0) plan world := by
  rw [Manager.execute_from_start, wide_found, wide_config]
  change widePipeline.execute (wideManager.engineAt (wideManager.outermost ⟨world.now, none⟩) 0) plan world = _
  rw [wide_outermost]

def wideSteps : List (Step Unit) := [.run "wide" "all", .run "wide" "some", .execute "wide" (.ofNode bothNode)]

theorem wide_metrics : (wideManager.session ⟨(), 0⟩ wideSteps).metrics =
    [.pipelineStart "wide" false, .planEvaluated 0 true, .pipelineFinish "wide" 0, .pipelineStart "wide" false,
      .planRetry, .planRetry, .planFailure, .pipelineError "wide"] ++ bothMetrics := by
  have executed : (wideManager.execute "wide" (.ofNode bothNode) ⟨(), 0⟩).journal.metrics = bothMetrics := by
    rw [wide_execute]
    exact (both_executed 0 0 999 ⟨(), 0⟩).2.1
  simp only [wideSteps, Manager.session, Step.take, Journal.metrics_append, wide_run_all, wide_run_some, executed]
  rfl

theorem wide_unsaturated : Metric.Unsaturated (wideManager.session ⟨(), 0⟩ wideSteps).metrics := by
  rw [wide_metrics]
  refine ⟨fun counter => ?_, fun name counter => ?_⟩
  · cases counter <;> decide
  · by_cases same : "wide" = name <;> cases counter <;> simp [bothMetrics, Metric.totalOf, Metric.shareOf, same, maxWord64]

-- Four runs, one of which fails. One is nested; another one is started in the same call, but by a call of the manager.
theorem runs_accounted_wide :
    Metric.Unsaturated (wideManager.session ⟨(), 0⟩ wideSteps).metrics ∧
      ∃ runs : List (Run Unit), Bracketed 0 (wideManager.session ⟨(), 0⟩ wideSteps) runs ∧
        Balanced runs (Metrics.zero.countAll (wideManager.session ⟨(), 0⟩ wideSteps).metrics) ∧
        (Run.of "wide" runs).length = 4 ∧ (Run.of "wide" runs).countP (fun run => !run.succeeded) = 1 ∧
        (Run.of "wide" runs).countP (fun run => run.depth > 0) = 1 := by
  refine ⟨wide_unsaturated, ?_⟩
  obtain ⟨runs, bracketed, _, balanced⟩ := wideManager.runs_accounted.sessions ⟨(), 0⟩ wideSteps
  have agrees := balanced wide_unsaturated
  refine ⟨runs, bracketed, agrees, ?_, ?_, ?_⟩
  · rw [← agrees.started, wide_metrics]
    decide
  · rw [← agrees.failed, wide_metrics]
    decide
  · rw [← agrees.nested, wide_metrics]
    decide

theorem fresh_run_unflagged :
    ¬ ∀ (step : Step Unit) (world : World Unit), ∀ entry ∈ step.journal wideManager world, ∀ name nested,
      entry.event = .counted (.pipelineStart name nested) → (nested = true ↔ 0 < entry.site.level) := by
  intro flagged
  have marked := (both_executed 0 0 999 ⟨(), 0⟩).2.2
  have isJournal : (Step.execute "wide" (.ofNode bothNode)).journal wideManager ⟨(), 0⟩ =
      (widePipeline.execute (wideManager.engineAt ⟨⟨0, none⟩, 0, 999 + 1⟩ 0) (.ofNode bothNode) ⟨(), 0⟩).journal := by
    rw [Step.journal, Step.take, wide_execute]
  rw [← isJournal] at marked
  have isFlag := flagged _ _ _ marked "wide" false rfl
  exact absurd (isFlag.mpr (Nat.succ_pos 0)) Bool.false_ne_true

end FilterPlan
