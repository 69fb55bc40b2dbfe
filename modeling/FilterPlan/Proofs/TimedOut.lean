import FilterPlan.Proofs.Deadline
import FilterPlan.Proofs.Metrics
import FilterPlan.Proofs.Planning

set_option autoImplicit false

namespace FilterPlan

def TimedOut {α : Type} (result : Except PipelineError α) : Prop :=
  ∃ error, result = .error (.evaluate error) ∧ error.isTimeout = true

def Journal.Evaluates (journal : Journal) : Prop :=
  ∃ entry ∈ journal, ∃ leaves, entry.event = .counted (.planEvaluated leaves false)

namespace Metric

theorem total_timeouts (events : List Metric) : total .timeouts events = events.count .timeout := by
  have each : share .timeouts = fun event => if event == .timeout then 1 else 0 := by
    funext event
    cases event <;> rfl
  rw [total, each, count_sum, List.count]

end Metric

namespace Journal

theorem evaluates_append (before after : Journal) :
    (before ++ after).Evaluates ↔ before.Evaluates ∨ after.Evaluates := by
  simp [Evaluates, or_and_right, exists_or]

theorem lacks_metrics (journal : Journal) : journal.Lacks ↔ .timeout ∈ journal.metrics := by
  rw [Lacks, metrics, List.mem_filterMap]
  apply exists_congr
  intro entry
  apply and_congr_right
  intro _
  cases entry.event <;> simp

/-- How a query that fails for lack of time shows in its journal and in the counter of such failures. -/
structure Tallies (journal : Journal) : Prop where
  told : journal.Lacks ↔ journal.Evaluates
  grown : journal.Evaluates → ∀ metrics : Metrics, metrics.operations.timeouts.value < maxWord64 →
    metrics.operations.timeouts.value < (metrics.countAll journal.metrics).operations.timeouts.value
  same : ¬ journal.Evaluates → ∀ metrics : Metrics,
    (metrics.countAll journal.metrics).operations.timeouts = metrics.operations.timeouts

theorem tallies_told (journal : Journal) (told : journal.Lacks ↔ journal.Evaluates) : journal.Tallies := by
  have counted (metrics : Metrics) : (metrics.countAll journal.metrics).operations.timeouts =
      metrics.operations.timeouts.add (journal.metrics.count .timeout) := by
    rw [← Metric.total_timeouts]
    exact metrics.count_all_operation journal.metrics .timeouts
  constructor
  case told => exact told
  case grown =>
    intro evaluates metrics room
    have some : 0 < journal.metrics.count .timeout :=
      List.count_pos_iff.mpr (journal.lacks_metrics.mp (told.mpr evaluates))
    have isCount : (metrics.countAll journal.metrics).operations.timeouts.value =
        min (metrics.operations.timeouts.value + journal.metrics.count .timeout) maxWord64 := by
      rw [counted]
      rfl
    omega
  case same =>
    intro idle metrics
    have none : journal.metrics.count .timeout = 0 :=
      List.count_eq_zero.mpr fun inside => idle (told.mp (journal.lacks_metrics.mpr inside))
    rw [counted, none, Counter.add_zero]

end Journal

namespace Evaluation

variable {σ : Type} (evaluation : Evaluation σ)

theorem evaluate_node_evaluates (node : Node) (base : Path) (world : World σ) :
    (evaluation.evaluateNode node base).Does world fun _ _ journal => journal.Evaluates := by
  have begins : (evaluation.storeLeaves (node.placedLeaves base)).Does world fun _ _ journal => journal.Evaluates := by
    rw [storeLeaves, count, Action.bind_does, Action.count_does]
    exact ⟨_, List.mem_cons_self, _, rfl⟩
  rw [evaluateNode]
  apply Action.on_failure_does
  apply Action.does_weaken begins
  intro result after journal evaluates
  cases result with
  | ok store => exact evaluates
  | error error =>
      dsimp only
      rw [Action.Does, fault_outcome]
      exact ⟨rfl, (Journal.evaluates_append _ _).mpr (Or.inl evaluates)⟩

theorem evaluate_evaluates (world : World σ) (error : EvaluateError)
    (failed : (evaluation.evaluate world).result = .error error) : (evaluation.evaluate world).journal.Evaluates := by
  cases planned : evaluation.plan.root with
  | none =>
      rw [evaluate, planned] at failed
      cases failed
  | some root =>
      rw [evaluation.evaluate_root root planned]
      exact evaluation.evaluate_node_evaluates root [] world

end Evaluation

namespace Pipeline

variable {σ : Type} (pipeline : Pipeline σ) (engine : Engine σ)

theorem generate_evaluates (question : String) (world : World σ) :
    ¬ (pipeline.generatePlan engine question world).journal.Evaluates := by
  rintro ⟨entry, inside, leaves, isEvaluation⟩
  have plain := ((pipeline.plan_for_writes engine question _ 0 none world).quiet entry inside).2
  rw [isEvaluation] at plain
  exact plain

theorem merge_in_time (evaluation : Evaluation σ) (store : Store) (world : World σ) :
    (merge evaluation store).Does world fun result _ _ => ¬ TimedOut result := by
  rw [merge]
  cases store.merge evaluation.engine.config.missingOperand with
  | ok rows => simp [TimedOut]
  | error error =>
      dsimp only
      rw [Evaluation.trace, Action.bind_does, Action.record_does]
      simp [TimedOut]

theorem execute_tells (plan : Plan) (world : World σ) :
    (pipeline.execute engine plan).Does world fun result _ journal =>
      TimedOut result → journal.Lacks ∧ journal.Evaluates := by
  let evaluation := Evaluation.ofPlan engine pipeline.registry plan
  have tells : evaluation.evaluate.Does world fun result _ journal =>
      ∀ error, result = .error error → error.isTimeout = true → journal.Lacks ∧ journal.Evaluates :=
    fun error failed isTimeout =>
      ⟨evaluation.marks_lack world error failed isTimeout, evaluation.evaluate_evaluates world error failed⟩
  rw [execute]
  by_cases unfiltered : plan.isUnfiltered
  · rw [if_pos unfiltered]
    rintro ⟨error, failed, _⟩
    cases failed
  · rw [if_neg unfiltered, Action.bind_does, Action.map_error_does]
    apply Action.does_weaken tells
    intro result after journal told
    cases result with
    | error error =>
        rintro ⟨other, same, isTimeout⟩
        exact told error rfl (by rwa [PipelineError.evaluate.inj (Except.error.inj same)])
    | ok store =>
        dsimp only [Except.mapError]
        rw [Action.bind_does]
        apply Action.does_weaken (merge_in_time evaluation store after)
        intro merged final rest inTime
        cases merged with
        | error error => exact fun timedOut => absurd timedOut inTime
        | ok rows =>
            rintro ⟨error, failed, _⟩
            cases failed

inductive Tardy (question : String) (world : World σ) (journal : Journal) : Prop where
  | planning (late : TimedOut (pipeline.generatePlan engine question world).result) (untold : ¬ journal.Lacks)
      (idle : ¬ journal.Evaluates)
  | evaluating (told : journal.Lacks) (evaluates : journal.Evaluates)

theorem answer_tardy (question : String) (world : World σ) :
    (pipeline.answer engine question).Does world fun result _ journal =>
      TimedOut result → pipeline.Tardy engine question world journal := by
  let planning := pipeline.generatePlan engine question world
  have plans : (pipeline.generatePlan engine question).Does world fun result _ journal =>
      result = planning.result ∧ ¬ journal.Lacks ∧ ¬ journal.Evaluates :=
    ⟨rfl, pipeline.generate_lacks engine question world, pipeline.generate_evaluates engine question world⟩
  rw [answer, Action.bind_does]
  apply Action.does_weaken plans
  rintro result after journal ⟨isPlanning, untold, idle⟩
  cases result with
  | error error =>
      rintro ⟨late, same, isTimeout⟩
      apply Tardy.planning _ untold idle
      exact ⟨late, isPlanning.symm.trans (congrArg Except.error (Except.error.inj same)), isTimeout⟩
  | ok plan =>
      apply Action.does_weaken (pipeline.execute_tells engine plan after)
      intro result final rest tells timedOut
      obtain ⟨told, evaluates⟩ := tells timedOut
      apply Tardy.evaluating
      · exact (Journal.lacks_append _ _).mpr (Or.inr told)
      · exact (Journal.evaluates_append _ _).mpr (Or.inr evaluates)

theorem run_tardy (question : String) (world : World σ) :
    (pipeline.run engine question).Does world fun result _ journal =>
      TimedOut result → pipeline.Tardy engine question world journal := by
  apply pipeline.run_does
  apply Action.does_weaken (pipeline.answer_tardy engine question world)
  intro result after journal tardy timedOut
  have isTardy := tardy timedOut
  obtain ⟨error, rfl, _⟩ := timedOut
  cases isTardy with
  | planning late untold idle =>
      apply Tardy.planning late
      · simpa [closing, Journal.Lacks] using untold
      · simpa [closing, Journal.Evaluates] using idle
  | evaluating told evaluates =>
      apply Tardy.evaluating
      · simpa [closing, Journal.Lacks] using told
      · simpa [closing, Journal.Evaluates] using evaluates

def Prompt : Prop := ∀ request state, (pipeline.generator request state).elapsed = 0

theorem generate_prompt (prompt : pipeline.Prompt) (question : String) (world : World σ)
    (inTime : ¬ engine.deadline.Expired world.now) :
    ¬ TimedOut (pipeline.generatePlan engine question world).result := by
  apply pipeline.plan_for_does engine question (fun start => ¬ engine.deadline.Expired start.now)
    (fun _ result _ _ => ¬ TimedOut result) ?_ _ 0 none world inTime
  intro attempt feedback world inTime
  let request := pipeline.request question attempt feedback
  have stands : (pipeline.consulted request world).after.now = world.now :=
    congrArg (world.now + ·) (prompt request world.state)
  rw [Action.Does, propose_outcome, Deadline.timeout_in_time _ _ inTime]
  dsimp only
  cases judged : pipeline.judge attempt (pipeline.consulted request world).answer with
  | ok plan => simp [TimedOut]
  | error rejection =>
      refine ⟨by rwa [stands], ?_, fun _ _ _ => id⟩
      rintro ⟨error, same, _⟩
      rw [Except.error.inj same] at judged
      exact pipeline.judge_unevaluated attempt _ error judged

section Late

variable (plan : Plan) (suits : pipeline.Suits plan) (filtered : plan.leaves ≠ [])
include suits filtered

theorem suits_resolves : (Evaluation.ofPlan engine pipeline.registry plan).Resolves := by
  let evaluation := Evaluation.ofPlan engine pipeline.registry plan
  have knows : evaluation.Knows plan.places := by
    intro placed inside
    change pipeline.registry.contains placed.leaf.filter = true
    rw [← pipeline.schema_contains]
    apply suits
    rw [← plan.places_leaves]
    exact List.mem_map_of_mem inside
  have all : plan.places.filter evaluation.knows = plan.places := List.filter_eq_self.mpr knows
  refine ⟨Or.inr knows, ?_⟩
  change plan.places.filter evaluation.knows ≠ []
  rw [all]
  intro nothing
  rw [← plan.places_leaves, nothing] at filtered
  exact filtered rfl

-- A plan that is accepted too late is executed, but in vain.
theorem execute_late (punctual : engine.Punctual) (world : World σ) (begun : engine.deadline.started ≤ world.now)
    (expired : engine.deadline.Expired world.now) :
    TimedOut (pipeline.execute engine plan world).result := by
  let evaluation := Evaluation.ofPlan engine pipeline.registry plan
  have heeded := evaluation.evaluate_heeded punctual world begun
  have decides := heeded.decides (pipeline.suits_resolves engine plan suits filtered)
  obtain ⟨error, failed, late⟩ := decides.late (Deadline.expired_later _ _ _ heeded.timely.forward expired)
  have isTimeout := Deadline.late_is_timeout _ _ late
  have isFiltered : ¬ plan.isUnfiltered := by
    intro unfiltered
    rw [Plan.isUnfiltered, Option.isNone_iff_eq_none] at unfiltered
    rw [Plan.leaves, unfiltered] at filtered
    exact filtered rfl
  have ends : evaluation.evaluate.Ends world fun result _ => result = .error error := failed
  have executes : (pipeline.execute engine plan).Ends world fun result _ => TimedOut result := by
    rw [execute, if_neg isFiltered, Action.bind_ends, Action.map_error_ends]
    apply Action.ends_weaken ends
    rintro _ after rfl
    exact ⟨error, rfl, isTimeout⟩
  exact executes

end Late

theorem run_late (question : String) (world : World σ) (plan : Plan)
    (planned : (pipeline.generatePlan engine question world).result = .ok plan)
    (late : TimedOut (pipeline.execute engine plan (pipeline.generatePlan engine question world).world).result) :
    TimedOut (pipeline.run engine question world).result := by
  let left := (pipeline.generatePlan engine question world).world
  have plans : (pipeline.generatePlan engine question).Does world fun result after _ =>
      result = .ok plan ∧ after = left := ⟨planned, rfl⟩
  have runs : (pipeline.run engine question).Does world fun result _ _ => TimedOut result := by
    apply pipeline.run_does
    rw [answer, Action.bind_does]
    apply Action.does_weaken plans
    rintro _ _ journal ⟨rfl, rfl⟩
    exact late
  exact runs

end Pipeline

namespace Manager

variable {σ : Type} (manager : Manager σ)

theorem find_timeless (name : String) (error : PipelineError) (unknown : manager.find name = .error error) :
    ¬ TimedOut (.error error : Except PipelineError IdentitySet) := by
  rw [find] at unknown
  cases listed : manager.pipelines.find? name with
  | some pipeline => simp [listed] at unknown
  | none =>
      rw [listed] at unknown
      rw [← Except.error.inj unknown]
      simp [TimedOut]

theorem run_at_tardy (query : Query) (depth : Nat) (name question : String) (world : World σ)
    (timedOut : TimedOut (manager.runAt query depth name question world).result) :
    ∃ pipeline, manager.find name = .ok pipeline ∧ pipeline.Tardy (manager.engineAt query depth) question world
      (manager.runAt query depth name question world).journal := by
  by_cases beyond : manager.config.maxNestingDepth < depth
  · rw [manager.run_at_beyond query depth beyond] at timedOut
    obtain ⟨error, failed, _⟩ := timedOut
    cases failed
  · have within := Nat.le_of_not_lt beyond
    cases found : manager.find name with
    | error error =>
        rw [manager.run_at_within query depth within, found] at timedOut
        exact absurd timedOut (manager.find_timeless name error found)
    | ok pipeline =>
        rw [manager.run_at_found query depth within name question pipeline found] at timedOut ⊢
        exact ⟨pipeline, rfl, pipeline.run_tardy _ question world timedOut⟩

def Prompt : Prop := ∀ name pipeline, manager.find name = .ok pipeline → pipeline.Prompt

theorem run_at_tallies (query : Query) (depth : Nat) (name question : String) (world : World σ)
    (timedOut : TimedOut (manager.runAt query depth name question world).result) :
    (manager.runAt query depth name question world).journal.Tallies := by
  obtain ⟨pipeline, _, tardy⟩ := manager.run_at_tardy query depth name question world timedOut
  apply Journal.tallies_told
  cases tardy with
  | planning late untold idle => exact iff_of_false untold idle
  | evaluating told evaluates => exact iff_of_true told evaluates

theorem run_prompt (prompt : manager.Prompt) (allowed : manager.config.queryTimeoutMs ≠ some 0) (name question : String)
    (world : World σ) (timedOut : TimedOut (manager.run name question world).result) :
    (manager.run name question world).journal.Lacks := by
  let deadline : Deadline := ⟨world.now, manager.config.queryTimeoutMs⟩
  rw [manager.run_from_start, start_then] at timedOut ⊢
  obtain ⟨pipeline, found, tardy⟩ := manager.run_at_tardy (manager.outermost deadline) 0 name question world timedOut
  have inTime : ¬ deadline.Expired world.now := by
    rintro ⟨limit, limited, passed⟩
    have positive : limit ≠ 0 := fun none => allowed (limited.trans (congrArg some none))
    rw [Nat.sub_self, Deadline.nanosPerMs] at passed
    omega
  cases tardy with
  | planning late untold idle =>
      let engine := manager.engineAt (manager.outermost deadline) 0
      exact absurd late (pipeline.generate_prompt engine (prompt name pipeline found) question world inTime)
  | evaluating told evaluates => exact told

theorem answer_runs (question : String) (world : World σ)
    (timedOut : TimedOut (manager.answer question world).result) :
    ∃ name later, TimedOut (manager.run name question later).result ∧
      (manager.answer question world).journal = (manager.run name question later).journal := by
  rcases manager.answer_writes question world with ⟨_, error, failed, ofChoice⟩ | ⟨name, later, written, ended⟩
  · rw [failed] at timedOut
    obtain ⟨late, same, _⟩ := timedOut
    rw [Except.error.inj same] at ofChoice
    exact ofChoice.elim
  · refine ⟨name, later, ?_, written⟩
    rw [ended] at timedOut
    obtain ⟨error, same, isTimeout⟩ := timedOut
    refine ⟨error, ?_, isTimeout⟩
    cases ran : (manager.run name question later).result with
    | ok rows =>
        rw [ran] at same
        cases same
    | error other =>
        rw [ran] at same
        rw [Except.error.inj same]

-- A query that fails for lack of time is counted if and only if a plan has been accepted for it and its evaluation begun.
-- So no such failure is missed when planning takes no time.
theorem timeouts_counted_once_planned (question : String) (world : World σ) :
    (∀ query depth name, TimedOut (manager.runAt query depth name question world).result →
      (manager.runAt query depth name question world).journal.Tallies) ∧
    (∀ name, TimedOut (manager.run name question world).result →
      (manager.run name question world).journal.Tallies) ∧
    (TimedOut (manager.answer question world).result → (manager.answer question world).journal.Tallies) ∧
    (manager.Prompt → manager.config.queryTimeoutMs ≠ some 0 →
      (∀ name, TimedOut (manager.run name question world).result → (manager.run name question world).journal.Lacks) ∧
      (TimedOut (manager.answer question world).result → (manager.answer question world).journal.Lacks)) := by
  have runs (name : String) (start : World σ) (timedOut : TimedOut (manager.run name question start).result) :
      (manager.run name question start).journal.Tallies := by
    rw [manager.run_from_start, start_then] at timedOut ⊢
    exact manager.run_at_tallies _ 0 name question start timedOut
  refine ⟨?_, fun name => runs name world, ?_, ?_⟩
  · exact fun query depth name => manager.run_at_tallies query depth name question world
  · intro timedOut
    obtain ⟨name, later, ranOut, same⟩ := manager.answer_runs question world timedOut
    rw [same]
    exact runs name later ranOut
  · intro prompt allowed
    refine ⟨fun name => manager.run_prompt prompt allowed name question world, fun timedOut => ?_⟩
    obtain ⟨name, later, ranOut, same⟩ := manager.answer_runs question world timedOut
    rw [same]
    exact manager.run_prompt prompt allowed name question later ranOut

end Manager

def tardyPipeline : Pipeline Unit where
  name := "tardy"
  goal := "Takes its time"
  registry := .only "f" fun _ _ => .done (.ok (named "x"))
  domain := .empty
  generator := fun request state =>
    ⟨if request.question = "plan" then .ok (.ofNode (.leaf ⟨"f", "x"⟩)) else .error (.failed "slow"), state, 200000000⟩
  exemplar := none

def tardyManager : Manager Unit := .only { Config.default with queryTimeoutMs := some 50 } "tardy" tardyPipeline

theorem tardy_found : tardyManager.find "tardy" = .ok tardyPipeline := Manager.only_find _ "tardy" tardyPipeline

theorem tardy_config : tardyManager.config = { Config.default with queryTimeoutMs := some 50 } :=
  Manager.only_config _ "tardy" tardyPipeline

theorem tardy_run (question : String) (world : World Unit) : tardyManager.run "tardy" question world =
    tardyPipeline.run (tardyManager.engineAt (tardyManager.outermost ⟨world.now, some 50⟩) 0) question world := by
  rw [Manager.run_from_start, Manager.start_then, tardy_config,
    tardyManager.run_at_found _ 0 (Nat.zero_le _) "tardy" question tardyPipeline tardy_found]

def tardyEngine : Engine Unit := tardyManager.engineAt (tardyManager.outermost ⟨0, some 50⟩) 0

theorem tardy_which : tardyPipeline.run tardyEngine "which?" ⟨(), 0⟩ =
    ⟨.error (.evaluate (.timeout 200 50)), ⟨(), 200000000⟩,
      [⟨tardyEngine.site, 0, .counted (.pipelineStart "tardy" false)⟩,
        ⟨tardyEngine.site, 0,
          .planRequested ⟨"tardy", "Takes its time", "which?", tardyPipeline.schema, none, 0, none⟩⟩,
        ⟨tardyEngine.site, 200000000, .planProposed (.error (.failed "slow"))⟩,
        ⟨tardyEngine.site, 200000000, .counted (.pipelineError "tardy")⟩]⟩ := by
  rw [tardyEngine, Manager.engineAt, tardy_config]
  rfl

def tardyPlan : Plan := .ofNode (.leaf ⟨"f", "x"⟩)

theorem tardy_suits : tardyPipeline.Suits tardyPlan := by
  rw [tardyPlan, Pipeline.suits_leaf, tardyPipeline, Registry.only_contains]
  decide

theorem tardy_generate : (tardyPipeline.generatePlan tardyEngine "plan").Does ⟨(), 0⟩ fun result after _ =>
    result = .ok tardyPlan ∧ after = ⟨(), 200000000⟩ := by
  have accepts : tardyPipeline.judge 0 (.ok tardyPlan) = .ok tardyPlan :=
    (tardyPipeline.judge_suits 0 _ tardyPlan).mpr ⟨rfl, tardy_suits⟩
  have proposes : (tardyPipeline.propose tardyEngine "plan" 0 none).Does ⟨(), 0⟩ fun result after _ =>
      result = .ok (tardyPipeline.judge 0 (.ok tardyPlan)) ∧ after = ⟨(), 200000000⟩ := by
    rw [tardyEngine, Manager.engineAt, tardy_config]
    exact ⟨rfl, rfl⟩
  have retries : min tardyEngine.config.planRetries (maxWord32 - 1) = 2 := by
    rw [tardyEngine, Manager.engineAt, tardy_config]
    rfl
  rw [Pipeline.generatePlan, retries, Pipeline.planFor, Action.bind_does]
  apply Action.does_weaken proposes
  rintro _ after journal ⟨rfl, rfl⟩
  simp [accepts]

theorem tardy_plan : TimedOut (tardyPipeline.run tardyEngine "plan" ⟨(), 0⟩).result := by
  have leaves : tardyPlan.leaves = [⟨"f", "x"⟩] := by
    rw [← Plan.places_leaves]
    rfl
  have limit : tardyEngine.deadline.limitMs = some 50 := rfl
  have filtered : tardyPlan.leaves ≠ [] := by simp [leaves]
  obtain ⟨planned, left⟩ := tardy_generate
  apply tardyPipeline.run_late tardyEngine "plan" ⟨(), 0⟩ tardyPlan planned
  rw [left]
  have times : tardyManager.Times ⟨0, some 50⟩ := by rw [Manager.Times, tardy_config]
  apply tardyPipeline.execute_late tardyEngine tardyPlan tardy_suits filtered
    (tardyManager.engine_punctual (tardyManager.outermost ⟨0, some 50⟩) times 0) _ (Nat.zero_le _)
  exact ⟨50, limit, by decide⟩

theorem tardy_plan_evaluates : (tardyPipeline.run tardyEngine "plan" ⟨(), 0⟩).journal.Evaluates := by
  cases tardyPipeline.run_tardy tardyEngine "plan" ⟨(), 0⟩ tardy_plan with
  | planning late untold idle =>
      obtain ⟨error, failed, _⟩ := late
      rw [tardy_generate.1] at failed
      cases failed
  | evaluating told evaluates => exact evaluates

theorem tardy_which_idle : ¬ (tardyPipeline.run tardyEngine "which?" ⟨(), 0⟩).journal.Evaluates := by
  rw [tardy_which]
  simp [Journal.Evaluates]

theorem timeouts_counted_once_planned_tardy :
    TimedOut (tardyManager.run "tardy" "plan" ⟨(), 0⟩).result ∧
      (∀ metrics : Metrics, metrics.operations.timeouts.value < maxWord64 → metrics.operations.timeouts.value <
        (metrics.countAll (tardyManager.run "tardy" "plan" ⟨(), 0⟩).journal.metrics).operations.timeouts.value) ∧
      TimedOut (tardyManager.run "tardy" "which?" ⟨(), 0⟩).result ∧
      ∀ metrics : Metrics,
        (metrics.countAll (tardyManager.run "tardy" "which?" ⟨(), 0⟩).journal.metrics).operations.timeouts =
          metrics.operations.timeouts := by
  have ranPlan : tardyManager.run "tardy" "plan" ⟨(), 0⟩ = tardyPipeline.run tardyEngine "plan" ⟨(), 0⟩ :=
    tardy_run "plan" ⟨(), 0⟩
  have ranWhich : tardyManager.run "tardy" "which?" ⟨(), 0⟩ = tardyPipeline.run tardyEngine "which?" ⟨(), 0⟩ :=
    tardy_run "which?" ⟨(), 0⟩
  have latePlan : TimedOut (tardyManager.run "tardy" "plan" ⟨(), 0⟩).result := by
    rw [ranPlan]
    exact tardy_plan
  have lateWhich : TimedOut (tardyManager.run "tardy" "which?" ⟨(), 0⟩).result := by
    rw [ranWhich, tardy_which]
    exact ⟨_, rfl, rfl⟩
  have counted := (tardyManager.timeouts_counted_once_planned "plan" ⟨(), 0⟩).2.1 "tardy" latePlan
  have uncounted := (tardyManager.timeouts_counted_once_planned "which?" ⟨(), 0⟩).2.1 "tardy" lateWhich
  refine ⟨latePlan, counted.grown ?_, lateWhich, uncounted.same ?_⟩
  · rw [ranPlan]
    exact tardy_plan_evaluates
  · rw [ranWhich]
    exact tardy_which_idle

theorem late_planning_uncounted :
    TimedOut (tardyManager.run "tardy" "which?" ⟨(), 0⟩).result ∧
      .timeout ∉ (tardyManager.run "tardy" "which?" ⟨(), 0⟩).journal.metrics ∧
      (Metrics.zero.countAll
        (tardyManager.run "tardy" "which?" ⟨(), 0⟩).journal.metrics).operations.timeouts.value = 0 := by
  have ran : tardyManager.run "tardy" "which?" ⟨(), 0⟩ = tardyPipeline.run tardyEngine "which?" ⟨(), 0⟩ :=
    tardy_run "which?" ⟨(), 0⟩
  rw [ran, tardy_which]
  exact ⟨⟨_, rfl, rfl⟩, by decide, rfl⟩

end FilterPlan
