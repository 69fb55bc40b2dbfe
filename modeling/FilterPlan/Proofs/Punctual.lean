import FilterPlan.Proofs.Expiry

set_option autoImplicit false

namespace FilterPlan

def Journal.Lacks (journal : Journal) : Prop := ∃ entry ∈ journal, entry.event = .counted .timeout

namespace Journal

theorem lacks_append (before after : Journal) : (before ++ after).Lacks ↔ before.Lacks ∨ after.Lacks := by
  simp [Lacks, or_and_right, exists_or]

theorem idle_lacks (journal : Journal) (idle : ∀ entry ∈ journal, entry.event.Idle) : ¬ journal.Lacks := by
  rintro ⟨entry, inside, isMark⟩
  exact entry.event.idle_lacks (idle entry inside) isMark

theorem standing_lacks (deadline : Deadline) (now : Nat) (journal : Journal) (standing : journal.Standing deadline now) :
    ¬ journal.Lacks :=
  idle_lacks journal fun entry inside => (standing entry inside).2.2

end Journal

structure Journal.Calm (deadline : Deadline) (start stop : Nat) (journal : Journal) : Prop where
  timely : journal.Timely deadline start stop
  idle : ∀ entry ∈ journal, entry.event.Idle

namespace Journal

variable (deadline : Deadline)

theorem calm_nothing (start stop : Nat) (forward : start ≤ stop) : Calm deadline start stop [] :=
  ⟨timely_nothing deadline start stop forward, by simp⟩

theorem calm_append (start middle stop : Nat) (before after : Journal) (calmBefore : Calm deadline start middle before)
    (calmAfter : Calm deadline middle stop after) : Calm deadline start stop (before ++ after) :=
  ⟨timely_append deadline _ _ _ _ _ calmBefore.timely calmAfter.timely,
    fun entry inside => (List.mem_append.mp inside).elim (calmBefore.idle entry) (calmAfter.idle entry)⟩

theorem standing_calm (now : Nat) (journal : Journal) (standing : journal.Standing deadline now) :
    Calm deadline now now journal :=
  ⟨standing_timely deadline now journal standing, fun entry inside => (standing entry inside).2.2⟩

end Journal

namespace Evaluation

variable {σ : Type} (evaluation : Evaluation σ)

-- An evaluation fails for lack of time if and only if it or an evaluation inside it is told to have done so.
theorem heeded_lacks (world : World σ) (outcome : Outcome σ EvaluateError Store)
    (heeded : evaluation.Heeded world outcome) :
    outcome.journal.Lacks ↔ ∃ error, outcome.result = .error error ∧ evaluation.engine.deadline.Late error := by
  constructor
  · rintro ⟨entry, inside, isMark⟩
    have early := (heeded.timely.within entry inside).2
    have expired := Deadline.expired_later _ _ _ early
      (Deadline.allows_expired _ entry (heeded.timely.allowed entry inside) isMark)
    by_cases resolves : evaluation.Resolves
    · exact (heeded.decides resolves).late expired
    · exact absurd ⟨entry, inside, isMark⟩ (Journal.standing_lacks _ _ _ (heeded.stands resolves).2.1)
  · rintro ⟨error, failed, late⟩
    obtain ⟨entry, inside, _, isMark⟩ := heeded.marks error failed (Deadline.late_is_timeout _ _ late)
    exact ⟨entry, inside, isMark⟩

end Evaluation

structure Deadline.Governs {σ : Type} (deadline : Deadline) (world : World σ)
    (outcome : Outcome σ PipelineError IdentitySet) : Prop where
  timely : Journal.Timely deadline world.now outcome.world.now outcome.journal
  lacks : outcome.journal.Lacks → ∃ error, outcome.result = .error (.evaluate error) ∧ deadline.Late error

namespace Deadline.Governs

variable {σ : Type} {deadline : Deadline} {world after : World σ} {result : Except PipelineError IdentitySet}
  {journal marks : Journal}

theorem preceded (governs : deadline.Governs world ⟨result, after, journal⟩) (standing : marks.Standing deadline world.now) :
    deadline.Governs world ⟨result, after, marks ++ journal⟩ := by
  refine ⟨Journal.timely_append _ _ _ _ _ _ (Journal.standing_timely _ _ _ standing) governs.timely, fun lacks => ?_⟩
  exact governs.lacks (((Journal.lacks_append _ _).mp lacks).resolve_left (Journal.standing_lacks _ _ _ standing))

theorem followed (governs : deadline.Governs world ⟨result, after, journal⟩) (standing : marks.Standing deadline after.now) :
    deadline.Governs world ⟨result, after, journal ++ marks⟩ := by
  refine ⟨Journal.timely_append _ _ _ _ _ _ governs.timely (Journal.standing_timely _ _ _ standing), fun lacks => ?_⟩
  exact governs.lacks (((Journal.lacks_append _ _).mp lacks).resolve_right (Journal.standing_lacks _ _ _ standing))

end Deadline.Governs

namespace Pipeline

variable {σ : Type} (pipeline : Pipeline σ) (engine : Engine σ)

theorem judge_unevaluated (attempt : Nat) (answer : Except GeneratorError Plan) (error : EvaluateError) :
    pipeline.judge attempt answer ≠ .error (.evaluate error) := by
  rcases answer with failure | plan
  · cases failure <;> simp [judge]
  · simp only [judge]
    cases plan.checkFilters pipeline.schema.contains <;> simp

theorem inquiry_calm (request : PlanRequest) (world : World σ) :
    Journal.Calm engine.deadline world.now (pipeline.consulted request world).after.now
      (pipeline.inquiry engine request world) := by
  let after := (pipeline.consulted request world).after.now
  have entry (now : Nat) (event : Event) (idle : event.Idle) :
      Journal.Calm engine.deadline now now [⟨engine.site, now, event⟩] :=
    Journal.standing_calm _ _ _ (Journal.standing_entry engine.site now event idle)
  have retry : Journal.Calm engine.deadline world.now world.now
      (if request.attempt > 0 then [⟨engine.site, world.now, .counted .planRetry⟩] else []) := by
    by_cases again : request.attempt > 0
    · rw [if_pos again]
      exact entry _ _ trivial
    · rw [if_neg again]
      exact Journal.calm_nothing _ _ _ (Nat.le_refl _)
  have requested := entry world.now (.planRequested request) trivial
  have waits : Journal.Calm engine.deadline world.now after [] :=
    Journal.calm_nothing _ _ _ (Nat.le_add_right _ _)
  have proposed := entry after (.planProposed (pipeline.consulted request world).answer) trivial
  have answered := Journal.calm_append _ _ _ _ _ _ waits proposed
  exact Journal.calm_append _ _ _ _ _ _ retry (Journal.calm_append _ _ _ _ _ _ requested answered)

theorem propose_calm (question : String) (attempt : Nat) (feedback : Option String) (world : World σ) :
    (pipeline.propose engine question attempt feedback).Does world fun _ after journal =>
      Journal.Calm engine.deadline world.now after.now journal := by
  rw [Action.Does, propose_outcome]
  cases engine.deadline.timeout? world.now with
  | some error => exact Journal.calm_nothing _ _ _ (Nat.le_refl _)
  | none => exact pipeline.inquiry_calm engine _ world

theorem generate_calm (question : String) (world : World σ) :
    (pipeline.generatePlan engine question).Does world fun _ after journal =>
      Journal.Calm engine.deadline world.now after.now journal := by
  apply pipeline.plan_for_does engine question (fun _ => True)
    (fun start _ after journal => Journal.Calm engine.deadline start.now after.now journal) ?_ _ 0 none world trivial
  intro attempt feedback world _
  apply Action.does_weaken (pipeline.propose_calm engine question attempt feedback world)
  intro result after journal calm
  rcases result with error | rejection | plan
  · exact calm
  · have failure := Journal.standing_calm _ _ _
      (Journal.standing_entry engine.site after.now (.counted .planFailure) trivial)
    refine ⟨trivial, Journal.calm_append _ _ _ _ _ _ calm failure, ?_⟩
    exact fun _ final rest later => Journal.calm_append _ _ _ _ _ _ calm later
  · exact calm

-- Planning fails for lack of time without telling so.
theorem generate_lacks (question : String) (world : World σ) :
    ¬ (pipeline.generatePlan engine question world).journal.Lacks :=
  Journal.idle_lacks _ (pipeline.generate_calm engine question world).idle

theorem merge_stands (evaluation : Evaluation σ) (store : Store) (world : World σ) :
    (merge evaluation store).Does world fun _ after journal =>
      after = world ∧ journal.Standing evaluation.engine.deadline world.now := by
  rw [merge]
  cases store.merge evaluation.engine.config.missingOperand with
  | ok rows => exact ⟨rfl, Journal.standing_nothing _ _⟩
  | error error => exact ⟨rfl, Journal.standing_entry evaluation.engine.site _ _ trivial⟩

theorem finish_stands (evaluation : Evaluation σ) (store : Store) (world : World σ) :
    (do
      let rows ← merge evaluation store
      evaluation.count (.mergeFinish rows.size)
      evaluation.trace (.mergeFinish rows.size)
      return rows : Action σ PipelineError IdentitySet).Does world fun _ after journal =>
        after = world ∧ journal.Standing evaluation.engine.deadline world.now := by
  rw [Action.bind_does]
  apply Action.does_weaken (merge_stands evaluation store world)
  rintro result after journal ⟨rfl, standing⟩
  cases result with
  | error error => exact ⟨rfl, standing⟩
  | ok rows =>
      simp only [Evaluation.count, Evaluation.trace, Action.bind_does, Action.count_does, Action.record_does,
        Action.pure_does]
      have counted := Journal.standing_entry evaluation.engine.site after.now (.counted (.mergeFinish rows.size)) trivial
      have traced := Journal.standing_entry evaluation.engine.site after.now
        (.traced evaluation.fingerprint (.mergeFinish rows.size)) trivial
      refine ⟨trivial, Journal.standing_append _ _ _ _ standing (Journal.standing_append _ _ _ _ counted ?_)⟩
      exact Journal.standing_append _ _ _ _ traced (Journal.standing_nothing _ _)

section Punctual

variable (punctual : engine.Punctual)
include punctual

theorem execute_governed (plan : Plan) (world : World σ) (begun : engine.deadline.started ≤ world.now) :
    engine.deadline.Governs world (pipeline.execute engine plan world) := by
  let evaluation := Evaluation.ofPlan engine pipeline.registry plan
  have does : (pipeline.execute engine plan).Does world fun result after journal =>
      engine.deadline.Governs world ⟨result, after, journal⟩ := by
    rw [execute]
    by_cases unfiltered : plan.isUnfiltered
    · rw [if_pos unfiltered]
      have standing : Journal.Standing engine.deadline world.now
          [⟨engine.site, world.now, .counted (.planEvaluated 0 true)⟩,
            ⟨engine.site, world.now, .traced plan.fingerprint (.mergeFinish pipeline.domain.size)⟩] := by
        simp [Journal.Standing, Event.Idle]
      exact ⟨Journal.standing_timely _ _ _ standing,
        fun lacks => absurd lacks (Journal.standing_lacks _ _ _ standing)⟩
    · rw [if_neg unfiltered]
      have heeded : evaluation.evaluate.Does world fun result after journal =>
          evaluation.Heeded world ⟨result, after, journal⟩ := evaluation.evaluate_heeded punctual world begun
      rw [Action.bind_does, Action.map_error_does]
      apply Action.does_weaken heeded
      intro result after journal heeded
      have lacks := evaluation.heeded_lacks world _ heeded
      cases result with
      | error error =>
          refine ⟨heeded.timely, fun isLacking => ?_⟩
          obtain ⟨other, same, late⟩ := lacks.mp isLacking
          exact ⟨error, rfl, by rwa [Except.error.inj same]⟩
      | ok store =>
          apply Action.does_weaken (finish_stands evaluation store after)
          rintro result final rest ⟨rfl, standing⟩
          have quiet : ¬ journal.Lacks := fun isLacking => by
            obtain ⟨error, failed, _⟩ := lacks.mp isLacking
            cases failed
          have governs : engine.deadline.Governs world ⟨result, final, journal⟩ :=
            ⟨heeded.timely, fun isLacking => absurd isLacking quiet⟩
          exact governs.followed standing
  exact does

theorem answer_governed (question : String) (world : World σ) (begun : engine.deadline.started ≤ world.now) :
    engine.deadline.Governs world (pipeline.answer engine question world) := by
  have does : (pipeline.answer engine question).Does world fun result after journal =>
      engine.deadline.Governs world ⟨result, after, journal⟩ := by
    rw [answer, Action.bind_does]
    apply Action.does_weaken (pipeline.generate_calm engine question world)
    intro result after journal calm
    have quiet := Journal.idle_lacks journal calm.idle
    cases result with
    | error error => exact ⟨calm.timely, fun lacks => absurd lacks quiet⟩
    | ok plan =>
        have executed := pipeline.execute_governed engine punctual plan after (Nat.le_trans begun calm.timely.forward)
        refine ⟨Journal.timely_append _ _ _ _ _ _ calm.timely executed.timely, fun lacks => ?_⟩
        exact executed.lacks (((Journal.lacks_append _ _).mp lacks).resolve_left quiet)
  exact does

theorem run_governed (question : String) (world : World σ) (begun : engine.deadline.started ≤ world.now) :
    engine.deadline.Governs world (pipeline.run engine question world) := by
  have opening := Journal.standing_entry engine.site world.now
    (.counted (.pipelineStart pipeline.name (engine.depth > 0))) trivial
  have answers : (pipeline.answer engine question).Does world fun result after journal =>
      engine.deadline.Governs world ⟨result, after, journal⟩ :=
    pipeline.answer_governed engine punctual question world begun
  have runs : (pipeline.run engine question).Does world fun result after journal =>
      engine.deadline.Governs world ⟨result, after, journal⟩ := by
    apply pipeline.run_does
    apply Action.does_weaken answers
    intro result after journal governs
    have idle : (Event.counted (closing pipeline.name result)).Idle := by cases result <;> trivial
    exact (governs.followed (Journal.standing_entry engine.site after.now _ idle)).preceded opening
  exact runs

end Punctual

end Pipeline

namespace Manager

variable {σ : Type} (manager : Manager σ)

def Times (deadline : Deadline) : Prop := deadline.limitMs = manager.config.queryTimeoutMs

def GovernsRuns (query : Query) (depth : Nat) : Prop :=
  manager.Times query.deadline → ∀ name question (world : World σ), query.deadline.started ≤ world.now →
    query.deadline.Governs world (manager.runAt query depth name question world)

-- A call that a resolver makes heeds the deadline of any query that it may be made in.
def HeedsCalls (stack level : Nat) : Prop :=
  ∀ deadline, manager.Times deadline → ∀ call (world : World σ),
    (manager.meetWithin stack level call).Heeds deadline world fun _ _ => True

theorem refused_governed (query : Query) (depth : Nat) (name question : String) (world : World σ)
    (refused : manager.config.maxNestingDepth < depth ∨ ∃ error, manager.find name = .error error) :
    query.deadline.Governs world (manager.runAt query depth name question world) := by
  obtain ⟨error, isRefused⟩ := manager.run_at_refused query depth name question refused world
  rw [isRefused]
  exact ⟨Journal.timely_nothing _ _ _ (Nat.le_refl _), by simp [Journal.Lacks]⟩

theorem punctual_at (query : Query) (depth : Nat) (times : manager.Times query.deadline)
    (asked : manager.GovernsRuns query (depth + 1)) (entered : manager.HeedsCalls query.stack (query.level + depth + 1)) :
    (manager.engineAt query depth).Punctual := by
  intro scope inScope
  obtain rfl : manager.scopeAt query depth = scope := Option.some.inj inScope
  exact ⟨fun name question world begun => ⟨(asked times name question world begun).timely, trivial⟩,
    entered query.deadline times⟩

theorem governs_runs (query : Query) (depth : Nat) (within : depth ≤ manager.config.maxNestingDepth)
    (asked : manager.GovernsRuns query (depth + 1)) (entered : manager.HeedsCalls query.stack (query.level + depth + 1)) :
    manager.GovernsRuns query depth := by
  intro times name question world begun
  cases found : manager.find name with
  | error error => exact manager.refused_governed query depth name question world (Or.inr ⟨error, found⟩)
  | ok pipeline =>
      rw [manager.run_at_found query depth within name question pipeline found world]
      exact pipeline.run_governed _ (manager.punctual_at query depth times asked entered) question world begun

theorem start_then_heeds {ε α : Type} (deadline : Deadline) (times : manager.Times deadline)
    (next : Deadline → Action σ ε α) (world : World σ) (post : Except ε α → World σ → Prop)
    (heeds : ∀ inner, manager.Times inner → inner.started = world.now → (next inner).Heeds inner world post) :
    (Deadline.start manager.config.queryTimeoutMs >>= next).Heeds deadline world post := by
  intro begun
  obtain ⟨timely, known⟩ := heeds ⟨world.now, manager.config.queryTimeoutMs⟩ rfl rfl (Nat.le_refl _)
  exact ⟨Journal.timely_covered deadline _ ⟨times.symm, begun⟩ _ _ _ timely, known⟩

theorem select_heeds (deadline : Deadline) (question : String) (world : World σ) :
    (manager.select question).Heeds deadline world fun _ _ => True := by
  rw [select]
  cases manager.classifier with
  | none => exact Action.fail_heeds _ _ _ _ trivial
  | some classify =>
      apply Action.bind_heeds
      apply Action.map_error_heeds
      change (Action.consult (classify question manager.names) >>= _).Heeds deadline world _
      apply Action.bind_heeds
      apply Action.consult_heeds
      intro after
      apply Action.of_except_heeds
      cases (classify question manager.names world.state).answer with
      | error error => trivial
      | ok choice =>
          dsimp only [Except.mapError]
          cases manager.find (Text.trim choice) with
          | ok pipeline => exact Action.pure_heeds _ _ _ _ trivial
          | error _ => exact Action.fail_heeds _ _ _ _ trivial

section Calls

variable (deadline : Deadline) (times : manager.Times deadline) (stack level : Nat)
  (ran : ∀ deadline depth, manager.GovernsRuns ⟨deadline, level, stack⟩ depth)
include times ran

theorem begin_run_heeds (name question : String) (world : World σ) :
    (manager.beginRun (manager.meetWithin stack) level name question).Heeds deadline world fun _ _ => True := by
  rw [begin_run_at]
  apply manager.start_then_heeds deadline times
  exact fun inner isTimed started begun => ⟨(ran inner 0 isTimed name question world begun).timely, trivial⟩

theorem begin_execute_heeds (entered : manager.HeedsCalls stack (level + 1)) (name : String) (plan : Plan)
    (world : World σ) :
    (manager.beginExecute (manager.meetWithin stack) level name plan).Heeds deadline world fun _ _ => True := by
  rw [begin_execute_at]
  apply Action.bind_heeds
  apply Action.of_except_heeds
  cases manager.find name with
  | error error => trivial
  | ok pipeline =>
      apply manager.start_then_heeds deadline times
      intro inner isTimed started begun
      have punctual := manager.punctual_at ⟨inner, level, stack⟩ 0 isTimed (ran inner 1) entered
      exact ⟨(pipeline.execute_governed _ punctual plan world begun).timely, trivial⟩

theorem meet_heeds (entered : manager.HeedsCalls stack (level + 1)) (call : Call) (world : World σ) :
    (manager.meet (manager.meetWithin stack) level call).Heeds deadline world fun _ _ => True := by
  cases call with
  | run name question =>
      apply Action.bind_heeds
      apply Action.heeds_weaken _ (manager.begin_run_heeds deadline times stack level ran name question world)
      intro result after _
      cases result with
      | error error => trivial
      | ok rows => exact Action.pure_heeds _ _ _ _ trivial
  | execute name plan =>
      apply Action.bind_heeds
      apply Action.heeds_weaken _ (manager.begin_execute_heeds deadline times stack level ran entered name plan world)
      intro result after _
      cases result with
      | error error => trivial
      | ok rows => exact Action.pure_heeds _ _ _ _ trivial
  | answer question =>
      apply Action.bind_heeds
      apply Action.heeds_weaken _ (manager.select_heeds deadline question world)
      intro result after _
      cases result with
      | error error => trivial
      | ok pipeline =>
          apply Action.bind_heeds
          apply Action.heeds_weaken _ (manager.begin_run_heeds deadline times stack level ran pipeline.name question after)
          intro result final _
          cases result with
          | error error => trivial
          | ok rows => exact Action.pure_heeds _ _ _ _ trivial

end Calls

theorem reaches_punctual :
    (∀ query depth, manager.GovernsRuns query depth) ∧ ∀ stack level, manager.HeedsCalls stack level := by
  apply manager.reaches
  case refused =>
    exact fun query depth beyond _ name question world _ =>
      manager.refused_governed query depth name question world (Or.inl beyond)
  case runs => exact manager.governs_runs
  case overflows =>
    intro level deadline times call world begun
    have covers : deadline.Covers ⟨world.now, manager.config.queryTimeoutMs⟩ := ⟨times.symm, begun⟩
    rw [Action.Does, meet_within_none]
    exact ⟨Journal.timely_entry _ _ _ rfl (Deadline.allows_idle _ _ covers trivial), trivial⟩
  case enters =>
    intro stack level ran entered deadline times call world
    exact Action.attempt_heeds _ _ _ _
      (manager.meet_heeds deadline times stack level ran (entered (level + 1)) call world)

theorem run_at_governed (query : Query) (times : manager.Times query.deadline) (depth : Nat) (name question : String)
    (world : World σ) (begun : query.deadline.started ≤ world.now) :
    query.deadline.Governs world (manager.runAt query depth name question world) :=
  manager.reaches_punctual.1 query depth times name question world begun

theorem engine_punctual (query : Query) (times : manager.Times query.deadline) (depth : Nat) :
    (manager.engineAt query depth).Punctual :=
  manager.punctual_at query depth times (manager.reaches_punctual.1 query (depth + 1)) (manager.reaches_punctual.2 _ _)

end Manager

end FilterPlan
