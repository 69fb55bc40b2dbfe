import FilterPlan.Proofs.Registry
import FilterPlan.Proofs.Story

set_option autoImplicit false

namespace FilterPlan

inductive Step (σ : Type) where
  | add (name : String) (pipeline : Pipeline σ)
  | run (name question : String)
  | answer (question : String)
  | execute (name : String) (plan : Plan)
  | elsewhere (state : σ) (elapsed : Nat)

namespace Step

variable {σ : Type}

def take (step : Step σ) (manager : Manager σ) (world : World σ) : Manager σ × World σ × Journal :=
  match step with
  | .add name pipeline =>
      match manager.add name pipeline with
      | .ok next => (next, world, [])
      | .error _ => (manager, world, [])
  | .run name question => (manager, (manager.run name question world).world, (manager.run name question world).journal)
  | .answer question => (manager, (manager.answer question world).world, (manager.answer question world).journal)
  | .execute name plan => (manager, (manager.execute name plan world).world, (manager.execute name plan world).journal)
  | .elsewhere state elapsed => (manager, ⟨state, world.now + elapsed⟩, [])

def journal (step : Step σ) (manager : Manager σ) (world : World σ) : Journal := (step.take manager world).2.2

end Step

/-- When and where a query is begun: its deadline, the number of resolver calls that are open, and the stack that
is left for calls of the manager inside it. -/
structure Query where
  deadline : Deadline
  level : Nat
  stack : Nat

def PipelineError.OfChoice : PipelineError → Prop
  | .unknownSelection _ _ | .noClassifier | .selection _ => True
  | _ => False

namespace Manager

variable {σ : Type}

def session (manager : Manager σ) (world : World σ) : List (Step σ) → Journal
  | [] => []
  | step :: rest =>
      let taken := step.take manager world
      taken.2.2 ++ session taken.1 taken.2.1 rest

theorem session_kept (kept : Journal → Prop) (nothing : kept [])
    (together : ∀ before after, kept before → kept after → kept (before ++ after))
    (each : ∀ (step : Step σ) (manager : Manager σ) (world : World σ), kept (step.journal manager world))
    (manager : Manager σ) (world : World σ) (steps : List (Step σ)) : kept (manager.session world steps) := by
  induction steps generalizing manager world with
  | nil => exact nothing
  | cons step rest ih => exact together _ _ (each step manager world) (ih _ _)

-- The requests for runs at a depth of a query; a nested run stands one deeper than the run or plan that asks for it.
def runAt (manager : Manager σ) (query : Query) (depth : Nat) :
    String → String → Action σ PipelineError IdentitySet :=
  manager.runWithin (manager.meetWithin query.stack) query.deadline query.level
    (manager.config.maxNestingDepth + 1 - depth)

def scopeAt (manager : Manager σ) (query : Query) (depth : Nat) : Scope σ :=
  ⟨query.level + depth, manager.runAt query (depth + 1), manager.meetWithin query.stack (query.level + depth + 1)⟩

def engineAt (manager : Manager σ) (query : Query) (depth : Nat) : Engine σ :=
  ⟨manager.config, query.deadline, depth, some (manager.scopeAt query depth)⟩

theorem run_at_within (manager : Manager σ) (query : Query) (depth : Nat)
    (within : depth ≤ manager.config.maxNestingDepth) (name question : String) :
    manager.runAt query depth name question =
      (.ofExcept (manager.find name) >>= fun pipeline => pipeline.run (manager.engineAt query depth) question) := by
  obtain ⟨room, isRoom⟩ : ∃ room, manager.config.maxNestingDepth = depth + room := ⟨_, (Nat.add_sub_of_le within).symm⟩
  have outer : manager.config.maxNestingDepth + 1 - depth = room + 1 := by omega
  have inner : manager.config.maxNestingDepth + 1 - (depth + 1) = room := by omega
  have here : manager.config.maxNestingDepth - room = depth := by omega
  rw [runAt, outer, runWithin, engineAt, scopeAt, runAt, inner, here]

theorem run_at_beyond (manager : Manager σ) (query : Query) (depth : Nat)
    (beyond : manager.config.maxNestingDepth < depth) (name question : String) :
    manager.runAt query depth name question =
      .fail (.nestingTooDeep name (manager.config.maxNestingDepth + 1) manager.config.maxNestingDepth) := by
  have noRoom : manager.config.maxNestingDepth + 1 - depth = 0 := by omega
  rw [runAt, noRoom, runWithin]

theorem run_at_found (manager : Manager σ) (query : Query) (depth : Nat)
    (within : depth ≤ manager.config.maxNestingDepth) (name question : String) (pipeline : Pipeline σ)
    (found : manager.find name = .ok pipeline) (world : World σ) :
    manager.runAt query depth name question world =
      pipeline.run (manager.engineAt query depth) question world := by
  rw [manager.run_at_within query depth within, found]
  rfl

theorem run_at_refused (manager : Manager σ) (query : Query) (depth : Nat) (name question : String)
    (refused : manager.config.maxNestingDepth < depth ∨ ∃ error, manager.find name = .error error) (world : World σ) :
    ∃ error, manager.runAt query depth name question world = ⟨.error error, world, []⟩ := by
  by_cases beyond : manager.config.maxNestingDepth < depth
  · rw [manager.run_at_beyond query depth beyond]
    exact ⟨_, rfl⟩
  · obtain ⟨error, unknown⟩ := refused.resolve_left beyond
    rw [manager.run_at_within query depth (Nat.le_of_not_lt beyond), unknown]
    exact ⟨error, rfl⟩

def only (config : Config) (name : String) (pipeline : Pipeline σ) : Manager σ :=
  match add (bare config none) name pipeline with
  | .ok manager => manager
  | .error _ => bare .default none

theorem only_config (config : Config) (name : String) (pipeline : Pipeline σ) :
    (only config name pipeline).config = config := by
  simp [only, bare, add, Catalog.register?, Catalog.contains, Catalog.empty]

theorem only_stack (config : Config) (name : String) (pipeline : Pipeline σ) :
    (only config name pipeline).stack = usualStack := by
  simp [only, bare, add, Catalog.register?, Catalog.contains, Catalog.empty]

theorem only_finds (config : Config) (name : String) (pipeline : Pipeline σ) (other : String) :
    (only config name pipeline).find other =
      if name = other then .ok { pipeline with name } else .error (.unknownPipeline other) := by
  have absent : (bare config none : Manager σ).pipelines.contains name = false := by
    simp [bare, Catalog.contains, Catalog.empty]
  cases added : (bare config none : Manager σ).pipelines.register? name { pipeline with name } with
  | none => simp [Catalog.register?, absent] at added
  | some pipelines =>
      have isOnly : only config name pipeline = { bare config none with pipelines } := by rw [only, add, added]
      rw [isOnly, find, Catalog.find_register _ _ _ _ added]
      by_cases same : name = other <;> simp [same, bare, Catalog.find?, Catalog.empty]

theorem only_find (config : Config) (name : String) (pipeline : Pipeline σ) :
    (only config name pipeline).find name = .ok { pipeline with name } := by
  rw [only_finds, if_pos rfl]

def outermost (manager : Manager σ) (deadline : Deadline) : Query := ⟨deadline, 0, manager.stack⟩

def queryFrom (manager : Manager σ) (world : World σ) : Query :=
  manager.outermost ⟨world.now, manager.config.queryTimeoutMs⟩

theorem begin_run_at (manager : Manager σ) (stack level : Nat) (name question : String) :
    manager.beginRun (manager.meetWithin stack) level name question =
      (Deadline.start manager.config.queryTimeoutMs >>= fun deadline =>
        manager.runAt ⟨deadline, level, stack⟩ 0 name question) := rfl

theorem begin_execute_at (manager : Manager σ) (stack level : Nat) (name : String) (plan : Plan) :
    manager.beginExecute (manager.meetWithin stack) level name plan =
      (.ofExcept (manager.find name) >>= fun pipeline =>
        Deadline.start manager.config.queryTimeoutMs >>= fun deadline =>
          pipeline.execute (manager.engineAt ⟨deadline, level, stack⟩ 0) plan) := rfl

theorem run_from_start (manager : Manager σ) (name question : String) :
    manager.run name question =
      (Deadline.start manager.config.queryTimeoutMs >>= fun deadline =>
        manager.runAt (manager.outermost deadline) 0 name question) := rfl

theorem execute_from_start (manager : Manager σ) (name : String) (plan : Plan) :
    manager.execute name plan =
      (.ofExcept (manager.find name) >>= fun pipeline =>
        Deadline.start manager.config.queryTimeoutMs >>= fun deadline =>
          pipeline.execute (manager.engineAt (manager.outermost deadline) 0) plan) := rfl

theorem meet_within_none (manager : Manager σ) (level : Nat) (call : Call) (world : World σ) :
    manager.meetWithin 0 level call world =
      ⟨.error (.failed "stack overflow"), world,
        [⟨⟨0, level, ⟨world.now, manager.config.queryTimeoutMs⟩⟩, world.now, .overflowed⟩]⟩ := rfl

theorem start_then {ε α : Type} (limitMs : Option Nat) (next : Deadline → Action σ ε α) (world : World σ) :
    (Deadline.start limitMs >>= next) world = next ⟨world.now, limitMs⟩ world := rfl

theorem start_then_writes {ε α : Type} (limitMs : Option Nat) {next : Deadline → Action σ ε α}
    {post : Except ε α → Journal → Prop} (written : ∀ deadline, (next deadline).Writes post) :
    (Deadline.start limitMs >>= next).Writes post :=
  Action.bind_writes fun world => written ⟨world.now, limitMs⟩

theorem select_writes (manager : Manager σ) (question : String) :
    (manager.select question).Writes fun result journal =>
      journal = [] ∧ ∀ error, result = .error error → error.OfChoice := by
  rw [select]
  cases manager.classifier with
  | none => exact Action.fail_writes ⟨rfl, by simp [PipelineError.OfChoice]⟩
  | some classify =>
      refine Action.bind_writes (Action.map_error_writes (Action.bind_writes (Action.consult_writes fun choice => ?_)))
      refine Action.of_except_writes ?_
      cases choice with
      | error error => exact ⟨rfl, by simp [PipelineError.OfChoice]⟩
      | ok choice =>
          simp only [Except.mapError]
          cases manager.find (Text.trim choice) with
          | ok pipeline => exact Action.pure_writes ⟨rfl, by simp⟩
          | error _ => exact Action.fail_writes ⟨rfl, by simp [PipelineError.OfChoice]⟩

theorem begin_answer_writes (manager : Manager σ)
    (fresh : Nat → Call → Action σ ResolverError (Except PipelineError Answer)) (level : Nat) (question : String) :
    (manager.beginAnswer fresh level question).Writes fun result journal =>
      (journal = [] ∧ ∃ error, result = .error error ∧ error.OfChoice) ∨
        ∃ name later, journal = (manager.beginRun fresh level name question later).journal ∧
          result = (manager.beginRun fresh level name question later).result.map (Answer.mk name) := by
  rw [beginAnswer]
  refine Action.bind_writes (Action.writes_weaken (manager.select_writes question) fun result journal chosen => ?_)
  obtain ⟨rfl, ofChoice⟩ := chosen
  cases result with
  | error error => exact Or.inl ⟨rfl, error, rfl, ofChoice error rfl⟩
  | ok pipeline =>
      refine Action.bind_writes fun later => ?_
      cases ended : (manager.beginRun fresh level pipeline.name question later).result with
      | error error => exact Or.inr ⟨pipeline.name, later, rfl, by rw [ended]; rfl⟩
      | ok rows => exact Action.pure_writes (Or.inr ⟨pipeline.name, later, by simp, by rw [ended]; rfl⟩)

theorem answer_writes (manager : Manager σ) (question : String) :
    (manager.answer question).Writes fun result journal =>
      (journal = [] ∧ ∃ error, result = .error error ∧ error.OfChoice) ∨
        ∃ name later, journal = (manager.run name question later).journal ∧
          result = (manager.run name question later).result.map (Answer.mk name) :=
  manager.begin_answer_writes _ 0 question

section Kept

variable (manager : Manager σ) (kept : Nat → Journal → Prop)

/-- What may be counted on inside a call of a resolver, for the runs that it asks for and for its calls of the
manager. -/
structure Deeper (query : Query) (depth : Nat) : Prop where
  asked : ∀ name question world,
    kept (query.level + depth + 1) (manager.runAt query (depth + 1) name question world).journal
  entered : ∀ call world,
    kept (query.level + depth + 1) (manager.meetWithin query.stack (query.level + depth + 1) call world).journal

theorem served_kept (nothing : ∀ level, kept level [])
    (together : ∀ level before after, kept level before → kept level after → kept level (before ++ after))
    (query : Query) (depth : Nat) (deeper : manager.Deeper kept query depth) (journal : Journal)
    (served : (manager.engineAt query depth).Served journal) : kept (query.level + depth + 1) journal := by
  induction served with
  | nothing => exact nothing _
  | asked scope inScope pipeline question world rest _ ih =>
      obtain rfl : manager.scopeAt query depth = scope := Option.some.inj inScope
      exact together _ _ _ (deeper.asked pipeline question world) ih
  | entered scope inScope call world rest _ ih =>
      obtain rfl : manager.scopeAt query depth = scope := Option.some.inj inScope
      exact together _ _ _ (deeper.entered call world) ih

end Kept

-- What holds of a run when it holds of whatever its resolvers reach holds everywhere. The outer induction is on the
-- stack that is left for calls of the manager, the inner one on how far the depth is from the limit.
theorem reaches (manager : Manager σ) (ran : Query → Nat → Prop) (entered : Nat → Nat → Prop)
    (refused : ∀ query depth, manager.config.maxNestingDepth < depth → ran query depth)
    (runs : ∀ query depth, depth ≤ manager.config.maxNestingDepth → ran query (depth + 1) →
      entered query.stack (query.level + depth + 1) → ran query depth)
    (overflows : ∀ level, entered 0 level)
    (enters : ∀ stack level, (∀ deadline depth, ran ⟨deadline, level, stack⟩ depth) →
      (∀ level, entered stack level) → entered (stack + 1) level) :
    (∀ query depth, ran query depth) ∧ ∀ stack level, entered stack level := by
  have ranWith (stack : Nat) (met : ∀ level, entered stack level) (query : Query) (isStack : query.stack = stack)
      (depth : Nat) : ran query depth := by
    generalize isRoom : manager.config.maxNestingDepth + 1 - depth = room
    induction room generalizing depth with
    | zero => exact refused query depth (by omega)
    | succ room ih => exact runs query depth (by omega) (ih (depth + 1) (by omega)) (isStack ▸ met _)
  have met (stack : Nat) : ∀ level, entered stack level := by
    induction stack with
    | zero => exact overflows
    | succ stack ih =>
        exact fun level => enters stack level (fun deadline => ranWith stack ih ⟨deadline, level, stack⟩ rfl) ih
  exact ⟨fun query => ranWith query.stack (met query.stack) query rfl, met⟩

theorem run_at_kept (manager : Manager σ) (kept : Journal → Prop) (nothing : kept []) (query : Query) (depth : Nat)
    (ran : ∀ name question pipeline world, depth ≤ manager.config.maxNestingDepth →
      manager.find name = .ok pipeline → kept (manager.runAt query depth name question world).journal)
    (name question : String) (world : World σ) : kept (manager.runAt query depth name question world).journal := by
  have refused (isRefused : manager.config.maxNestingDepth < depth ∨ ∃ error, manager.find name = .error error) :
      kept (manager.runAt query depth name question world).journal := by
    obtain ⟨error, same⟩ := manager.run_at_refused query depth name question isRefused world
    rw [same]
    exact nothing
  by_cases within : depth ≤ manager.config.maxNestingDepth
  · cases found : manager.find name with
    | error error => exact refused (Or.inr ⟨error, found⟩)
    | ok pipeline => exact ran name question pipeline world within found
  · exact refused (Or.inl (Nat.lt_of_not_le within))

section Calls

variable (manager : Manager σ) (kept : Journal → Prop) (stack level : Nat)

theorem begin_run_kept
    (ran : ∀ deadline name question world, kept (manager.runAt ⟨deadline, level, stack⟩ 0 name question world).journal)
    (name question : String) (world : World σ) :
    kept (manager.beginRun (manager.meetWithin stack) level name question world).journal := by
  have written : (manager.beginRun (manager.meetWithin stack) level name question).Writes fun _ journal =>
      kept journal := by
    rw [begin_run_at]
    exact start_then_writes _ fun deadline world => ran deadline name question world
  exact written world

theorem begin_execute_kept (nothing : kept [])
    (executed : ∀ deadline name pipeline plan world, manager.find name = .ok pipeline →
      kept (pipeline.execute (manager.engineAt ⟨deadline, level, stack⟩ 0) plan world).journal)
    (name : String) (plan : Plan) (world : World σ) :
    kept (manager.beginExecute (manager.meetWithin stack) level name plan world).journal := by
  have written : (manager.beginExecute (manager.meetWithin stack) level name plan).Writes fun _ journal =>
      kept journal := by
    rw [begin_execute_at]
    refine Action.bind_writes (Action.of_except_writes ?_)
    cases found : manager.find name with
    | error error => exact nothing
    | ok pipeline => exact start_then_writes _ fun deadline world => executed deadline name pipeline plan world found
  exact written world

theorem begin_answer_kept (nothing : kept [])
    (ran : ∀ deadline name question world, kept (manager.runAt ⟨deadline, level, stack⟩ 0 name question world).journal)
    (question : String) (world : World σ) :
    kept (manager.beginAnswer (manager.meetWithin stack) level question world).journal := by
  rcases manager.begin_answer_writes _ level question world with ⟨silent, _⟩ | ⟨name, later, same, _⟩
  · rw [silent]
    exact nothing
  · rw [same]
    exact manager.begin_run_kept kept stack level ran name question later

theorem meet_kept (nothing : kept [])
    (ran : ∀ deadline name question world, kept (manager.runAt ⟨deadline, level, stack⟩ 0 name question world).journal)
    (executed : ∀ deadline name pipeline plan world, manager.find name = .ok pipeline →
      kept (pipeline.execute (manager.engineAt ⟨deadline, level, stack⟩ 0) plan world).journal)
    (call : Call) (world : World σ) : kept (manager.meet (manager.meetWithin stack) level call world).journal := by
  cases call with
  | run name question =>
      rw [meet, Action.bind_pure_journal]
      exact manager.begin_run_kept kept stack level ran name question world
  | execute name plan =>
      rw [meet, Action.bind_pure_journal]
      exact manager.begin_execute_kept kept stack level nothing executed name plan world
  | answer question => exact manager.begin_answer_kept kept stack level nothing ran question world

end Calls

section Kept

variable (manager : Manager σ) (kept : Nat → Journal → Prop)

theorem deeper_kept (nothing : ∀ level, kept level [])
    (overflowed : ∀ level deadline time, kept level [⟨⟨0, level, deadline⟩, time, .overflowed⟩])
    (ran : ∀ query depth name question pipeline world, depth ≤ manager.config.maxNestingDepth →
      manager.find name = .ok pipeline → manager.Deeper kept query depth →
      kept (query.level + depth) (manager.runAt query depth name question world).journal)
    (executed : ∀ query name pipeline plan world, manager.find name = .ok pipeline → manager.Deeper kept query 0 →
      kept query.level (pipeline.execute (manager.engineAt query 0) plan world).journal)
    (query : Query) (depth : Nat) : manager.Deeper kept query depth := by
  have reached := manager.reaches
    (fun query depth => ∀ name question world,
      kept (query.level + depth) (manager.runAt query depth name question world).journal)
    (fun stack level => ∀ call world, kept level (manager.meetWithin stack level call world).journal)
    (fun query depth beyond => manager.run_at_kept _ (nothing _) query depth fun _ _ _ _ within =>
      absurd within (Nat.not_le_of_lt beyond))
    (fun query depth _ asked entered => manager.run_at_kept _ (nothing _) query depth
      fun name question pipeline world within found =>
        ran query depth name question pipeline world within found ⟨asked, entered⟩)
    (fun level call world => overflowed level _ _)
    (fun stack level ran entered call world =>
      manager.meet_kept (kept level) stack level (nothing level) (fun deadline => ran deadline 0)
        (fun deadline name pipeline plan world found => executed ⟨deadline, level, stack⟩ name pipeline plan world found
          ⟨ran deadline 1, entered (level + 1)⟩) call world)
  exact ⟨reached.1 query (depth + 1), reached.2 query.stack (query.level + depth + 1)⟩

end Kept

theorem step_kept (manager : Manager σ) (kept : Journal → Prop) (nothing : kept [])
    (ran : ∀ deadline name question world,
      kept (manager.runAt (manager.outermost deadline) 0 name question world).journal)
    (executed : ∀ deadline name pipeline plan world, manager.find name = .ok pipeline →
      kept (pipeline.execute (manager.engineAt (manager.outermost deadline) 0) plan world).journal)
    (step : Step σ) (world : World σ) : kept (step.journal manager world) := by
  cases step with
  | add name pipeline =>
      rw [Step.journal, Step.take]
      cases manager.add name pipeline <;> exact nothing
  | run name question => exact manager.begin_run_kept kept manager.stack 0 ran name question world
  | answer question => exact manager.begin_answer_kept kept manager.stack 0 nothing ran question world
  | execute name plan => exact manager.begin_execute_kept kept manager.stack 0 nothing executed name plan world
  | elsewhere state elapsed => exact nothing

end Manager

end FilterPlan
