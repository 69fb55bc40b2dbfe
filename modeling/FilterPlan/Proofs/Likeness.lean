import FilterPlan.Proofs.Session

set_option autoImplicit false

namespace FilterPlan

namespace Action

variable {σ ε δ α β : Type} {tame : Event → Prop}

-- Another action does the same in every world in which all that an action writes is tame.
def AlikeIf (tame : Event → Prop) (action other : Action σ ε α) : Prop :=
  ∀ world, (∀ entry ∈ (action world).journal, tame entry.event) → other world = action world

theorem alike_refl (action : Action σ ε α) : action.AlikeIf tame action := fun _ _ => rfl

theorem alike_bind {first second : Action σ ε α} {next later : α → Action σ ε β} (alike : first.AlikeIf tame second)
    (thenAlike : ∀ value, (next value).AlikeIf tame (later value)) :
    (first >>= next).AlikeIf tame (second >>= later) := by
  intro world isTame
  rcases ended : first world with ⟨error | value, after, journal⟩
  · rw [bind_failed ended] at isTame ⊢
    exact bind_failed ((alike world (by rwa [ended])).trans ended)
  · rw [bind_after ended] at isTame ⊢
    have same := alike world (by rw [ended]; exact fun entry inside => isTame entry (List.mem_append_left _ inside))
    rw [bind_after (same.trans ended),
      thenAlike value after fun entry inside => isTame entry (List.mem_append_right _ inside)]

theorem alike_of_except {result : Except ε α} {next later : α → Action σ ε β}
    (thenAlike : ∀ value, result = .ok value → (next value).AlikeIf tame (later value)) :
    (.ofExcept result >>= next).AlikeIf tame (.ofExcept result >>= later) := by
  cases result with
  | error error => exact fun world _ => rfl
  | ok value => exact fun world isTame => thenAlike value rfl world isTame

theorem alike_attempt {action other : Action σ δ α} (alike : action.AlikeIf tame other) :
    (action.attempt : Action σ ε (Except δ α)).AlikeIf tame other.attempt := by
  intro world isTame
  rw [attempt, attempt, alike world isTame]

theorem alike_map_error {action other : Action σ δ α} (change : δ → ε) (alike : action.AlikeIf tame other) :
    (action.mapError change).AlikeIf tame (other.mapError change) := by
  intro world isTame
  rw [mapError, mapError, alike world isTame]

theorem alike_on_failure {action other : Action σ ε α} (respond : ε → Action σ ε Unit)
    (alike : action.AlikeIf tame other) : (action.onFailure respond).AlikeIf tame (other.onFailure respond) :=
  alike_bind (alike_attempt alike) fun _ => alike_refl _

theorem alike_same {action other : Action σ ε α} (alike : action.AlikeIf (fun _ => True) other) : other = action :=
  funext fun world => alike world fun _ _ => trivial

end Action

namespace Resolution

variable {σ : Type}

-- A resolution that reaches the manager in no other way than by asking for runs.
def Asks : Resolution σ → Prop
  | .done _ => True
  | .look next => ∀ state, (next state).Asks
  | .change _ next => next.Asks
  | .wait _ next => next.Asks
  | .ask _ _ next => ∀ outcome, (next outcome).Asks
  | .enter _ _ => False

theorem perform_alike {tame : Event → Prop} (access other : Access σ) (resolution : Resolution σ)
    (asks : ∀ pipeline question, (access.ask pipeline question).AlikeIf tame (other.ask pipeline question))
    (enters : resolution.Asks ∨ ∀ call, (access.enter call).AlikeIf tame (other.enter call)) :
    (resolution.perform access).AlikeIf tame (resolution.perform other) := by
  induction resolution with
  | done outcome => exact Action.alike_refl _
  | look next ih => exact fun world => ih world.state (enters.imp_left fun asking => asking world.state) world
  | change state next ih => exact fun world => ih enters ⟨state, world.now⟩
  | wait time next ih => exact fun world => ih enters ⟨world.state, world.now + time⟩
  | ask pipeline question next ih =>
      exact Action.alike_bind (Action.alike_attempt (asks pipeline question)) fun outcome =>
        ih outcome (enters.imp_left fun asking => asking outcome)
  | enter call next ih =>
      have alike := enters.resolve_left id
      exact Action.alike_bind (alike call) fun reply => ih reply (Or.inr alike)

end Resolution

def Registry.Asks {σ : Type} (registry : Registry σ) : Prop :=
  ∀ name filter, registry.find name = .ok filter → ∀ instruction context, (filter.resolver instruction context).Asks

theorem Registry.register_asks {σ : Type} (registry next : Registry σ) (descriptor : FilterDescriptor)
    (resolver : Resolver σ) (registered : registry.register descriptor resolver = .ok next) (asks : registry.Asks)
    (asking : ∀ instruction context, (resolver instruction context).Asks) : next.Asks := by
  intro name filter found
  rw [Registry.find_register registry next descriptor resolver registered] at found
  by_cases same : descriptor.name = name
  · rw [if_pos same] at found
    rw [← Except.ok.inj found]
    exact asking
  · rw [if_neg same] at found
    exact asks name filter found

theorem Registry.empty_asks {σ : Type} : (Registry.empty : Registry σ).Asks := by
  intro name filter found
  rw [Registry.find_empty] at found
  cases found

structure Engine.Alike {σ : Type} (tame : Event → Prop) (registry : Registry σ) (engine other : Engine σ) : Prop where
  config : other.config = engine.config
  site : other.site = engine.site
  managed : other.scope.isSome = engine.scope.isSome
  performs : ∀ name filter, registry.find name = .ok filter → ∀ instruction context,
    ((filter.resolver instruction context).perform engine.serve).AlikeIf tame
      ((filter.resolver instruction context).perform other.serve)

namespace Engine.Alike

variable {σ : Type} {tame : Event → Prop} {registry : Registry σ} {engine other : Engine σ}

theorem deadline (alike : engine.Alike tame registry other) : other.deadline = engine.deadline :=
  congrArg Site.deadline alike.site

theorem depth (alike : engine.Alike tame registry other) : other.depth = engine.depth :=
  congrArg Site.depth alike.site

end Engine.Alike

namespace Evaluation

variable {σ : Type} {tame : Event → Prop} {registry : Registry σ} {engine other : Engine σ}
  (alike : engine.Alike tame registry other) (plan : Plan)

include alike

theorem count_alike {ε : Type} (metric : Metric) : (ofPlan other registry plan).count metric =
    ((ofPlan engine registry plan).count metric : Action σ ε Unit) :=
  congrArg (Action.count · metric) alike.site

theorem trace_alike {ε : Type} (note : TraceNote) : (ofPlan other registry plan).trace note =
    ((ofPlan engine registry plan).trace note : Action σ ε Unit) :=
  congrArg (Action.record · _) alike.site

theorem context_alike (path : Path) (attempt : Nat) : (ofPlan other registry plan).context path attempt =
    (ofPlan engine registry plan).context path attempt := by
  simp only [context, ofPlan, alike.depth, alike.managed]

theorem call_alike (placed : PlacedLeaf) (name : String) (filter : Filter σ) (found : registry.find name = .ok filter)
    (attempt : Nat) : ((ofPlan engine registry plan).call placed filter.resolver attempt).AlikeIf tame
      ((ofPlan other registry plan).call placed filter.resolver attempt) := by
  have isDeadline : (ofPlan other registry plan).engine.deadline = (ofPlan engine registry plan).engine.deadline :=
    alike.deadline
  have isSite : (ofPlan other registry plan).engine.site = (ofPlan engine registry plan).engine.site := alike.site
  simp only [call, isDeadline, isSite, context_alike alike]
  refine Action.alike_bind (Action.alike_refl _) fun _ => Action.alike_bind (Action.alike_refl _) fun _ => ?_
  exact Action.alike_bind (Action.alike_attempt (alike.performs name filter found _ _)) fun outcome =>
    Action.alike_refl _

theorem accept_alike (placed : PlacedLeaf) (attempt : Nat) (rows : IdentitySet) :
    (ofPlan other registry plan).accept placed attempt rows = (ofPlan engine registry plan).accept placed attempt rows := by
  rw [accept, accept, count_alike alike, trace_alike alike]

theorem give_up_alike (placed : PlacedLeaf) (attempt : Nat) (source : ResolverError) :
    (ofPlan other registry plan).giveUp placed attempt source =
      (ofPlan engine registry plan).giveUp placed attempt source := by
  rw [giveUp, giveUp, count_alike alike]

theorem rows_of_alike (placed : PlacedLeaf) (name : String) (filter : Filter σ)
    (found : registry.find name = .ok filter) (retries attempt : Nat) :
    ((ofPlan engine registry plan).rowsOf placed filter.resolver retries attempt).AlikeIf tame
      ((ofPlan other registry plan).rowsOf placed filter.resolver retries attempt) := by
  induction retries generalizing attempt with
  | zero =>
      rw [rowsOf, rowsOf]
      refine Action.alike_bind (call_alike alike plan placed name filter found attempt) fun outcome => ?_
      cases outcome with
      | ok rows =>
          dsimp only
          rw [accept_alike alike]
          exact Action.alike_refl _
      | error source =>
          dsimp only
          rw [give_up_alike alike]
          exact Action.alike_refl _
  | succ retries ih =>
      rw [rowsOf, rowsOf]
      refine Action.alike_bind (call_alike alike plan placed name filter found attempt) fun outcome => ?_
      cases outcome with
      | ok rows =>
          dsimp only
          rw [accept_alike alike]
          exact Action.alike_refl _
      | error source =>
          dsimp only
          by_cases passing : source.isTransient
          · rw [if_pos passing, if_pos passing, count_alike alike]
            exact Action.alike_bind (Action.alike_refl _) fun _ => ih (attempt + 1)
          · rw [if_neg passing, if_neg passing, give_up_alike alike]
            exact Action.alike_refl _

theorem resolve_alike (placed : PlacedLeaf) :
    ((ofPlan engine registry plan).resolve placed).AlikeIf tame ((ofPlan other registry plan).resolve placed) := by
  have same : (ofPlan other registry plan).registry = (ofPlan engine registry plan).registry := rfl
  have retries : (ofPlan other registry plan).engine.config = (ofPlan engine registry plan).engine.config :=
    alike.config
  rw [resolve, resolve, same, retries]
  refine Action.alike_of_except fun filter (found : (registry.find placed.leaf.filter).mapError _ = .ok filter) => ?_
  have known : registry.find placed.leaf.filter = .ok filter := by
    cases isFound : registry.find placed.leaf.filter with
    | error error => simp [isFound, Except.mapError] at found
    | ok other => simpa [isFound, Except.mapError] using found
  exact rows_of_alike alike plan placed _ filter known _ 0

theorem resolve_all_alike (leaves : List PlacedLeaf) :
    ((ofPlan engine registry plan).resolveAll leaves).AlikeIf tame ((ofPlan other registry plan).resolveAll leaves) := by
  induction leaves with
  | nil => exact Action.alike_refl _
  | cons placed rest ih =>
      rw [resolveAll, resolveAll]
      exact Action.alike_bind (resolve_alike alike plan placed) fun rows =>
        Action.alike_bind ih fun others => Action.alike_refl _

theorem skip_unknown_alike {ε : Type} (leaves : List PlacedLeaf) : (ofPlan other registry plan).skipUnknown leaves =
    ((ofPlan engine registry plan).skipUnknown leaves : Action σ ε (List PlacedLeaf)) := by
  induction leaves with
  | nil => rfl
  | cons placed rest ih =>
      have same : (ofPlan other registry plan).registry = (ofPlan engine registry plan).registry := rfl
      rw [skipUnknown, skipUnknown, same, ih, count_alike alike, trace_alike alike]

theorem choose_alike (leaves : List PlacedLeaf) :
    (ofPlan other registry plan).choose leaves = (ofPlan engine registry plan).choose leaves := by
  have policy : (ofPlan other registry plan).engine.config.missingFilter =
      (ofPlan engine registry plan).engine.config.missingFilter := congrArg Config.missingFilter alike.config
  rw [choose, choose, policy, skip_unknown_alike alike]
  rfl

theorem store_leaves_alike (leaves : List PlacedLeaf) :
    ((ofPlan engine registry plan).storeLeaves leaves).AlikeIf tame
      ((ofPlan other registry plan).storeLeaves leaves) := by
  have depth : (ofPlan other registry plan).engine.depth = (ofPlan engine registry plan).engine.depth := alike.depth
  rw [storeLeaves, storeLeaves, count_alike alike, depth, trace_alike alike, choose_alike alike]
  refine Action.alike_bind (Action.alike_refl _) fun _ => Action.alike_bind (Action.alike_refl _) fun _ => ?_
  exact Action.alike_bind (Action.alike_refl _) fun chosen =>
    Action.alike_bind (resolve_all_alike alike plan chosen) fun results => Action.alike_refl _

theorem evaluate_alike :
    ((ofPlan engine registry plan).evaluate).AlikeIf tame (ofPlan other registry plan).evaluate := by
  have faults : (ofPlan other registry plan).fault = (ofPlan engine registry plan).fault := by
    funext error
    rw [fault, fault, count_alike alike, trace_alike alike]
  have same : (ofPlan other registry plan).plan = (ofPlan engine registry plan).plan := rfl
  rw [evaluate, evaluate, same]
  cases (ofPlan engine registry plan).plan.root with
  | none =>
      dsimp only
      rw [count_alike alike]
      exact Action.alike_refl _
  | some root =>
      dsimp only
      rw [evaluateNode, evaluateNode, faults]
      exact Action.alike_on_failure _ (store_leaves_alike alike plan _)

end Evaluation

namespace Pipeline

variable {σ : Type} {tame : Event → Prop} {engine other : Engine σ} (pipeline : Pipeline σ)
  (alike : engine.Alike tame pipeline.registry other)

include alike

theorem merge_alike (plan : Plan) (store : Store) : merge (.ofPlan other pipeline.registry plan) store =
    merge (.ofPlan engine pipeline.registry plan) store := by
  have policy : (Evaluation.ofPlan other pipeline.registry plan).engine.config.missingOperand =
      (Evaluation.ofPlan engine pipeline.registry plan).engine.config.missingOperand :=
    congrArg Config.missingOperand alike.config
  rw [merge, merge, policy]
  simp only [Evaluation.trace_alike alike]

theorem execute_alike (plan : Plan) :
    (pipeline.execute engine plan).AlikeIf tame (pipeline.execute other plan) := by
  rw [execute, execute]
  simp only [Evaluation.trace_alike alike, Evaluation.count_alike alike, pipeline.merge_alike alike]
  by_cases isUnfiltered : plan.isUnfiltered
  · rw [if_pos isUnfiltered, if_pos isUnfiltered]
    exact Action.alike_refl _
  · rw [if_neg isUnfiltered, if_neg isUnfiltered]
    exact Action.alike_bind (Action.alike_map_error _ (Evaluation.evaluate_alike alike plan)) fun store =>
      Action.alike_refl _

theorem propose_alike (question : String) (attempt : Nat) (feedback : Option String) :
    pipeline.propose other question attempt feedback = pipeline.propose engine question attempt feedback := by
  rw [propose, propose, alike.deadline, alike.site]

theorem plan_for_alike (question : String) (retries attempt : Nat) (feedback : Option String) :
    pipeline.planFor other question retries attempt feedback =
      pipeline.planFor engine question retries attempt feedback := by
  induction retries generalizing attempt feedback with
  | zero => rw [planFor, planFor, pipeline.propose_alike alike, alike.site]
  | succ retries ih =>
      rw [planFor, planFor, pipeline.propose_alike alike]
      simp only [ih]

theorem run_alike (question : String) :
    (pipeline.run engine question).AlikeIf tame (pipeline.run other question) := by
  have plans : pipeline.generatePlan other question = pipeline.generatePlan engine question := by
    rw [generatePlan, generatePlan, alike.config, pipeline.plan_for_alike alike]
  have answers : (pipeline.answer engine question).AlikeIf tame (pipeline.answer other question) := by
    rw [answer, answer, plans]
    exact Action.alike_bind (Action.alike_refl _) fun plan => pipeline.execute_alike alike plan
  rw [run, run, alike.site, alike.depth]
  exact Action.alike_bind (Action.alike_refl _) fun _ =>
    Action.alike_bind (Action.alike_on_failure _ answers) fun rows => Action.alike_refl _

end Pipeline

theorem Engine.scope_alike {σ : Type} {tame : Event → Prop} (registry : Registry σ) (config : Config)
    (deadline : Deadline) (depth : Nat) (scope other : Scope σ) (sameLevel : other.level = scope.level)
    (nested : ∀ pipeline question, (scope.nested pipeline question).AlikeIf tame (other.nested pipeline question))
    (fresh : registry.Asks ∨ ∀ call, (scope.fresh call).AlikeIf tame (other.fresh call)) :
    Engine.Alike tame registry ⟨config, deadline, depth, some scope⟩ ⟨config, deadline, depth, some other⟩ := by
  constructor
  case config => rfl
  case site => simp [site, level, sameLevel]
  case managed => rfl
  case performs =>
    intro name filter found instruction context
    apply Resolution.perform_alike
    · exact fun pipeline question => Action.alike_map_error _ (nested pipeline question)
    · exact fresh.imp (fun asks => asks name filter found instruction context) fun alike call =>
        Action.alike_bind (alike call) fun reply => Action.alike_refl _

namespace Manager

variable {σ : Type} (manager : Manager σ)

def Asks : Prop := ∀ name pipeline, manager.find name = .ok pipeline → pipeline.registry.Asks

theorem only_asks (config : Config) (name : String) (pipeline : Pipeline σ) (asks : pipeline.registry.Asks) :
    (only config name pipeline).Asks := by
  intro other found isFound
  rw [only_finds] at isFound
  by_cases same : name = other
  · rw [if_pos same] at isFound
    rw [← Except.ok.inj isFound]
    exact asks
  · rw [if_neg same] at isFound
    cases isFound

section Steps

variable {tame : Event → Prop} (query : Query) (stack depth : Nat)

theorem engine_at_alike (registry : Registry σ)
    (nested : ∀ name question, (manager.runAt query (depth + 1) name question).AlikeIf tame
      (manager.runAt { query with stack } (depth + 1) name question))
    (fresh : registry.Asks ∨ ∀ call, (manager.meetWithin query.stack (query.level + depth + 1) call).AlikeIf tame
      (manager.meetWithin stack (query.level + depth + 1) call)) :
    (manager.engineAt query depth).Alike tame registry (manager.engineAt { query with stack } depth) :=
  Engine.scope_alike registry manager.config query.deadline depth (manager.scopeAt query depth)
    (manager.scopeAt { query with stack } depth) rfl nested fresh

theorem run_at_alike (name question : String)
    (engines : depth ≤ manager.config.maxNestingDepth → ∀ pipeline, manager.find name = .ok pipeline →
      (manager.engineAt query depth).Alike tame pipeline.registry (manager.engineAt { query with stack } depth)) :
    (manager.runAt query depth name question).AlikeIf tame
      (manager.runAt { query with stack } depth name question) := by
  by_cases within : depth ≤ manager.config.maxNestingDepth
  · rw [manager.run_at_within query depth within, manager.run_at_within { query with stack } depth within]
    exact Action.alike_of_except fun pipeline found => pipeline.run_alike (engines within pipeline found) question
  · have beyond := Nat.lt_of_not_le within
    rw [manager.run_at_beyond query depth beyond, manager.run_at_beyond { query with stack } depth beyond]
    exact Action.alike_refl _

end Steps

theorem run_at_asks (asks : manager.Asks) (query : Query) (stack depth : Nat) :
    manager.runAt { query with stack } depth = manager.runAt query depth := by
  have alike (room : Nat) : ∀ depth, manager.config.maxNestingDepth + 1 - depth = room → ∀ name question,
      (manager.runAt query depth name question).AlikeIf (fun _ => True)
        (manager.runAt { query with stack } depth name question) := by
    induction room with
    | zero => exact fun depth isRoom name question => manager.run_at_alike query stack depth name question (by omega)
    | succ room ih =>
        exact fun depth isRoom name question => manager.run_at_alike query stack depth name question
          fun within pipeline found => manager.engine_at_alike query stack depth pipeline.registry
            (ih (depth + 1) (by omega)) (Or.inl (asks name pipeline found))
  funext name question
  exact Action.alike_same (alike _ depth rfl name question)

theorem engine_at_asks (asks : manager.Asks) (query : Query) (stack depth : Nat) (registry : Registry σ)
    (registryAsks : registry.Asks) : Engine.Alike (fun _ => True) registry (manager.engineAt query depth)
      (manager.engineAt { query with stack } depth) := by
  have nested := manager.run_at_asks asks query stack (depth + 1)
  exact manager.engine_at_alike query stack depth registry
    (fun name question => by rw [nested]; exact Action.alike_refl _) (Or.inl registryAsks)

theorem execute_at_asks (asks : manager.Asks) (query : Query) (stack : Nat) (name : String) (pipeline : Pipeline σ)
    (found : manager.find name = .ok pipeline) (plan : Plan) :
    pipeline.execute (manager.engineAt { query with stack } 0) plan = pipeline.execute (manager.engineAt query 0) plan :=
  Action.alike_same (pipeline.execute_alike
    (manager.engine_at_asks asks query stack 0 pipeline.registry (asks name pipeline found)) plan)

section Calls

variable {tame : Event → Prop} (stack more level : Nat)

theorem begin_run_alike
    (ran : ∀ deadline name question, (manager.runAt ⟨deadline, level, stack⟩ 0 name question).AlikeIf tame
      (manager.runAt ⟨deadline, level, more⟩ 0 name question)) (name question : String) :
    (manager.beginRun (manager.meetWithin stack) level name question).AlikeIf tame
      (manager.beginRun (manager.meetWithin more) level name question) :=
  Action.alike_bind (Action.alike_refl _) fun deadline => ran deadline name question

theorem begin_execute_alike
    (engines : ∀ deadline registry, (manager.engineAt ⟨deadline, level, stack⟩ 0).Alike tame registry
      (manager.engineAt ⟨deadline, level, more⟩ 0)) (name : String) (plan : Plan) :
    (manager.beginExecute (manager.meetWithin stack) level name plan).AlikeIf tame
      (manager.beginExecute (manager.meetWithin more) level name plan) :=
  Action.alike_of_except fun pipeline _ => Action.alike_bind (Action.alike_refl _) fun deadline =>
    pipeline.execute_alike (engines deadline pipeline.registry) plan

theorem begin_answer_alike
    (ran : ∀ deadline name question, (manager.runAt ⟨deadline, level, stack⟩ 0 name question).AlikeIf tame
      (manager.runAt ⟨deadline, level, more⟩ 0 name question)) (question : String) :
    (manager.beginAnswer (manager.meetWithin stack) level question).AlikeIf tame
      (manager.beginAnswer (manager.meetWithin more) level question) :=
  Action.alike_bind (Action.alike_refl _) fun pipeline =>
    Action.alike_bind (manager.begin_run_alike stack more level ran pipeline.name question) fun _ => Action.alike_refl _

end Calls

theorem more_alike :
    (∀ (query : Query) depth stack, query.stack ≤ stack → ∀ name question,
      (manager.runAt query depth name question).AlikeIf (· ≠ .overflowed)
        (manager.runAt { query with stack } depth name question)) ∧
      ∀ stack level more, stack ≤ more → ∀ call, (manager.meetWithin stack level call).AlikeIf (· ≠ .overflowed)
        (manager.meetWithin more level call) := by
  apply manager.reaches
    (fun query depth => ∀ stack, query.stack ≤ stack → ∀ name question,
      (manager.runAt query depth name question).AlikeIf (· ≠ .overflowed)
        (manager.runAt { query with stack } depth name question))
    (fun stack level => ∀ more, stack ≤ more → ∀ call, (manager.meetWithin stack level call).AlikeIf (· ≠ .overflowed)
      (manager.meetWithin more level call))
  case refused =>
    exact fun query depth beyond stack _ name question => manager.run_at_alike query stack depth name question
      fun within => absurd within (Nat.not_le_of_lt beyond)
  case runs =>
    exact fun query depth _ asked entered stack enough name question =>
      manager.run_at_alike query stack depth name question fun _ pipeline _ =>
        manager.engine_at_alike query stack depth pipeline.registry (asked stack enough) (Or.inr (entered stack enough))
  case overflows =>
    intro level more _ call world fits
    exact absurd rfl (fits _ (by rw [meet_within_none]; exact List.mem_cons_self))
  case enters =>
    intro stack level ran entered more enough call
    obtain ⟨more, rfl⟩ : ∃ fewer, more = fewer + 1 := ⟨more - 1, by omega⟩
    have enough : stack ≤ more := Nat.le_of_succ_le_succ enough
    apply Action.alike_attempt
    cases call with
    | run name question =>
        exact Action.alike_bind (manager.begin_run_alike stack more level (fun deadline => ran deadline 0 more enough)
          name question) fun rows => Action.alike_refl _
    | execute name plan =>
        refine Action.alike_bind (manager.begin_execute_alike stack more level (fun deadline registry => ?_) name plan)
          fun rows => Action.alike_refl _
        exact manager.engine_at_alike ⟨deadline, level, stack⟩ more 0 registry (ran deadline 1 more enough)
          (Or.inr (entered (level + 1) more enough))
    | answer question =>
        exact manager.begin_answer_alike stack more level (fun deadline => ran deadline 0 more enough) question

theorem restacked_run (stack : Nat) (fresh : Nat → Call → Action σ ResolverError (Except PipelineError Answer))
    (deadline : Deadline) (level room : Nat) :
    { manager with stack }.runWithin fresh deadline level room = manager.runWithin fresh deadline level room := by
  induction room with
  | zero => rfl
  | succ room ih =>
      funext name question
      rw [runWithin, runWithin, ih]
      rfl

theorem restacked_begin (stack level : Nat) (fresh : Nat → Call → Action σ ResolverError (Except PipelineError Answer)) :
    { manager with stack }.beginRun fresh level = manager.beginRun fresh level ∧
      { manager with stack }.beginExecute fresh level = manager.beginExecute fresh level ∧
      { manager with stack }.beginAnswer fresh level = manager.beginAnswer fresh level := by
  have runs : { manager with stack }.beginRun fresh level = manager.beginRun fresh level := by
    funext name question
    simp only [beginRun, restacked_run]
  refine ⟨runs, ?_, ?_⟩
  · funext name plan
    simp only [beginExecute, engine, restacked_run]
    rfl
  · funext question
    simp only [beginAnswer, runs]
    rfl

theorem restacked_meet (stack room : Nat) : { manager with stack }.meetWithin room = manager.meetWithin room := by
  induction room with
  | zero => rfl
  | succ room ih =>
      funext level call
      obtain ⟨runs, executes, answers⟩ := manager.restacked_begin stack level (manager.meetWithin room)
      rw [meetWithin, meetWithin, ih]
      cases call with
      | run name question => rw [meet, meet, runs]
      | execute name plan => rw [meet, meet, executes]
      | answer question => rw [meet, meet, answers]

-- How much stack there is makes no difference to a call that does not use it up: to its result, to what it writes and
-- to what it does to the world.
theorem stack_irrelevant (stack : Nat) (enough : manager.stack ≤ stack) :
    (∀ name question, (manager.run name question).AlikeIf (· ≠ .overflowed)
      ({ manager with stack }.run name question)) ∧
    (∀ name plan, (manager.execute name plan).AlikeIf (· ≠ .overflowed) ({ manager with stack }.execute name plan)) ∧
    ∀ question, (manager.answer question).AlikeIf (· ≠ .overflowed) ({ manager with stack }.answer question) := by
  obtain ⟨ran, entered⟩ := manager.more_alike
  obtain ⟨sameRun, sameExecute, sameAnswer⟩ := manager.restacked_begin stack 0 (manager.meetWithin stack)
  have runs (deadline : Deadline) := ran (manager.outermost deadline) 0 stack enough
  simp only [run, execute, answer, manager.restacked_meet, sameRun, sameExecute, sameAnswer]
  refine ⟨manager.begin_run_alike manager.stack stack 0 runs, ?_, manager.begin_answer_alike manager.stack stack 0 runs⟩
  refine manager.begin_execute_alike manager.stack stack 0 fun deadline registry => ?_
  exact manager.engine_at_alike (manager.outermost deadline) stack 0 registry
    (ran (manager.outermost deadline) 1 stack enough) (Or.inr (entered manager.stack 1 stack enough))

end Manager

end FilterPlan
