import FilterPlan.Manager
import FilterPlan.Proofs.Evaluation

set_option autoImplicit false

namespace FilterPlan

def Event.Plain : Event → Prop
  | .counted (.resolverRetry) | .counted (.resolverFailure) | .counted (.timeout) | .counted (.planRetry)
  | .counted (.planFailure) | .planRequested _ | .planProposed _ => True
  | _ => False

def PipelineError.OfRun : PipelineError → Prop
  | .plan _ | .planGeneration _ _ _ | .evaluate _ | .merge _ => True
  | _ => False

def PipelineError.OfPlanning : PipelineError → Prop
  | .plan _ | .planGeneration _ _ _ => True
  | .evaluate error => error.isTimeout = true
  | _ => False

theorem PipelineError.planning_of_run (error : PipelineError) (ofPlanning : error.OfPlanning) : error.OfRun := by
  cases error <;> simp_all [OfPlanning, OfRun]

namespace Deadline

variable {σ : Type}

theorem timeout_is_timeout (deadline : Deadline) (now : Nat) (error : EvaluateError)
    (late : deadline.timeout? now = some error) : error.isTimeout = true := by
  rw [timeout?] at late
  cases limit : deadline.limitMs with
  | none => simp [limit] at late
  | some limitMs =>
      rw [limit] at late
      dsimp only at late
      split at late
      · rw [← Option.some.inj late]
        rfl
      · simp at late

theorem check_writes (deadline : Deadline) {post : Except EvaluateError Unit → Journal → Prop}
    (known : ∀ result, (∀ error, result = .error error → error.isTimeout = true) → post result []) :
    (deadline.check : Action σ EvaluateError Unit).Writes post := by
  intro world
  rw [check]
  cases late : deadline.timeout? world.now with
  | none => exact known (.ok ()) (by simp)
  | some error => exact known (.error error) (by simpa using deadline.timeout_is_timeout world.now error late)

end Deadline

namespace Engine

variable {σ : Type}

-- What a resolver call leaves in the journal: the runs it asks for and the calls it makes, one after the other.
inductive Served (engine : Engine σ) : Journal → Prop where
  | nothing : Served engine []
  | asked (scope : Scope σ) (inScope : engine.scope = some scope) (pipeline question : String) (world : World σ)
      (rest : Journal) (later : Served engine rest) :
      Served engine ((scope.nested pipeline question world).journal ++ rest)
  | entered (scope : Scope σ) (inScope : engine.scope = some scope) (call : Call) (world : World σ)
      (rest : Journal) (later : Served engine rest) :
      Served engine ((scope.fresh call world).journal ++ rest)

theorem ask_then_served (engine : Engine σ) (pipeline question : String) (world : World σ) (rest : Journal)
    (later : engine.Served rest) : engine.Served ((engine.serve.ask pipeline question world).journal ++ rest) := by
  rw [serve]
  cases inScope : engine.scope with
  | none => exact later
  | some scope => exact .asked scope inScope pipeline question world rest later

theorem enter_journal (scope : Scope σ) (call : Call) (world : World σ) :
    ((scope.fresh call).bind fun reply => .done (some reply) :
      Action σ ResolverError (Option (Except PipelineError Answer))) world =
      ⟨(scope.fresh call world).result.map some, (scope.fresh call world).world, (scope.fresh call world).journal⟩ := by
  rw [Action.bind]
  rcases scope.fresh call world with ⟨_ | reply, after, journal⟩
  · rfl
  · simp [Action.done, Except.map]

theorem enter_then_served (engine : Engine σ) (call : Call) (world : World σ) (rest : Journal)
    (later : engine.Served rest) : engine.Served ((engine.serve.enter call world).journal ++ rest) := by
  rw [serve]
  cases inScope : engine.scope with
  | none => exact later
  | some scope =>
      dsimp only
      rw [enter_journal]
      exact .entered scope inScope call world rest later

theorem perform_served (engine : Engine σ) (resolution : Resolution σ) :
    (resolution.perform engine.serve).Writes fun _ journal => engine.Served journal := by
  induction resolution with
  | done outcome => exact Action.of_except_writes .nothing
  | look next ih => exact fun world => ih world.state world
  | change state next ih => exact fun world => ih ⟨state, world.now⟩
  | wait time next ih => exact fun world => ih ⟨world.state, world.now + time⟩
  | ask pipeline question next ih =>
      change ((engine.serve.ask pipeline question).attempt >>= _).Writes _
      exact Action.bind_writes fun world => Action.writes_weaken (ih _) fun _ rest later =>
        engine.ask_then_served pipeline question world rest later
  | enter call next ih =>
      change (engine.serve.enter call >>= _).Writes _
      refine Action.bind_writes fun world => ?_
      cases (engine.serve.enter call world).result with
      | error error => simpa using engine.enter_then_served call world [] .nothing
      | ok reply =>
          exact Action.writes_weaken (ih reply) fun _ rest later => engine.enter_then_served call world rest later

def Quiet (engine : Engine σ) (journal : Journal) : Prop :=
  ∀ entry ∈ journal, entry.site = engine.site ∧ entry.event.Plain

theorem quiet_nil (engine : Engine σ) : engine.Quiet [] := by
  simp [Quiet]

theorem quiet_cons (engine : Engine σ) (time : Nat) (event : Event) (rest : Journal) (plain : event.Plain)
    (later : engine.Quiet rest) : engine.Quiet (⟨engine.site, time, event⟩ :: rest) := by
  intro entry inside
  rcases List.mem_cons.mp inside with rfl | inRest
  · exact ⟨rfl, plain⟩
  · exact later entry inRest

theorem quiet_append (engine : Engine σ) (before after : Journal) (quietBefore : engine.Quiet before)
    (quietAfter : engine.Quiet after) : engine.Quiet (before ++ after) := by
  intro entry inside
  exact (List.mem_append.mp inside).elim (quietBefore entry) (quietAfter entry)

end Engine

namespace Evaluation

variable {σ : Type}

-- The inside of an evaluation: the leaves it deals with, in this order, and what is written between them.
inductive Dealt (evaluation : Evaluation σ) : List PlacedLeaf → Journal → Prop where
  | nothing : Dealt evaluation [] []
  | plain {leaves : List PlacedLeaf} {rest : Journal} (time : Nat) (event : Event) (isPlain : event.Plain)
      (later : Dealt evaluation leaves rest) :
      Dealt evaluation leaves (⟨evaluation.engine.site, time, event⟩ :: rest)
  | called {leaves : List PlacedLeaf} {inside rest : Journal} (opened closed : Nat) (path : Path)
      (filter instruction : String) (attempt : Nat) (outcome : Except ResolverError IdentitySet)
      (served : evaluation.engine.Served inside) (later : Dealt evaluation leaves rest) :
      Dealt evaluation leaves
        (⟨evaluation.engine.site, opened, .resolverCalled path filter instruction attempt⟩ ::
          (inside ++ ⟨evaluation.engine.site, closed, .resolverReturned path outcome⟩ :: rest))
  | resolved {leaves : List PlacedLeaf} {rest : Journal} (counted traced : Nat) (placed : PlacedLeaf)
      (rows attempts : Nat) (later : Dealt evaluation leaves rest) :
      Dealt evaluation (placed :: leaves)
        (⟨evaluation.engine.site, counted, .counted (.leafResolved rows)⟩ ::
          ⟨evaluation.engine.site, traced, .traced evaluation.fingerprint
            (.leafResolved placed.path placed.leaf.filter rows attempts)⟩ :: rest)
  | skipped {leaves : List PlacedLeaf} {rest : Journal} (counted traced : Nat) (placed : PlacedLeaf)
      (tolerated : evaluation.engine.config.missingFilter = .skip) (later : Dealt evaluation leaves rest) :
      Dealt evaluation (placed :: leaves)
        (⟨evaluation.engine.site, counted, .counted .leafSkipped⟩ ::
          ⟨evaluation.engine.site, traced, .traced evaluation.fingerprint
            (.leafSkipped placed.path placed.leaf.filter)⟩ :: rest)

theorem dealt_append (evaluation : Evaluation σ) (first second : List PlacedLeaf) (before after : Journal)
    (dealtBefore : evaluation.Dealt first before) (dealtAfter : evaluation.Dealt second after) :
    evaluation.Dealt (first ++ second) (before ++ after) := by
  induction dealtBefore with
  | nothing => exact dealtAfter
  | plain time event isPlain _ ih => exact .plain time event isPlain ih
  | called opened closed path filter instruction attempt outcome served _ ih =>
      simpa using Dealt.called opened closed path filter instruction attempt outcome served ih
  | resolved counted traced placed rows attempts _ ih => exact .resolved counted traced placed rows attempts ih
  | skipped counted traced placed tolerated _ ih => exact .skipped counted traced placed tolerated ih

theorem call_writes (evaluation : Evaluation σ) (placed : PlacedLeaf) (resolver : Resolver σ) (attempt : Nat) :
    (evaluation.call placed resolver attempt).Writes fun _ journal => evaluation.Dealt [] journal := by
  rw [call]
  refine Action.bind_writes (Deadline.check_writes _ fun early _ => ?_)
  cases early with
  | error error => exact .nothing
  | ok _ =>
      refine Action.record_then_writes fun opened => Action.bind_writes (Action.attempt_writes ?_)
      refine Action.writes_weaken (evaluation.engine.perform_served _) fun outcome inside served => ?_
      refine Action.record_then_writes fun closed => Action.bind_writes (Deadline.check_writes _ fun late _ => ?_)
      have called := Dealt.called opened closed placed.path placed.leaf.filter placed.leaf.instruction attempt outcome
        served .nothing
      cases late with
      | error error => simpa using called
      | ok _ => exact Action.pure_writes (by simpa using called)

theorem give_up_writes (evaluation : Evaluation σ) (placed : PlacedLeaf) (attempt : Nat) (source : ResolverError) :
    (evaluation.giveUp placed attempt source).Writes fun result journal =>
      (∃ error, result = .error error) ∧ evaluation.Dealt [] journal := by
  rw [giveUp]
  exact Action.count_then_writes fun time => Action.fail_writes ⟨⟨_, rfl⟩, .plain time _ trivial .nothing⟩

theorem accept_writes (evaluation : Evaluation σ) (placed : PlacedLeaf) (attempt : Nat) (rows : IdentitySet) :
    (evaluation.accept placed attempt rows).Writes fun _ journal => evaluation.Dealt [placed] journal := by
  rw [accept]
  exact Action.count_then_writes fun counted => Action.record_then_writes fun traced =>
    Action.pure_writes (.resolved counted traced placed rows.size (attempt + 1) .nothing)

def Answers (evaluation : Evaluation σ) (leaves : List PlacedLeaf) {α : Type} (result : Except EvaluateError α)
    (journal : Journal) : Prop :=
  match result with
  | .ok _ => evaluation.Dealt leaves journal
  | .error _ => ∃ some, evaluation.Dealt some journal

theorem call_then_writes (evaluation : Evaluation σ) (placed : PlacedLeaf) (resolver : Resolver σ) (attempt : Nat)
    (react : Except ResolverError IdentitySet → Action σ EvaluateError IdentitySet)
    (reacts : ∀ outcome, (react outcome).Writes (evaluation.Answers [placed])) :
    (evaluation.call placed resolver attempt >>= react).Writes (evaluation.Answers [placed]) := by
  refine Action.bind_writes (Action.writes_weaken (evaluation.call_writes placed resolver attempt)
    fun result journal dealt => ?_)
  cases result with
  | error error => exact ⟨[], dealt⟩
  | ok outcome =>
      refine Action.writes_weaken (reacts outcome) fun result rest answers => ?_
      cases result with
      | error error =>
          obtain ⟨some, later⟩ := answers
          exact ⟨[] ++ some, evaluation.dealt_append [] some journal rest dealt later⟩
      | ok rows => exact evaluation.dealt_append [] [placed] journal rest dealt answers

theorem rows_of_writes (evaluation : Evaluation σ) (placed : PlacedLeaf) (resolver : Resolver σ)
    (retries attempt : Nat) :
    (evaluation.rowsOf placed resolver retries attempt).Writes (evaluation.Answers [placed]) := by
  have accepts (attempt : Nat) (rows : IdentitySet) :
      (evaluation.accept placed attempt rows).Writes (evaluation.Answers [placed]) := by
    refine Action.writes_weaken (evaluation.accept_writes placed attempt rows) fun result journal dealt => ?_
    cases result with
    | ok _ => exact dealt
    | error _ => exact ⟨[placed], dealt⟩
  have givesUp (attempt : Nat) (source : ResolverError) :
      (evaluation.giveUp placed attempt source).Writes (evaluation.Answers [placed]) := by
    refine Action.writes_weaken (evaluation.give_up_writes placed attempt source) fun result journal known => ?_
    obtain ⟨⟨error, rfl⟩, dealt⟩ := known
    exact ⟨[], dealt⟩
  induction retries generalizing attempt with
  | zero =>
      rw [rowsOf]
      refine evaluation.call_then_writes placed resolver attempt _ fun outcome => ?_
      cases outcome with
      | ok rows => exact accepts attempt rows
      | error source => exact givesUp attempt source
  | succ retries ih =>
      rw [rowsOf]
      refine evaluation.call_then_writes placed resolver attempt _ fun outcome => ?_
      cases outcome with
      | ok rows => exact accepts attempt rows
      | error source =>
          by_cases passing : source.isTransient
          · simp only [passing, if_true]
            refine Action.count_then_writes fun time => Action.writes_weaken (ih (attempt + 1)) fun result _ later => ?_
            cases result with
            | ok _ => exact .plain time _ trivial later
            | error _ => exact later.imp fun _ dealt => .plain time _ trivial dealt
          · simp only [passing]
            exact givesUp attempt source

theorem resolve_writes (evaluation : Evaluation σ) (placed : PlacedLeaf) :
    (evaluation.resolve placed).Writes (evaluation.Answers [placed]) := by
  rw [resolve]
  refine Action.bind_writes (Action.of_except_writes ?_)
  cases evaluation.registry.find placed.leaf.filter with
  | ok filter => exact evaluation.rows_of_writes placed filter.resolver _ 0
  | error error => exact ⟨[], .nothing⟩

theorem resolve_all_writes (evaluation : Evaluation σ) (leaves : List PlacedLeaf) :
    (evaluation.resolveAll leaves).Writes (evaluation.Answers leaves) := by
  induction leaves with
  | nil => exact Action.done_writes .nothing
  | cons placed rest ih =>
      rw [resolveAll]
      refine Action.bind_writes (Action.writes_weaken (evaluation.resolve_writes placed) fun result journal first => ?_)
      cases result with
      | error error => exact first
      | ok rows =>
          refine Action.bind_writes (Action.writes_weaken ih fun result later others => ?_)
          cases result with
          | error error =>
              obtain ⟨some, dealt⟩ := others
              exact ⟨[placed] ++ some, evaluation.dealt_append [placed] some journal later first dealt⟩
          | ok results =>
              refine Action.pure_writes ?_
              simpa [Answers] using evaluation.dealt_append [placed] rest journal later first others

theorem skip_unknown_writes {ε : Type} (evaluation : Evaluation σ)
    (tolerated : evaluation.engine.config.missingFilter = .skip) (leaves : List PlacedLeaf) :
    (evaluation.skipUnknown leaves : Action σ ε (List PlacedLeaf)).Writes fun result journal =>
      ∃ chosen skipped, result = .ok chosen ∧ evaluation.Dealt skipped journal ∧ (skipped ++ chosen).Perm leaves := by
  induction leaves with
  | nil => exact Action.done_writes ⟨[], [], rfl, .nothing, .nil⟩
  | cons placed rest ih =>
      rw [skipUnknown]
      by_cases known : evaluation.registry.contains placed.leaf.filter
      · rw [if_pos known]
        refine Action.bind_writes (Action.writes_weaken ih fun result journal later => ?_)
        obtain ⟨chosen, skipped, rfl, dealt, all⟩ := later
        refine Action.pure_writes ⟨placed :: chosen, skipped, rfl, by simpa using dealt, ?_⟩
        exact List.perm_middle.trans (all.cons placed)
      · rw [if_neg known]
        refine Action.count_then_writes fun counted => Action.record_then_writes fun traced => ?_
        refine Action.writes_weaken ih fun result journal later => ?_
        obtain ⟨chosen, skipped, rfl, dealt, all⟩ := later
        exact ⟨chosen, placed :: skipped, rfl, .skipped counted traced placed tolerated dealt, all.cons placed⟩

theorem choose_writes (evaluation : Evaluation σ) (leaves : List PlacedLeaf) :
    (evaluation.choose leaves).Writes fun result journal =>
      match result with
      | .ok chosen => ∃ skipped, evaluation.Dealt skipped journal ∧ (skipped ++ chosen).Perm leaves
      | .error _ => evaluation.Dealt [] journal := by
  rw [choose]
  cases tolerated : evaluation.engine.config.missingFilter with
  | skip =>
      refine Action.writes_weaken (evaluation.skip_unknown_writes tolerated leaves) fun result journal known => ?_
      obtain ⟨chosen, skipped, rfl, dealt, all⟩ := known
      exact ⟨skipped, dealt, all⟩
  | reject =>
      dsimp only
      cases leaves.find? fun placed => !evaluation.registry.contains placed.leaf.filter with
      | none => exact Action.done_writes ⟨[], .nothing, .refl leaves⟩
      | some placed => exact Action.fail_writes .nothing

def opening (evaluation : Evaluation σ) (leaves counted traced : Nat) : Journal :=
  [⟨evaluation.engine.site, counted, .counted (.planEvaluated leaves false)⟩,
    ⟨evaluation.engine.site, traced, .traced evaluation.fingerprint (.planStart leaves evaluation.engine.depth)⟩]

def Filled (evaluation : Evaluation σ) (leaves : List PlacedLeaf) {α : Type} (result : Except EvaluateError α)
    (journal : Journal) : Prop :=
  ∃ counted traced dealt inside, journal = evaluation.opening leaves.length counted traced ++ inside ∧
    evaluation.Dealt dealt inside ∧ ∀ value, result = .ok value → dealt.Perm leaves

theorem store_leaves_writes (evaluation : Evaluation σ) (leaves : List PlacedLeaf) :
    (evaluation.storeLeaves leaves).Writes (evaluation.Filled leaves) := by
  rw [storeLeaves]
  refine Action.count_then_writes fun counted => Action.record_then_writes fun traced => ?_
  refine Action.bind_writes (Action.writes_weaken (evaluation.choose_writes leaves) fun result journal chosen => ?_)
  cases result with
  | error error => exact ⟨counted, traced, [], journal, rfl, chosen, by simp⟩
  | ok kept =>
      obtain ⟨skipped, dealt, all⟩ := chosen
      refine Action.bind_writes (Action.writes_weaken (evaluation.resolve_all_writes kept)
        fun result later answers => ?_)
      cases result with
      | error error =>
          obtain ⟨some, others⟩ := answers
          exact ⟨counted, traced, skipped ++ some, journal ++ later, rfl,
            evaluation.dealt_append skipped some journal later dealt others, by simp⟩
      | ok results =>
          refine Action.of_except_writes ⟨counted, traced, skipped ++ kept, journal ++ later, by simp [opening],
            evaluation.dealt_append skipped kept journal later dealt answers, fun _ _ => all⟩

theorem fault_writes (evaluation : Evaluation σ) (error : EvaluateError) :
    (evaluation.fault error).Writes fun result journal => result = .ok () ∧ ∃ before time,
      evaluation.Dealt [] before ∧ journal = before ++
        [⟨evaluation.engine.site, time, .traced evaluation.fingerprint (.error error.failureClass .evaluate)⟩] := by
  intro world
  rw [fault_outcome]
  refine ⟨rfl, _, world.now, ?_, rfl⟩
  by_cases late : error.isTimeout
  · rw [if_pos late]
    exact .plain world.now (.counted .timeout) trivial .nothing
  · rw [if_neg late]
    exact .nothing

theorem evaluate_node_writes (evaluation : Evaluation σ) (node : Node) (base : Path) :
    (evaluation.evaluateNode node base).Writes fun result journal =>
      match result with
      | .ok store => evaluation.Filled (node.placedLeaves base) (.ok store : Except EvaluateError Store) journal
      | .error error => ∃ time before,
          evaluation.Filled (node.placedLeaves base) (.error error : Except EvaluateError Store) before ∧
          journal = before ++ [⟨evaluation.engine.site, time,
            .traced evaluation.fingerprint (.error error.failureClass .evaluate)⟩] := by
  rw [evaluateNode]
  refine Action.on_failure_writes (Action.writes_weaken (evaluation.store_leaves_writes _)
    fun result journal filled => ?_)
  cases result with
  | ok store => exact filled
  | error error =>
      refine Action.writes_weaken (evaluation.fault_writes error) fun response rest known => ?_
      obtain ⟨rfl, before, time, plain, rfl⟩ := known
      obtain ⟨counted, traced, dealt, inside, rfl, isDealt, _⟩ := filled
      refine ⟨rfl, time, _, ⟨counted, traced, dealt ++ [], inside ++ before, rfl,
        evaluation.dealt_append dealt [] inside before isDealt plain, by simp⟩, by simp⟩

end Evaluation

structure Bid (σ : Type) where
  request : PlanRequest
  answer : Except GeneratorError Plan
  after : World σ

namespace Pipeline

variable {σ : Type}

theorem execute_unfiltered (pipeline : Pipeline σ) (engine : Engine σ) (plan : Plan) (planned : plan.root = none) :
    let evaluation := Evaluation.ofPlan engine pipeline.registry plan
    pipeline.execute engine plan = (evaluation.count (.planEvaluated 0 true) >>= fun _ =>
      evaluation.trace (.mergeFinish pipeline.domain.size) >>= fun _ => pure pipeline.domain) := by
  have isUnfiltered : plan.isUnfiltered = true := by simp [Plan.isUnfiltered, planned]
  rw [execute, if_pos isUnfiltered]

theorem execute_filtered (pipeline : Pipeline σ) (engine : Engine σ) (plan : Plan) (root : Node)
    (planned : plan.root = some root) :
    let evaluation := Evaluation.ofPlan engine pipeline.registry plan
    pipeline.execute engine plan = ((evaluation.evaluateNode root []).mapError .evaluate >>= fun store =>
      merge evaluation store >>= fun rows => evaluation.count (.mergeFinish rows.size) >>= fun _ =>
        evaluation.trace (.mergeFinish rows.size) >>= fun _ => pure rows) := by
  have isFiltered : ¬ plan.isUnfiltered = true := by simp [Plan.isUnfiltered, planned]
  rw [execute, if_neg isFiltered, Evaluation.evaluate_root _ root planned]

inductive Executed (pipeline : Pipeline σ) (engine : Engine σ) (plan : Plan) :
    Except PipelineError IdentitySet → Journal → Prop where
  | unfiltered (isUnfiltered : plan.root = none) (counted traced : Nat) :
      Executed pipeline engine plan (.ok pipeline.domain)
        [⟨engine.site, counted, .counted (.planEvaluated 0 true)⟩,
          ⟨engine.site, traced, .traced plan.fingerprint (.mergeFinish pipeline.domain.size)⟩]
  | merged (root : Node) (planned : plan.root = some root) (opened started counted traced : Nat)
      (leaves : List PlacedLeaf) (inside : Journal) (rows : IdentitySet)
      (dealt : (Evaluation.ofPlan engine pipeline.registry plan).Dealt leaves inside)
      (all : leaves.Perm (root.placedLeaves [])) :
      Executed pipeline engine plan (.ok rows)
        ((Evaluation.ofPlan engine pipeline.registry plan).opening (root.placedLeaves []).length opened started ++
          (inside ++ [⟨engine.site, counted, .counted (.mergeFinish rows.size)⟩,
            ⟨engine.site, traced, .traced plan.fingerprint (.mergeFinish rows.size)⟩]))
  | failed (root : Node) (planned : plan.root = some root) (opened started traced : Nat)
      (leaves : List PlacedLeaf) (inside : Journal) (error : PipelineError) (ofRun : error.OfRun)
      (failureClass : FailureClass) (origin : Origin)
      (dealt : (Evaluation.ofPlan engine pipeline.registry plan).Dealt leaves inside) :
      Executed pipeline engine plan (.error error)
        ((Evaluation.ofPlan engine pipeline.registry plan).opening (root.placedLeaves []).length opened started ++
          (inside ++ [⟨engine.site, traced, .traced plan.fingerprint (.error failureClass origin)⟩]))

theorem execute_writes (pipeline : Pipeline σ) (engine : Engine σ) (plan : Plan) :
    (pipeline.execute engine plan).Writes (pipeline.Executed engine plan) := by
  cases planned : plan.root with
  | none =>
      rw [pipeline.execute_unfiltered engine plan planned]
      exact Action.count_then_writes fun counted => Action.record_then_writes fun traced =>
        Action.pure_writes (.unfiltered planned counted traced)
  | some root =>
      rw [pipeline.execute_filtered engine plan root planned]
      refine Action.bind_writes (Action.map_error_writes (Action.writes_weaken
        (Evaluation.evaluate_node_writes _ root []) fun result journal known => ?_))
      cases result with
      | error error =>
          obtain ⟨traced, before, ⟨opened, started, leaves, inside, rfl, dealt, _⟩, rfl⟩ := known
          rw [List.append_assoc]
          exact .failed root planned opened started traced leaves inside (.evaluate _) trivial _ _ dealt
      | ok store =>
          obtain ⟨opened, started, leaves, inside, rfl, dealt, all⟩ := known
          simp only [Except.mapError, merge]
          cases store.merge (Evaluation.ofPlan engine pipeline.registry plan).engine.config.missingOperand with
          | error error =>
              refine Action.bind_writes (Action.record_then_writes fun traced => Action.fail_writes ?_)
              rw [List.append_assoc]
              exact .failed root planned opened started traced leaves inside (.merge _) trivial _ _ dealt
          | ok rows =>
              refine Action.bind_writes (Action.done_writes (Action.count_then_writes fun counted =>
                Action.record_then_writes fun traced => Action.pure_writes ?_))
              rw [List.append_assoc]
              exact .merged root planned opened started counted traced leaves inside rows dealt (all store rfl)

def request (pipeline : Pipeline σ) (question : String) (attempt : Nat) (feedback : Option String) : PlanRequest :=
  ⟨pipeline.name, pipeline.goal, question, pipeline.schema, pipeline.exemplar, attempt, feedback⟩

def consulted (pipeline : Pipeline σ) (request : PlanRequest) (world : World σ) : Bid σ :=
  let reply := pipeline.generator request world.state
  ⟨request, reply.answer, ⟨reply.state, world.now + reply.elapsed⟩⟩

def inquiry (pipeline : Pipeline σ) (engine : Engine σ) (request : PlanRequest) (world : World σ) : Journal :=
  (if request.attempt > 0 then [⟨engine.site, world.now, .counted .planRetry⟩] else []) ++
    [⟨engine.site, world.now, .planRequested request⟩,
      ⟨engine.site, (pipeline.consulted request world).after.now,
        .planProposed (pipeline.consulted request world).answer⟩]

-- All that a request for a plan does: it is made if there is time left, and its answer is judged.
theorem propose_outcome (pipeline : Pipeline σ) (engine : Engine σ) (question : String) (attempt : Nat)
    (feedback : Option String) (world : World σ) :
    pipeline.propose engine question attempt feedback world =
      match engine.deadline.timeout? world.now with
      | some error => ⟨.error (.evaluate error), world, []⟩
      | none =>
          let request := pipeline.request question attempt feedback
          let bid := pipeline.consulted request world
          ⟨.ok (pipeline.judge attempt bid.answer), bid.after, pipeline.inquiry engine request world⟩ := by
  cases late : engine.deadline.timeout? world.now with
  | some error =>
      have failed : (engine.deadline.check.mapError .evaluate : Action σ PipelineError Unit) world =
          ⟨.error (.evaluate error), world, []⟩ := by
        rw [Action.mapError, Deadline.check, late]
        rfl
      exact Action.bind_failed failed
  | none =>
      have checked : (engine.deadline.check.mapError .evaluate : Action σ PipelineError Unit) world =
          ⟨.ok (), world, []⟩ := by
        rw [Action.mapError, Deadline.check, late]
        rfl
      let request := pipeline.request question attempt feedback
      have isInquiry : pipeline.inquiry engine request world =
          (if attempt > 0 then [⟨engine.site, world.now, .counted .planRetry⟩] else []) ++
            [⟨engine.site, world.now, .planRequested request⟩,
              ⟨engine.site, (pipeline.consulted request world).after.now,
                .planProposed (pipeline.consulted request world).answer⟩] := rfl
      rw [propose, Action.bind_after checked]
      dsimp only
      rw [isInquiry]
      by_cases again : attempt > 0
      · rw [if_pos again, if_pos again]
        rfl
      · rw [if_neg again, if_neg again]
        rfl

theorem judge_rejects (pipeline : Pipeline σ) (attempt : Nat) (outcome : Except GeneratorError Plan)
    (rejection : PipelineError) (rejected : pipeline.judge attempt outcome = .error rejection) :
    rejection.OfPlanning := by
  rcases outcome with error | plan
  · cases error <;> rw [← Except.error.inj rejected] <;> trivial
  · simp only [judge] at rejected
    cases checked : plan.checkFilters pipeline.schema.contains with
    | ok _ => simp [checked] at rejected
    | error error =>
        rw [checked] at rejected
        rw [← Except.error.inj rejected]
        trivial

def Checked (pipeline : Pipeline σ) (plan : Plan) : Prop := plan.checkFilters pipeline.schema.contains = .ok ()

theorem judge_accepts (pipeline : Pipeline σ) (attempt : Nat) (outcome : Except GeneratorError Plan) (plan : Plan)
    (accepted : pipeline.judge attempt outcome = .ok plan) : pipeline.Checked plan := by
  rcases outcome with error | proposed
  · cases error <;> simp [judge] at accepted
  · simp only [judge] at accepted
    cases checked : proposed.checkFilters pipeline.schema.contains with
    | ok _ =>
        rw [checked] at accepted
        rw [← Except.ok.inj accepted]
        exact checked
    | error error => simp [checked] at accepted

structure Proposes (pipeline : Pipeline σ) (engine : Engine σ)
    (result : Except PipelineError (Except PipelineError Plan)) (journal : Journal) : Prop where
  quiet : engine.Quiet journal
  fails : ∀ error, result = .error error ∨ result = .ok (.error error) → error.OfPlanning
  accepts : ∀ plan, result = .ok (.ok plan) → pipeline.Checked plan

theorem inquiry_quiet (pipeline : Pipeline σ) (engine : Engine σ) (request : PlanRequest) (world : World σ) :
    engine.Quiet (pipeline.inquiry engine request world) := by
  have retry : engine.Quiet (if request.attempt > 0 then [⟨engine.site, world.now, .counted .planRetry⟩] else []) := by
    by_cases again : request.attempt > 0
    · rw [if_pos again]
      exact engine.quiet_cons _ _ _ trivial engine.quiet_nil
    · rw [if_neg again]
      exact engine.quiet_nil
  exact engine.quiet_append _ _ retry (engine.quiet_cons _ _ _ trivial (engine.quiet_cons _ _ _ trivial engine.quiet_nil))

theorem propose_writes (pipeline : Pipeline σ) (engine : Engine σ) (question : String) (attempt : Nat)
    (feedback : Option String) :
    (pipeline.propose engine question attempt feedback).Writes (pipeline.Proposes engine) := by
  intro world
  rw [propose_outcome]
  cases late : engine.deadline.timeout? world.now with
  | some error =>
      have isTimeout := engine.deadline.timeout_is_timeout world.now error late
      exact ⟨engine.quiet_nil, by simp [PipelineError.OfPlanning, isTimeout], by simp⟩
  | none =>
      constructor
      case quiet => exact pipeline.inquiry_quiet engine _ world
      case fails => exact fun error failed => pipeline.judge_rejects attempt _ error (by simpa using failed)
      case accepts => exact fun plan accepted => pipeline.judge_accepts attempt _ plan (Except.ok.inj accepted)

-- Planning is one request after the other, so what each request leads to holds in the end. `ready` is what a request
-- may count on, and `post` what is known of a journal from the world on in which it is begun.
theorem plan_for_does (pipeline : Pipeline σ) (engine : Engine σ) (question : String) (ready : World σ → Prop)
    (post : World σ → Except PipelineError Plan → World σ → Journal → Prop)
    (proposes : ∀ attempt feedback world, ready world →
      (pipeline.propose engine question attempt feedback).Does world fun result after journal =>
        match result with
        | .error error => post world (.error error) after journal
        | .ok (.ok plan) => post world (.ok plan) after journal
        | .ok (.error rejection) =>
            ready after ∧
              post world (.error rejection) after (journal ++ [⟨engine.site, after.now, .counted .planFailure⟩]) ∧
              ∀ result final rest, post after result final rest → post world result final (journal ++ rest))
    (retries attempt : Nat) (feedback : Option String) (world : World σ) (isReady : ready world) :
    (pipeline.planFor engine question retries attempt feedback).Does world (post world) := by
  induction retries generalizing attempt feedback world with
  | zero =>
      rw [planFor, Action.bind_does]
      apply Action.does_weaken (proposes attempt feedback world isReady)
      intro result after journal known
      rcases result with error | rejection | plan
      · exact known
      · dsimp only at known ⊢
        rw [Action.bind_does, Action.count_does]
        dsimp only
        rw [Action.fail_does, List.append_nil]
        exact known.2.1
      · dsimp only at known ⊢
        rwa [Action.pure_does, List.append_nil]
  | succ retries ih =>
      rw [planFor, Action.bind_does]
      apply Action.does_weaken (proposes attempt feedback world isReady)
      intro result after journal known
      rcases result with error | rejection | plan
      · exact known
      · exact Action.does_weaken (ih (attempt + 1) (some rejection.message) after known.1) known.2.2
      · dsimp only at known ⊢
        rwa [Action.pure_does, List.append_nil]

theorem plan_for_writes (pipeline : Pipeline σ) (engine : Engine σ) (question : String) (retries attempt : Nat)
    (feedback : Option String) :
    (pipeline.planFor engine question retries attempt feedback).Writes fun result journal =>
      pipeline.Proposes engine (result.map .ok) journal := by
  intro world
  apply pipeline.plan_for_does engine question (fun _ => True)
    (fun _ result _ journal => pipeline.Proposes engine (result.map .ok) journal) ?_ retries attempt feedback world trivial
  intro attempt feedback world _
  apply Action.does_weaken (Action.writes_does (pipeline.propose_writes engine question attempt feedback) world)
  intro result after journal known
  rcases result with error | rejection | plan
  · exact known
  · refine ⟨trivial, ⟨?_, fun _ same => ?_, by simp [Except.map]⟩, fun result final rest later => ?_⟩
    · exact engine.quiet_append _ _ known.quiet (engine.quiet_cons _ _ _ trivial engine.quiet_nil)
    · exact known.fails _ (Or.inr (by simpa [Except.map] using same))
    · exact ⟨engine.quiet_append _ _ known.quiet later.quiet, later.fails, later.accepts⟩
  · exact known

def closing (name : String) : Except PipelineError IdentitySet → Metric
  | .ok rows => .pipelineFinish name rows.size
  | .error _ => .pipelineError name

theorem run_does (pipeline : Pipeline σ) (engine : Engine σ) (question : String) (world : World σ)
    (post : Except PipelineError IdentitySet → World σ → Journal → Prop)
    (answers : (pipeline.answer engine question).Does world fun result after journal =>
      post result after
        (⟨engine.site, world.now, .counted (.pipelineStart pipeline.name (engine.depth > 0))⟩ ::
          (journal ++ [⟨engine.site, after.now, .counted (closing pipeline.name result)⟩]))) :
    (pipeline.run engine question).Does world post := by
  let opening : Entry := ⟨engine.site, world.now, .counted (.pipelineStart pipeline.name (engine.depth > 0))⟩
  have closes : ((pipeline.answer engine question).onFailure fun _ =>
      .count engine.site (.pipelineError pipeline.name)).Does world fun result after journal =>
        match result with
        | .ok rows => post (.ok rows) after
            (opening :: (journal ++ [⟨engine.site, after.now, .counted (.pipelineFinish pipeline.name rows.size)⟩]))
        | .error error => post (.error error) after (opening :: journal) := by
    apply Action.on_failure_does
    apply Action.does_weaken answers
    intro result after journal known
    cases result with
    | ok rows => exact known
    | error error => exact ⟨rfl, known⟩
  rw [run, Action.bind_does, Action.count_does]
  dsimp only
  rw [Action.bind_does]
  apply Action.does_weaken closes
  intro result after journal known
  cases result with
  | ok rows =>
      dsimp only at known ⊢
      rw [Action.bind_does, Action.count_does]
      exact known
  | error error => exact known

inductive Ran (pipeline : Pipeline σ) (engine : Engine σ) : Except PipelineError IdentitySet → Journal → Prop where
  | unplanned (opened closed : Nat) (planning : Journal) (error : PipelineError) (ofPlanning : error.OfPlanning)
      (quiet : engine.Quiet planning) :
      Ran pipeline engine (.error error)
        (⟨engine.site, opened, .counted (.pipelineStart pipeline.name (engine.depth > 0))⟩ ::
          (planning ++ [⟨engine.site, closed, .counted (closing pipeline.name (.error error))⟩]))
  | executed (opened closed : Nat) (planning : Journal) (plan : Plan) (world : World σ)
      (quiet : engine.Quiet planning) (checked : pipeline.Checked plan) :
      Ran pipeline engine (pipeline.execute engine plan world).result
        (⟨engine.site, opened, .counted (.pipelineStart pipeline.name (engine.depth > 0))⟩ ::
          (planning ++ (pipeline.execute engine plan world).journal ++
            [⟨engine.site, closed, .counted (closing pipeline.name (pipeline.execute engine plan world).result)⟩]))

theorem answer_writes (pipeline : Pipeline σ) (engine : Engine σ) (question : String) :
    (pipeline.answer engine question).Writes fun result journal => ∃ planning, engine.Quiet planning ∧
      ((∃ error, error.OfPlanning ∧ result = .error error ∧ journal = planning) ∨
        ∃ plan world, pipeline.Checked plan ∧ result = (pipeline.execute engine plan world).result ∧
          journal = planning ++ (pipeline.execute engine plan world).journal) := by
  rw [answer, generatePlan]
  refine Action.bind_writes (Action.writes_weaken (pipeline.plan_for_writes engine question _ 0 none)
    fun result journal planned => ?_)
  cases result with
  | error error =>
      exact ⟨journal, planned.quiet, Or.inl ⟨error, planned.fails error (Or.inl rfl), rfl, rfl⟩⟩
  | ok plan =>
      exact fun world => ⟨journal, planned.quiet, Or.inr ⟨plan, world, planned.accepts plan rfl, rfl, rfl⟩⟩

theorem run_writes (pipeline : Pipeline σ) (engine : Engine σ) (question : String) :
    (pipeline.run engine question).Writes (pipeline.Ran engine) := by
  have runs (world : World σ) : (pipeline.run engine question).Does world fun result _ journal =>
      pipeline.Ran engine result journal := by
    apply pipeline.run_does
    apply Action.does_weaken (Action.writes_does (pipeline.answer_writes engine question) world)
    rintro result after journal ⟨planning, quiet, ⟨error, ofPlanning, rfl, rfl⟩ | ⟨plan, start, checked, rfl, rfl⟩⟩
    · exact .unplanned world.now after.now journal error ofPlanning quiet
    · exact .executed world.now after.now planning plan start quiet checked
  exact runs

end Pipeline

end FilterPlan
