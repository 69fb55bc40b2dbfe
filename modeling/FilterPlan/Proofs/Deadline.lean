import FilterPlan.Proofs.Punctual
import FilterPlan.Proofs.Queries

set_option autoImplicit false

namespace FilterPlan

/-- An engine at work at some time: the time of its query runs, and a manager gives all its queries the same. -/
structure Engine.Timed {σ : Type} (engine : Engine σ) (now : Nat) : Prop where
  used : engine.Used
  begun : engine.deadline.started ≤ now
  limited : engine.scope.isSome → engine.deadline.limitMs = engine.config.queryTimeoutMs

structure Evaluation.Obeys {σ : Type} (evaluation : Evaluation σ) (world : World σ)
    (outcome : Outcome σ EvaluateError Store) : Prop where
  called : ∀ entry ∈ outcome.journal, entry.event.call?.isSome → ¬ entry.site.deadline.Expired entry.time
  -- The evaluation and the runs nested in it share one deadline. A query that a resolver begins by a call of the
  -- manager has its own, which is never up first.
  own : ∀ entry ∈ outcome.journal, entry.site.level = evaluation.engine.level → entry.site = evaluation.engine.site
  shared : ∀ entry ∈ outcome.journal, evaluation.engine.Spans entry →
    entry.site.deadline = evaluation.engine.deadline
  covered : ∀ entry ∈ outcome.journal, evaluation.engine.deadline.Covers entry.site.deadline
  -- So where resolvers only ask, none is called at any depth when the time of the evaluation is up.
  asked : evaluation.AsksOnly → ∀ entry ∈ outcome.journal, entry.event.call?.isSome →
    ¬ evaluation.engine.deadline.Expired entry.time
  afterwards : ∀ before entry after, outcome.journal = before ++ entry :: after →
    evaluation.engine.deadline.Expired entry.time →
      ∀ later ∈ after, evaluation.engine.Spans later → ¬ later.event.Resolves
  before : evaluation.Resolves → evaluation.engine.deadline.Expired world.now →
    (∃ error, outcome.result = .error error ∧ evaluation.engine.deadline.Late error) ∧
      ∀ entry ∈ outcome.journal, ¬ entry.event.Resolves
  returned : ∀ entry ∈ outcome.journal, ∀ path reply, entry.event = .resolverReturned path reply →
    evaluation.engine.deadline.Expired entry.time →
      ∃ error, outcome.result = .error error ∧ evaluation.engine.deadline.Late error
  -- An evaluation that fails for lack of time tells so, and every evaluation around it fails likewise, even around a
  -- query of its own.
  told : ∀ error, outcome.result = .error error → error.isTimeout = true →
    ∃ entry ∈ outcome.journal, entry.site = evaluation.engine.site ∧ entry.event = .counted .timeout
  lacks : outcome.journal.Lacks ↔
    ∃ error, outcome.result = .error error ∧ evaluation.engine.deadline.Late error
  nested : ∀ (inner : Evaluation σ) (start : World σ) (error : EvaluateError),
    (inner.evaluate start).journal <:+: outcome.journal →
      (inner.evaluate start).result = .error error → error.isTimeout = true →
        ∃ error, outcome.result = .error error ∧ evaluation.engine.deadline.Late error
  succeeded : ∀ store, outcome.result = .ok store → store.size ≠ 0 →
    ¬ evaluation.engine.deadline.Expired outcome.world.now ∧
      ∀ entry ∈ outcome.journal, ¬ evaluation.engine.deadline.Expired entry.time

structure Deadline.Rules {σ α : Type} (deadline : Deadline) (manager : Manager σ)
    (outcome : Outcome σ PipelineError α) : Prop where
  called : ∀ entry ∈ outcome.journal, entry.event.call?.isSome → ¬ entry.site.deadline.Expired entry.time
  shared : ∀ entry ∈ outcome.journal, entry.site.level = entry.site.depth → entry.site.deadline = deadline
  covered : ∀ entry ∈ outcome.journal, deadline.Covers entry.site.deadline
  asked : manager.Asks → ∀ entry ∈ outcome.journal, entry.event.call?.isSome → ¬ deadline.Expired entry.time
  lacks : outcome.journal.Lacks → ∃ error, outcome.result = .error (.evaluate error) ∧ deadline.Late error

theorem Evaluation.marks_lack {σ : Type} (inner : Evaluation σ) (start : World σ) (error : EvaluateError)
    (failed : (inner.evaluate start).result = .error error) (isTimeout : error.isTimeout = true) :
    (inner.evaluate start).journal.Lacks := by
  cases planned : inner.plan.root with
  | none =>
      rw [evaluate, planned] at failed
      cases failed
  | some root =>
      rw [inner.evaluate_root root planned] at failed ⊢
      obtain ⟨entry, inside, _, isMark⟩ := inner.evaluate_node_marks root [] start error failed isTimeout
      exact ⟨entry, inside, isMark⟩

theorem Event.call_resolves (event : Event) (isCall : event.call?.isSome) : event.Resolves := by
  cases event <;> simp_all [call?, Resolves]

namespace Journal

theorem timely_called (deadline : Deadline) (start stop : Nat) (journal : Journal)
    (timely : journal.Timely deadline start stop) :
    ∀ entry ∈ journal, entry.event.call?.isSome → ¬ entry.site.deadline.Expired entry.time := by
  intro entry inside isCall
  exact (timely.allowed entry inside).resolves (entry.event.call_resolves isCall)

theorem timely_afterwards (deadline : Deadline) (start stop : Nat) (journal : Journal)
    (timely : journal.Timely deadline start stop) (before after : Journal) (entry : Entry)
    (split : journal = before ++ entry :: after) (expired : deadline.Expired entry.time) :
    ∀ later ∈ after, later.site.deadline = deadline → ¬ later.event.Resolves := by
  subst split
  intro later inside isDeadline works
  have ascending := (List.pairwise_append.mp timely.ascending).2.1
  have forward := (List.pairwise_cons.mp ascending).1 later inside
  have inTime := (timely.allowed later (by simp [inside])).resolves works
  rw [isDeadline] at inTime
  exact inTime (deadline.expired_later _ _ forward expired)

end Journal

namespace Evaluation

variable {σ : Type} (evaluation : Evaluation σ)

theorem stored_resolves (world : World σ) (store : Store) (stored : (evaluation.evaluate world).result = .ok store)
    (some : store.size ≠ 0) : evaluation.Resolves := by
  cases planned : evaluation.plan.root with
  | none =>
      rw [evaluate, planned] at stored
      have isEmpty : Store.empty = store := Except.ok.inj stored
      rw [← isEmpty] at some
      exact absurd rfl some
  | some root =>
      rw [evaluation.evaluate_root root planned] at stored
      rw [Resolves, places, evaluation.plan.places_root root planned]
      constructor
      · by_contra refused
        obtain ⟨rejects, missing, found⟩ := evaluation.refused_missing _ refused
        rw [evaluation.rejecting_outcome rejects root [] missing found] at stored
        cases stored
      · intro nothing
        obtain ⟨results, recorded, listed⟩ := (evaluation.evaluate_node_ends root [] world).2 store stored
        rw [nothing, List.map_nil, List.map_eq_nil_iff] at listed
        apply some
        rw [recorded.sound.counted, recorded.listed.length_eq, listed, List.length_nil]

theorem timed_punctual (world : World σ) (timed : evaluation.engine.Timed world.now) : evaluation.engine.Punctual := by
  obtain ⟨used, _, limited⟩ := timed
  generalize evaluation.engine = engine at used limited ⊢
  cases used with
  | alone config deadline => exact fun scope inScope => by cases inScope
  | managed manager query depth => exact manager.engine_punctual query (limited rfl) depth

theorem idle_unreached (journal : Journal) (originates : evaluation.engine.Originates journal)
    (idle : ∀ entry ∈ journal, entry.site = evaluation.engine.site → ¬ entry.event.Resolves) :
    ∀ entry ∈ journal, ¬ entry.event.Resolves := by
  intro entry inside
  rcases originates entry inside with own | ⟨⟨opener, among, isSite, isCall⟩, _⟩
  · exact idle entry inside own
  · exact absurd (opener.event.call_resolves isCall) (idle opener among isSite)

theorem evaluate_own (used : evaluation.engine.Used) (world : World σ) :
    ∀ entry ∈ (evaluation.evaluate world).journal, entry.site.level = evaluation.engine.level →
      entry.site = evaluation.engine.site := by
  intro entry inside isLevel
  rcases evaluation.evaluate_originates world entry inside with own | ⟨_, part, served, among⟩
  · exact own
  · have deeper := evaluation.engine.used_served_deeper used part served entry among
    omega

theorem asks_only_shared (used : evaluation.engine.Used) (asksOnly : evaluation.AsksOnly) (world : World σ) :
    ∀ entry ∈ (evaluation.evaluate world).journal, entry.event.call?.isSome →
      entry.site.deadline = evaluation.engine.deadline := by
  rcases asksOnly with outside | ⟨manager, query, depth, asks, registryAsks, isEngine⟩
  · intro entry inside _
    have originates := evaluation.evaluate_originates world entry inside
    generalize evaluation.engine = engine at used outside originates ⊢
    cases used with
    | alone config deadline =>
        rcases originates with own | ⟨_, part, served, among⟩
        · rw [own]
          rfl
        · rw [Engine.alone_served config deadline part served] at among
          cases among
    | managed manager query depth => cases outside
  · obtain ⟨engine, registry, plan, _, rfl⟩ := evaluation
    dsimp only at isEngine registryAsks
    subst isEngine
    have alike := manager.engine_at_asks asks query 0 depth registry registryAsks
    have same := congrFun (Action.alike_same (evaluate_alike alike plan)) world
    intro entry inside isCall
    have originates := (ofPlan (manager.engineAt { query with stack := 0 } depth) registry plan).evaluate_originates world
    rw [same] at originates
    exact manager.stackless_deadline { query with stack := 0 } rfl _
      (manager.engine_at_parts { query with stack := 0 } depth _ originates) entry inside isCall

theorem evaluate_obeys (world : World σ) (timed : evaluation.engine.Timed world.now) :
    evaluation.Obeys world (evaluation.evaluate world) := by
  have heeded := evaluation.evaluate_heeded (evaluation.timed_punctual world timed) world timed.begun
  have timely := heeded.timely
  have called := Journal.timely_called _ _ _ _ timely
  have originates := evaluation.evaluate_originates world
  have shared := evaluation.engine.used_spans timed.used _ originates
  constructor
  case called => exact called
  case own => exact evaluation.evaluate_own timed.used world
  case shared => exact shared
  case covered => exact fun entry inside => (timely.allowed entry inside).covered
  case asked =>
    intro asksOnly entry inside isCall
    rw [← evaluation.asks_only_shared timed.used asksOnly world entry inside isCall]
    exact called entry inside isCall
  case afterwards =>
    intro before entry after split expired later inside spans
    have among : later ∈ (evaluation.evaluate world).journal := by rw [split]; simp [inside]
    exact Journal.timely_afterwards _ _ _ _ timely before after entry split expired later inside
      (shared later among spans)
  case before =>
    intro resolves expired
    refine ⟨(heeded.decides resolves).late (Deadline.expired_later _ _ _ timely.forward expired), ?_⟩
    apply evaluation.idle_unreached _ originates
    intro entry inside isSite works
    have inTime := (timely.allowed entry inside).resolves works
    rw [isSite] at inTime
    exact inTime (Deadline.expired_later _ _ _ (timely.within entry inside).1 expired)
  case returned =>
    intro entry inside path reply isReturn expired
    have expiredAfter := Deadline.expired_later _ _ _ (timely.within entry inside).2 expired
    by_cases resolves : evaluation.Resolves
    · exact (heeded.decides resolves).late expiredAfter
    · have idle := ((heeded.stands resolves).2.1 entry inside).2.2
      rw [isReturn] at idle
      exact idle.elim
  case told => exact heeded.marks
  case lacks => exact evaluation.heeded_lacks world _ heeded
  case nested =>
    intro inner start error inside failed isTimeout
    obtain ⟨entry, among, isMark⟩ := inner.marks_lack start error failed isTimeout
    exact (evaluation.heeded_lacks world _ heeded).mp ⟨entry, inside.subset among, isMark⟩
  case succeeded =>
    intro store stored some
    have decides := heeded.decides (evaluation.stored_resolves world store stored some)
    rw [stored] at decides
    have inTime := Deadline.decided_ok _ _ _ decides
    refine ⟨inTime, fun entry inside expired => inTime ?_⟩
    exact Deadline.expired_later _ _ _ (timely.within entry inside).2 expired

end Evaluation

namespace Manager

variable {σ : Type} (manager : Manager σ)

theorem governed_rules (deadline : Deadline) (world : World σ) (outcome : Outcome σ PipelineError IdentitySet)
    (governs : deadline.Governs world outcome) (parts : manager.Parts (manager.outermost deadline) outcome.journal)
    (alone : manager.Asks → manager.Parts ⟨deadline, 0, 0⟩ outcome.journal) : deadline.Rules manager outcome := by
  have called := Journal.timely_called _ _ _ _ governs.timely
  constructor
  case called => exact called
  case shared =>
    exact fun entry inside isLevel => manager.parts_deadline (manager.outermost deadline) _ parts entry inside
      (isLevel.trans (Nat.zero_add _).symm)
  case covered => exact fun entry inside => (governs.timely.allowed entry inside).covered
  case asked =>
    intro asks entry inside isCall
    have isDeadline : entry.site.deadline = deadline :=
      manager.stackless_deadline ⟨deadline, 0, 0⟩ rfl _ (alone asks) entry inside isCall
    rw [← isDeadline]
    exact called entry inside isCall
  case lacks => exact governs.lacks

theorem run_rules (name question : String) (world : World σ) :
    (⟨world.now, manager.config.queryTimeoutMs⟩ : Deadline).Rules manager (manager.run name question world) := by
  let query := manager.queryFrom world
  change Deadline.Rules _ manager (manager.runAt query 0 name question world)
  apply manager.governed_rules
  · exact manager.run_at_governed query rfl 0 name question world (Nat.le_refl _)
  · exact manager.run_at_parts query 0 name question world
  · intro asks
    rw [← manager.run_at_asks asks query 0 0]
    exact manager.run_at_parts _ 0 name question world

theorem execute_rules (name : String) (plan : Plan) (world : World σ) :
    (⟨world.now, manager.config.queryTimeoutMs⟩ : Deadline).Rules manager (manager.execute name plan world) := by
  rw [manager.execute_from_start]
  cases found : manager.find name with
  | error error =>
      change Deadline.Rules _ manager (⟨.error error, world, []⟩ : Outcome σ PipelineError IdentitySet)
      constructor <;> simp [Journal.Lacks]
  | ok pipeline =>
      let query := manager.queryFrom world
      change Deadline.Rules _ manager (pipeline.execute (manager.engineAt query 0) plan world)
      apply manager.governed_rules
      · exact pipeline.execute_governed _ (manager.engine_punctual query rfl 0) plan world (Nat.le_refl _)
      · exact manager.engine_at_parts query 0 _ (pipeline.execute_originates _ plan world)
      · intro asks
        rw [← manager.execute_at_asks asks query 0 name pipeline found plan]
        exact manager.engine_at_parts ⟨query.deadline, 0, 0⟩ 0 _ (pipeline.execute_originates _ plan world)

theorem answer_rules (question : String) (world : World σ) :
    (⟨(manager.select question world).world.now, manager.config.queryTimeoutMs⟩ : Deadline).Rules manager
      (manager.answer question world) := by
  let deadline : Deadline := ⟨(manager.select question world).world.now, manager.config.queryTimeoutMs⟩
  have selects : (manager.select question).Does world fun _ after journal =>
      after = (manager.select question world).world ∧ journal = [] := ⟨rfl, (manager.select_writes question world).1⟩
  have does : (manager.answer question).Does world fun result after journal =>
      deadline.Rules manager (⟨result, after, journal⟩ : Outcome σ PipelineError Answer) := by
    rw [answer_selects, Action.bind_does]
    apply Action.does_weaken selects
    rintro result _ _ ⟨rfl, rfl⟩
    cases result with
    | error error => constructor <;> simp [Journal.Lacks]
    | ok pipeline =>
        have rules := manager.run_rules pipeline.name question (manager.select question world).world
        dsimp only
        rw [Action.bind_does]
        apply Action.does_weaken (show (manager.run pipeline.name question).Does (manager.select question world).world
          fun result after journal =>
            deadline.Rules manager (⟨result, after, journal⟩ : Outcome σ PipelineError IdentitySet) from rules)
        rintro result after journal ⟨called, shared, covered, asked, lacks⟩
        cases result with
        | error error =>
            refine ⟨called, shared, covered, asked, fun isLacking => ?_⟩
            obtain ⟨late, same, isLate⟩ := lacks isLacking
            exact ⟨late, by rw [Except.error.inj same], isLate⟩
        | ok rows =>
            dsimp only
            rw [Action.pure_does, List.append_nil]
            refine ⟨called, shared, covered, asked, fun isLacking => ?_⟩
            obtain ⟨late, same, _⟩ := lacks isLacking
            cases same
  exact does

end Manager

-- An expired deadline wins over whatever else comes of an evaluation, at every depth.
theorem expired_deadline_wins {σ : Type} :
    (∀ (evaluation : Evaluation σ) world, evaluation.engine.Timed world.now →
      evaluation.Obeys world (evaluation.evaluate world)) ∧
    (∀ (manager : Manager σ) (world : World σ),
      (∀ name question,
        (⟨world.now, manager.config.queryTimeoutMs⟩ : Deadline).Rules manager (manager.run name question world)) ∧
      (∀ name plan,
        (⟨world.now, manager.config.queryTimeoutMs⟩ : Deadline).Rules manager (manager.execute name plan world)) ∧
      (∀ question, (⟨(manager.select question world).world.now, manager.config.queryTimeoutMs⟩ : Deadline).Rules
        manager (manager.answer question world))) := by
  constructor
  · exact fun evaluation world timed => evaluation.evaluate_obeys world timed
  · intro manager world
    exact ⟨fun name question => manager.run_rules name question world,
      fun name plan => manager.execute_rules name plan world, fun question => manager.answer_rules question world⟩

def slowNode : Node := .and [.leaf ⟨"f", "x"⟩, .leaf ⟨"f", "y"⟩]

def slowEvaluation : Evaluation Unit :=
  .ofPlan ⟨.default, ⟨0, some 1⟩, 0, none⟩
    (.only "f" fun _ _ => .wait 2000000 (.done (.ok (named "late")))) (.ofNode slowNode)

theorem slow_choose : slowEvaluation.choose (slowNode.placedLeaves []) =
    .done [⟨[⟨.op .and, 0⟩, ⟨.filter "f", 0⟩], ⟨"f", "x"⟩⟩, ⟨[⟨.op .and, 0⟩, ⟨.filter "f", 1⟩], ⟨"f", "y"⟩⟩] := by
  rw [Node.placed_leaves_positions]
  apply slowEvaluation.choose_known
  intro placed inside
  have filters : ∀ placed ∈ slowNode.positions, "f" = placed.leaf.filter := by decide
  obtain ⟨position, among, rfl⟩ := List.mem_map.mp inside
  change (Registry.only "f" _).contains _ = true
  rw [Registry.only_contains, decide_eq_true_eq]
  exact filters position among

def slowReturn : Entry :=
  ⟨slowEvaluation.engine.site, 2000000, .resolverReturned [⟨.op .and, 0⟩, ⟨.filter "f", 0⟩] (.ok (named "late"))⟩

theorem slow_resolve_all : slowEvaluation.resolveAll
    [⟨[⟨.op .and, 0⟩, ⟨.filter "f", 0⟩], ⟨"f", "x"⟩⟩, ⟨[⟨.op .and, 0⟩, ⟨.filter "f", 1⟩], ⟨"f", "y"⟩⟩] ⟨(), 0⟩ =
      ⟨.error (.timeout 2 1), ⟨(), 2000000⟩,
        [⟨slowEvaluation.engine.site, 0, .resolverCalled [⟨.op .and, 0⟩, ⟨.filter "f", 0⟩] "f" "x" 0⟩, slowReturn]⟩ := by
  have found : slowEvaluation.registry.find "f" = .ok ⟨"", fun _ _ => .wait 2000000 (.done (.ok (named "late")))⟩ :=
    Registry.only_find "f" _ "f"
  rw [Evaluation.resolveAll, Evaluation.resolve, found]
  rfl

theorem slow_returned : slowReturn ∈ (slowEvaluation.evaluate ⟨(), 0⟩).journal := by
  have stores : (slowEvaluation.storeLeaves (slowNode.placedLeaves [])).Does ⟨(), 0⟩ fun result _ journal =>
      result = .error (.timeout 2 1) ∧ slowReturn ∈ journal := by
    rw [Evaluation.storeLeaves, slow_choose]
    simp only [Evaluation.count, Evaluation.trace, Action.bind_does, Action.count_does, Action.record_does,
      Action.done_does]
    rw [Action.Does, slow_resolve_all]
    simp
  have does : slowEvaluation.evaluate.Does ⟨(), 0⟩ fun _ _ journal => slowReturn ∈ journal := by
    rw [slowEvaluation.evaluate_root slowNode rfl, Evaluation.evaluateNode]
    apply Action.on_failure_does
    apply Action.does_weaken stores
    rintro _ after journal ⟨rfl, inside⟩
    exact ⟨rfl, List.mem_append_left _ inside⟩
  exact does

theorem expired_deadline_wins_slow :
    slowEvaluation.engine.Timed 0 ∧ slowEvaluation.engine.deadline.Expired slowReturn.time ∧
      (∃ elapsed, (slowEvaluation.evaluate ⟨(), 0⟩).result = .error (.timeout elapsed 1)) ∧
      ∀ before after, (slowEvaluation.evaluate ⟨(), 0⟩).journal = before ++ slowReturn :: after →
        ∀ later ∈ after, later.site = slowEvaluation.engine.site → ¬ later.event.Resolves := by
  have timed : slowEvaluation.engine.Timed 0 :=
    ⟨.alone .default ⟨0, some 1⟩, Nat.le_refl 0, fun managed => by cases managed⟩
  have expired : slowEvaluation.engine.deadline.Expired slowReturn.time := ⟨1, rfl, by decide⟩
  have obeys := expired_deadline_wins.1 slowEvaluation ⟨(), 0⟩ timed
  obtain ⟨error, failed, elapsed, limit, limited, rfl⟩ := obeys.returned slowReturn slow_returned _ _ rfl expired
  obtain rfl : limit = 1 := (Option.some.inj limited).symm
  refine ⟨timed, expired, ⟨elapsed, failed⟩, fun before after split later inside isSite => ?_⟩
  apply obeys.afterwards before slowReturn after split expired later inside
  rw [Engine.Spans, isSite]
  rfl

end FilterPlan
