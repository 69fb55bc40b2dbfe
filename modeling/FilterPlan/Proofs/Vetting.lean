import FilterPlan.Proofs.Likeness
import FilterPlan.Proofs.Walk

set_option autoImplicit false

namespace FilterPlan

namespace Catalog

variable {α : Type}

theorem contains_listed (catalog : Catalog α) (name : String) :
    catalog.contains name = catalog.entries.toList.any fun entry => entry.1 = name := by
  rw [Bool.eq_iff_iff, contains_iff, names, List.any_eq_true, List.mem_map]
  simp only [decide_eq_true_eq]

end Catalog

theorem Pipeline.schema_contains {σ : Type} (pipeline : Pipeline σ) (name : String) :
    pipeline.schema.contains name = pipeline.registry.contains name := by
  rw [Registry.contains, Catalog.contains_listed, Schema.contains, schema, Registry.descriptors, List.any_map]
  rfl

-- The walk that looks for an unknown filter sees the leaves that an evaluation places.
theorem Node.first_unknown_find (known : String → Bool) (trail : Trail) (pending : List Visit) :
    firstUnknown known trail pending =
      (placeLeaves [] trail pending).find? fun placed => !known placed.leaf.filter := by
  fun_induction firstUnknown known trail pending with
  | case1 trail => simp [placeLeaves]
  | case2 trail visit rest entered found isLeaf isKnown ih =>
      rw [placeLeaves]
      simp only [isLeaf, List.find?_cons, isKnown, Bool.not_true]
      exact ih
  | case3 trail visit rest entered found isLeaf isUnknown =>
      rw [placeLeaves]
      simp [isLeaf, isUnknown, entered]
  | case4 trail visit rest entered inner ih =>
      rw [placeLeaves]
      split
      · rename_i found isLeaf
        exact absurd isLeaf (inner found)
      · exact ih

theorem Plan.check_filters_find (plan : Plan) (root : Node) (planned : plan.root = some root)
    (known : String → Bool) :
    plan.checkFilters known =
      match (root.placedLeaves []).find? fun placed => !known placed.leaf.filter with
      | none => .ok ()
      | some unknown => .error (.unknownFilter unknown.leaf.filter unknown.path) := by
  rw [checkFilters, planned]
  dsimp only
  rw [Node.first_unknown_find]
  rfl

def Plan.places (plan : Plan) : List PlacedLeaf :=
  match plan.root with
  | none => []
  | some root => root.positions.map (.below [.first root.kind])

theorem Plan.places_root (plan : Plan) (root : Node) (planned : plan.root = some root) :
    plan.places = root.placedLeaves [] := by
  rw [places, planned, Node.placed_leaves_positions]
  rfl

theorem Plan.places_leaves (plan : Plan) : plan.places.map PlacedLeaf.leaf = plan.leaves := by
  cases planned : plan.root with
  | none => rw [places, leaves, planned, List.map_nil]
  | some root => rw [plan.places_root root planned, root.placed_leaves_order, leaves, planned]

theorem Plan.check_filters_places (plan : Plan) (known : String → Bool) :
    plan.checkFilters known =
      match plan.places.find? fun placed => !known placed.leaf.filter with
      | none => .ok ()
      | some unknown => .error (.unknownFilter unknown.leaf.filter unknown.path) := by
  cases planned : plan.root with
  | none => simp [checkFilters, places, planned]
  | some root => rw [plan.check_filters_find root planned, plan.places_root root planned]

theorem Pipeline.checked_placed {σ : Type} (pipeline : Pipeline σ) (plan : Plan) (checked : pipeline.Checked plan)
    (root : Node) (planned : plan.root = some root) :
    ∀ placed ∈ root.placedLeaves [], pipeline.registry.contains placed.leaf.filter = true := by
  rw [Checked, plan.check_filters_find root planned] at checked
  intro placed inside
  cases unknown : (root.placedLeaves []).find? fun placed => !pipeline.schema.contains placed.leaf.filter with
  | some found => simp [unknown] at checked
  | none =>
      have known := List.find?_eq_none.mp unknown placed inside
      rwa [pipeline.schema_contains, Bool.not_eq_true, Bool.not_eq_false'] at known

theorem Pipeline.checked_known {σ : Type} (pipeline : Pipeline σ) (plan : Plan) (checked : pipeline.Checked plan) :
    ∀ leaf ∈ plan.leaves, ∃ filter, pipeline.registry.find leaf.filter = .ok filter := by
  intro leaf inside
  cases planned : plan.root with
  | none => simp [Plan.leaves, planned] at inside
  | some root =>
      rw [Plan.leaves, planned] at inside
      dsimp only at inside
      rw [← root.placed_leaves_order []] at inside
      obtain ⟨placed, isPlaced, rfl⟩ := List.mem_map.mp inside
      exact (pipeline.registry.contains_find _).mp (pipeline.checked_placed plan checked root planned placed isPlaced)

namespace Evaluation

variable {σ : Type}

def Knows (evaluation : Evaluation σ) (leaves : List PlacedLeaf) : Prop :=
  ∀ placed ∈ leaves, evaluation.registry.contains placed.leaf.filter = true

theorem skip_unknown_known {ε : Type} (evaluation : Evaluation σ) (leaves : List PlacedLeaf)
    (known : evaluation.Knows leaves) :
    (evaluation.skipUnknown leaves : Action σ ε (List PlacedLeaf)) = .done leaves := by
  induction leaves with
  | nil => rfl
  | cons placed rest ih =>
      rw [skipUnknown, if_pos (known placed List.mem_cons_self),
        ih fun other inside => known other (List.mem_cons_of_mem _ inside)]
      rfl

theorem choose_known (evaluation : Evaluation σ) (leaves : List PlacedLeaf) (known : evaluation.Knows leaves) :
    evaluation.choose leaves = .done leaves := by
  rw [choose]
  cases evaluation.engine.config.missingFilter with
  | skip => exact evaluation.skip_unknown_known leaves known
  | reject =>
      have none : (leaves.find? fun placed => !evaluation.registry.contains placed.leaf.filter) = none :=
        List.find?_eq_none.mpr fun placed inside => by simp [known placed inside]
      rw [none]

end Evaluation

theorem Action.bind_same {σ ε α β : Type} {first : Action σ ε α} {next other : α → Action σ ε β}
    (same : first.Writes fun result _ => ∀ value, result = .ok value → next value = other value) :
    first >>= next = first >>= other := by
  funext world
  have known := same world
  change first.bind next world = first.bind other world
  rw [Action.bind, Action.bind]
  revert known
  rcases first world with ⟨_ | value, after, journal⟩
  · exact fun _ => rfl
  · intro known
    dsimp only
    rw [known value rfl]

def Config.withMissing (config : Config) (policy : MissingFilterPolicy) : Config :=
  { config with missingFilter := policy }

def Engine.withMissing {σ : Type} (engine : Engine σ) (policy : MissingFilterPolicy) : Engine σ :=
  { engine with config := engine.config.withMissing policy }

def Evaluation.withMissing {σ : Type} (evaluation : Evaluation σ) (policy : MissingFilterPolicy) : Evaluation σ :=
  { evaluation with engine := evaluation.engine.withMissing policy }

def Manager.withMissing {σ : Type} (manager : Manager σ) (policy : MissingFilterPolicy) : Manager σ :=
  { manager with config := manager.config.withMissing policy }

namespace Evaluation

variable {σ : Type}

theorem rows_of_same (evaluation : Evaluation σ) (policy : MissingFilterPolicy) (placed : PlacedLeaf)
    (resolver : Resolver σ) (retries attempt : Nat) :
    (evaluation.withMissing policy).rowsOf placed resolver retries attempt =
      evaluation.rowsOf placed resolver retries attempt := by
  induction retries generalizing attempt with
  | zero => rfl
  | succ retries ih =>
      rw [rowsOf, rowsOf]
      refine Action.bind_same fun world outcome _ => ?_
      cases outcome with
      | ok rows => rfl
      | error source =>
          dsimp only
          rw [ih]
          rfl

theorem resolve_all_same (evaluation : Evaluation σ) (policy : MissingFilterPolicy) (leaves : List PlacedLeaf) :
    (evaluation.withMissing policy).resolveAll leaves = evaluation.resolveAll leaves := by
  have resolves (placed : PlacedLeaf) : (evaluation.withMissing policy).resolve placed = evaluation.resolve placed := by
    rw [resolve, resolve]
    exact Action.bind_same fun world filter _ => evaluation.rows_of_same policy placed filter.resolver _ 0
  induction leaves with
  | nil => rfl
  | cons placed rest ih =>
      rw [resolveAll, resolveAll, ih, resolves]

theorem evaluate_same (evaluation : Evaluation σ) (policy : MissingFilterPolicy) (node : Node) (base : Path)
    (known : evaluation.Knows (node.placedLeaves base)) :
    (evaluation.withMissing policy).evaluateNode node base = evaluation.evaluateNode node base := by
  have stores : (evaluation.withMissing policy).storeLeaves (node.placedLeaves base) =
      evaluation.storeLeaves (node.placedLeaves base) := by
    rw [storeLeaves, storeLeaves, (evaluation.withMissing policy).choose_known _ known, evaluation.choose_known _ known]
    simp only [evaluation.resolve_all_same policy]
    rfl
  rw [evaluateNode, evaluateNode, stores]
  rfl

end Evaluation

namespace Pipeline

variable {σ : Type}

theorem execute_same (pipeline : Pipeline σ) (engine : Engine σ) (policy : MissingFilterPolicy) (plan : Plan)
    (checked : pipeline.Checked plan) :
    pipeline.execute (engine.withMissing policy) plan = pipeline.execute engine plan := by
  cases planned : plan.root with
  | none =>
      rw [pipeline.execute_unfiltered _ plan planned, pipeline.execute_unfiltered _ plan planned]
      rfl
  | some root =>
      have evaluates := (Evaluation.ofPlan engine pipeline.registry plan).evaluate_same policy root []
        (pipeline.checked_placed plan checked root planned)
      rw [pipeline.execute_filtered _ plan root planned, pipeline.execute_filtered _ plan root planned, ← evaluates]
      rfl

theorem plan_for_same (pipeline : Pipeline σ) (engine : Engine σ) (policy : MissingFilterPolicy) (question : String)
    (retries attempt : Nat) (feedback : Option String) :
    pipeline.planFor (engine.withMissing policy) question retries attempt feedback =
      pipeline.planFor engine question retries attempt feedback := by
  induction retries generalizing attempt feedback with
  | zero => rfl
  | succ retries ih =>
      rw [planFor, planFor]
      refine Action.bind_same fun world outcome _ => ?_
      cases outcome with
      | ok plan => rfl
      | error rejection => exact ih _ _

theorem run_same (pipeline : Pipeline σ) (engine : Engine σ) (policy : MissingFilterPolicy) (question : String) :
    pipeline.run (engine.withMissing policy) question = pipeline.run engine question := by
  have answers : pipeline.answer (engine.withMissing policy) question = pipeline.answer engine question := by
    rw [answer, answer, generatePlan, generatePlan]
    have plans := pipeline.plan_for_same engine policy question (min engine.config.planRetries (maxWord32 - 1)) 0 none
    change (pipeline.planFor (engine.withMissing policy) question (min engine.config.planRetries (maxWord32 - 1)) 0 none
      >>= _) = _
    rw [plans]
    exact Action.bind_same (Action.writes_weaken (pipeline.plan_for_writes engine question _ 0 none)
      fun result journal planned plan isPlan => pipeline.execute_same engine policy plan
        (planned.accepts plan (by rw [isPlan]; rfl)))
  rw [run, run, answers]
  rfl

end Pipeline

namespace Manager

variable {σ : Type}

theorem run_within_same (manager : Manager σ) (policy : MissingFilterPolicy)
    (fresh : Nat → Call → Action σ ResolverError (Except PipelineError Answer)) (deadline : Deadline)
    (level room : Nat) :
    (manager.withMissing policy).runWithin fresh deadline level room = manager.runWithin fresh deadline level room := by
  induction room with
  | zero => rfl
  | succ room ih =>
      funext name question
      rw [runWithin, runWithin, ih]
      let depth := manager.config.maxNestingDepth - room
      let scope : Scope σ :=
        ⟨level + depth, manager.runWithin fresh deadline level room, fresh (level + depth + 1)⟩
      exact Action.bind_same fun world pipeline _ =>
        pipeline.run_same ⟨manager.config, deadline, depth, some scope⟩ policy question

theorem run_at_same (manager : Manager σ) (asks : manager.Asks) (policy : MissingFilterPolicy) (query : Query)
    (depth : Nat) : (manager.withMissing policy).runAt query depth = manager.runAt query depth := by
  have stackless : (manager.withMissing policy).meetWithin 0 = manager.meetWithin 0 := by
    funext level call
    rw [meetWithin, meetWithin]
    rfl
  calc (manager.withMissing policy).runAt query depth
      = (manager.withMissing policy).runAt { query with stack := 0 } depth :=
        ((manager.withMissing policy).run_at_asks asks query 0 depth).symm
    _ = manager.runAt { query with stack := 0 } depth := by
        rw [runAt, runAt, stackless, run_within_same]
        rfl
    _ = manager.runAt query depth := manager.run_at_asks asks query 0 depth

theorem run_same (manager : Manager σ) (asks : manager.Asks) (policy : MissingFilterPolicy)
    (name question : String) : (manager.withMissing policy).run name question = manager.run name question := by
  rw [run_from_start, run_from_start]
  exact Action.bind_same fun world deadline _ =>
    congrFun (congrFun (manager.run_at_same asks policy (manager.outermost deadline) 0) name) question

theorem answer_same (manager : Manager σ) (asks : manager.Asks) (policy : MissingFilterPolicy) (question : String) :
    (manager.withMissing policy).answer question = manager.answer question := by
  rw [answer_selects, answer_selects]
  exact Action.bind_same fun world pipeline _ => by rw [manager.run_same asks policy]

end Manager

end FilterPlan
