import FilterPlan.Registry

set_option autoImplicit false

namespace FilterPlan

namespace Deadline

def check {σ : Type} (deadline : Deadline) : Action σ EvaluateError Unit := fun world =>
  match deadline.timeout? world.now with
  | none => ⟨.ok (), world, []⟩
  | some error => ⟨.error error, world, []⟩

def start {σ ε : Type} (limitMs : Option Nat) : Action σ ε Deadline := do
  let started ← Action.now
  return ⟨started, limitMs⟩

end Deadline

-- What a manager does for the resolvers of a run: it runs a pipeline one deeper in the same query, and it meets a
-- call with a query of its own.
structure Scope (σ : Type) where
  level : Nat
  nested : String → String → Action σ PipelineError IdentitySet
  fresh : Call → Action σ ResolverError (Except PipelineError Answer)

structure Engine (σ : Type) where
  config : Config
  deadline : Deadline
  depth : Nat
  -- There is none outside a manager.
  scope : Option (Scope σ)

namespace Engine

variable {σ : Type}

def level (engine : Engine σ) : Nat :=
  match engine.scope with
  | none => 0
  | some scope => scope.level

def site (engine : Engine σ) : Site := ⟨engine.depth, engine.level, engine.deadline⟩

@[simp] theorem site_depth (engine : Engine σ) : engine.site.depth = engine.depth := rfl
@[simp] theorem site_level (engine : Engine σ) : engine.site.level = engine.level := rfl
@[simp] theorem site_deadline (engine : Engine σ) : engine.site.deadline = engine.deadline := rfl

def serve (engine : Engine σ) : Access σ where
  ask pipeline question :=
    match engine.scope with
    | none => .fail (.notApplicable ("cannot run pipeline '" ++ pipeline ++ "': no pipeline manager in scope"))
    | some scope => (scope.nested pipeline question).mapError .nested
  enter call :=
    match engine.scope with
    | none => .done none
    | some scope => (scope.fresh call).bind fun reply => .done (some reply)

end Engine

structure Evaluation (σ : Type) where
  engine : Engine σ
  registry : Registry σ
  plan : Plan
  fingerprint : Fingerprint
  isFingerprint : fingerprint = plan.fingerprint

namespace Evaluation

variable {σ : Type}

def ofPlan (engine : Engine σ) (registry : Registry σ) (plan : Plan) : Evaluation σ :=
  ⟨engine, registry, plan, plan.fingerprint, rfl⟩

def count {ε : Type} (evaluation : Evaluation σ) (metric : Metric) : Action σ ε Unit :=
  .count evaluation.engine.site metric

def trace {ε : Type} (evaluation : Evaluation σ) (note : TraceNote) : Action σ ε Unit :=
  .record evaluation.engine.site (.traced evaluation.fingerprint note)

def context (evaluation : Evaluation σ) (path : Path) (attempt : Nat) : ResolveContext :=
  ⟨path, evaluation.plan, evaluation.fingerprint, attempt, evaluation.engine.depth,
    evaluation.engine.scope.isSome⟩

section

variable (evaluation : Evaluation σ) (path : Path) (attempt : Nat)

@[simp] theorem context_path : (evaluation.context path attempt).path = path := rfl
@[simp] theorem context_plan : (evaluation.context path attempt).plan = evaluation.plan := rfl
@[simp] theorem context_attempt : (evaluation.context path attempt).attempt = attempt := rfl
@[simp] theorem context_depth : (evaluation.context path attempt).depth = evaluation.engine.depth := rfl

@[simp] theorem context_fingerprint : (evaluation.context path attempt).fingerprint = evaluation.plan.fingerprint :=
  evaluation.isFingerprint

@[simp] theorem context_managed : (evaluation.context path attempt).managed = evaluation.engine.scope.isSome := rfl

end

-- Calls the resolver of a leaf once. Time that is up before or after the call counts more than what the
-- resolver has to say.
def call (evaluation : Evaluation σ) (placed : PlacedLeaf) (resolver : Resolver σ) (attempt : Nat) :
    Action σ EvaluateError (Except ResolverError IdentitySet) := do
  let engine := evaluation.engine
  engine.deadline.check
  .record engine.site (.resolverCalled placed.path placed.leaf.filter placed.leaf.instruction attempt)
  let resolution := resolver placed.leaf.instruction (evaluation.context placed.path attempt)
  let outcome ← (resolution.perform engine.serve).attempt
  .record engine.site (.resolverReturned placed.path outcome)
  engine.deadline.check
  return outcome

def giveUp (evaluation : Evaluation σ) (placed : PlacedLeaf) (attempt : Nat) (source : ResolverError) :
    Action σ EvaluateError IdentitySet := do
  evaluation.count .resolverFailure
  .fail (.resolver placed.leaf.filter placed.path (attempt + 1) source)

def accept (evaluation : Evaluation σ) (placed : PlacedLeaf) (attempt : Nat) (rows : IdentitySet) :
    Action σ EvaluateError IdentitySet := do
  evaluation.count (.leafResolved rows.size)
  evaluation.trace (.leafResolved placed.path placed.leaf.filter rows.size (attempt + 1))
  return rows

-- Calls the resolver of a leaf until the call does not fail for a passing reason, but at most `retries` times
-- after the first.
def rowsOf (evaluation : Evaluation σ) (placed : PlacedLeaf) (resolver : Resolver σ) :
    (retries attempt : Nat) → Action σ EvaluateError IdentitySet
  | 0, attempt => do
      match ← evaluation.call placed resolver attempt with
      | .ok rows => evaluation.accept placed attempt rows
      | .error source => evaluation.giveUp placed attempt source
  | retries + 1, attempt => do
      match ← evaluation.call placed resolver attempt with
      | .ok rows => evaluation.accept placed attempt rows
      | .error source =>
          if source.isTransient then
            evaluation.count .resolverRetry
            evaluation.rowsOf placed resolver retries (attempt + 1)
          else evaluation.giveUp placed attempt source

def resolve (evaluation : Evaluation σ) (placed : PlacedLeaf) : Action σ EvaluateError IdentitySet := do
  let filter ← .ofExcept ((evaluation.registry.find placed.leaf.filter).mapError .registry)
  evaluation.rowsOf placed filter.resolver evaluation.engine.config.resolverRetries 0

-- One leaf after the other. A pool of workers, which resolves leaves at the same time, is left out.
def resolveAll (evaluation : Evaluation σ) :
    List PlacedLeaf → Action σ EvaluateError (List (Path × IdentitySet))
  | [] => .done []
  | placed :: rest => do
      let rows ← evaluation.resolve placed
      let others ← evaluation.resolveAll rest
      return (placed.path, rows) :: others

def skipUnknown {ε : Type} (evaluation : Evaluation σ) : List PlacedLeaf → Action σ ε (List PlacedLeaf)
  | [] => .done []
  | placed :: rest => do
      if evaluation.registry.contains placed.leaf.filter then
        let others ← evaluation.skipUnknown rest
        return placed :: others
      else
        evaluation.count .leafSkipped
        evaluation.trace (.leafSkipped placed.path placed.leaf.filter)
        evaluation.skipUnknown rest

-- The leaves to be resolved. Under `reject` all of them are looked up before any resolver is called.
def choose (evaluation : Evaluation σ) (leaves : List PlacedLeaf) : Action σ EvaluateError (List PlacedLeaf) :=
  match evaluation.engine.config.missingFilter with
  | .skip => evaluation.skipUnknown leaves
  | .reject =>
      match leaves.find? fun placed => !evaluation.registry.contains placed.leaf.filter with
      | none => .done leaves
      | some placed => .fail (.registry (.unknownFilter placed.leaf.filter))

def fill : List (Path × IdentitySet) → Store → Except EvaluateError Store
  | [], store => .ok store
  | (path, rows) :: rest, store =>
      match store.insert path rows with
      | (store, true) => fill rest store
      | (_, false) => .error (.pathCollision path)

def fault (evaluation : Evaluation σ) (error : EvaluateError) : Action σ EvaluateError Unit := do
  if error.isTimeout then
    evaluation.count .timeout
  evaluation.trace (.error error.failureClass .evaluate)

def storeLeaves (evaluation : Evaluation σ) (leaves : List PlacedLeaf) : Action σ EvaluateError Store := do
  evaluation.count (.planEvaluated leaves.length false)
  evaluation.trace (.planStart leaves.length evaluation.engine.depth)
  let results ← evaluation.resolveAll (← evaluation.choose leaves)
  .ofExcept (fill results .empty)

def evaluateNode (evaluation : Evaluation σ) (node : Node) (base : Path) : Action σ EvaluateError Store :=
  (evaluation.storeLeaves (node.placedLeaves base)).onFailure evaluation.fault

-- Evaluates the whole plan. A plan without filters has no results.
def evaluate (evaluation : Evaluation σ) : Action σ EvaluateError Store :=
  match evaluation.plan.root with
  | none => do
      evaluation.count (.planEvaluated 0 true)
      return .empty
  | some root => evaluation.evaluateNode root []

end Evaluation

end FilterPlan
