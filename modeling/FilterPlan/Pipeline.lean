import FilterPlan.Evaluation
import FilterPlan.Plan.Document

set_option autoImplicit false

namespace FilterPlan

abbrev Generator (σ : Type) := PlanRequest → σ → Reply σ (Except GeneratorError Plan)

structure Pipeline (σ : Type) where
  name : String
  goal : String
  registry : Registry σ
  domain : IdentitySet
  generator : Generator σ
  exemplar : Option Plan

namespace Pipeline

variable {σ : Type}

def unnamed : String := "unnamed"

def schema (pipeline : Pipeline σ) : Schema := ⟨pipeline.registry.descriptors⟩

def judge (pipeline : Pipeline σ) (attempt : Nat) :
    Except GeneratorError Plan → Except PipelineError Plan
  | .ok plan =>
      let schema := pipeline.schema
      match plan.checkFilters schema.contains with
      | .ok () => .ok plan
      | .error error => .error (.plan error)
  | .error (.plan error) => .error (.plan error)
  | .error (.failed message) => .error (.planGeneration pipeline.name (attempt + 1) message)

def propose (pipeline : Pipeline σ) (engine : Engine σ) (question : String) (attempt : Nat)
    (feedback : Option String) : Action σ PipelineError (Except PipelineError Plan) := do
  engine.deadline.check.mapError .evaluate
  if attempt > 0 then
    .count engine.site .planRetry
  let request : PlanRequest :=
    ⟨pipeline.name, pipeline.goal, question, pipeline.schema, pipeline.exemplar, attempt, feedback⟩
  .record engine.site (.planRequested request)
  let outcome ← .consult (pipeline.generator request)
  .record engine.site (.planProposed outcome)
  return pipeline.judge attempt outcome

-- Asks for a plan, again after each rejection with the reason as feedback, but at most `retries` times after
-- the first. The last rejection is the error.
def planFor (pipeline : Pipeline σ) (engine : Engine σ) (question : String) :
    (retries attempt : Nat) → (feedback : Option String) → Action σ PipelineError Plan
  | 0, attempt, feedback => do
      match ← pipeline.propose engine question attempt feedback with
      | .ok plan => return plan
      | .error rejection =>
          .count engine.site .planFailure
          .fail rejection
  | retries + 1, attempt, feedback => do
      match ← pipeline.propose engine question attempt feedback with
      | .ok plan => return plan
      | .error rejection =>
          pipeline.planFor engine question retries (attempt + 1) (some rejection.message)

def generatePlan (pipeline : Pipeline σ) (engine : Engine σ) (question : String) : Action σ PipelineError Plan :=
  pipeline.planFor engine question (min engine.config.planRetries (maxWord32 - 1)) 0 none

def merge (evaluation : Evaluation σ) (store : Store) : Action σ PipelineError IdentitySet :=
  match store.merge evaluation.engine.config.missingOperand with
  | .ok rows => .done rows
  | .error error => do
      evaluation.trace (.error error.failureClass .merge)
      .fail (.merge error)

-- Evaluates a plan and merges the results. A plan without filters selects the whole domain.
def execute (pipeline : Pipeline σ) (engine : Engine σ) (plan : Plan) : Action σ PipelineError IdentitySet := do
  let evaluation := Evaluation.ofPlan engine pipeline.registry plan
  if plan.isUnfiltered then
    evaluation.count (.planEvaluated 0 true)
    evaluation.trace (.mergeFinish pipeline.domain.size)
    return pipeline.domain
  else
    let store ← evaluation.evaluate.mapError .evaluate
    let rows ← merge evaluation store
    evaluation.count (.mergeFinish rows.size)
    evaluation.trace (.mergeFinish rows.size)
    return rows

def answer (pipeline : Pipeline σ) (engine : Engine σ) (question : String) :
    Action σ PipelineError IdentitySet := do
  let plan ← pipeline.generatePlan engine question
  pipeline.execute engine plan

def run (pipeline : Pipeline σ) (engine : Engine σ) (question : String) : Action σ PipelineError IdentitySet := do
  .count engine.site (.pipelineStart pipeline.name (engine.depth > 0))
  let rows ← (pipeline.answer engine question).onFailure fun _ =>
    .count engine.site (.pipelineError pipeline.name)
  .count engine.site (.pipelineFinish pipeline.name rows.size)
  return rows

def standalone : Engine σ := ⟨.default, .unbounded, 0, none⟩

end Pipeline

end FilterPlan
