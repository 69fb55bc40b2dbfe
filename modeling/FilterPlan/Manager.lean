import FilterPlan.Pipeline

set_option autoImplicit false

namespace FilterPlan

abbrev Classifier (σ : Type) := String → List String → σ → Reply σ (Except GeneratorError String)

structure Manager (σ : Type) where
  config : Config
  pipelines : Catalog (Pipeline σ)
  classifier : Option (Classifier σ)
  -- How many calls that resolvers make of the manager may be open inside each other before the process is out
  -- of stack. Nothing else bounds them.
  stack : Nat

def Answer.toJson (answer : Answer) : Json :=
  .object [("pipeline", .string answer.pipeline), ("identities", IdentitySet.toJson answer.identities)]

namespace Manager

variable {σ : Type}

def usualStack : Nat := 1000

-- A manager without pipelines.
def bare (config : Config) (classifier : Option (Classifier σ)) : Manager σ := ⟨config, .empty, classifier, usualStack⟩

def ofConfig (config : Config) (classifier : Option (Classifier σ)) : Except PipelineError (Manager σ) :=
  match config.poolThreads with
  | .ok _ => .ok (bare config classifier)
  | .error error => .error (.config error)

def add (manager : Manager σ) (name : String) (pipeline : Pipeline σ) : Except PipelineError (Manager σ) :=
  match manager.pipelines.register? name { pipeline with name } with
  | some pipelines => .ok { manager with pipelines }
  | none => .error (.duplicatePipeline name)

def find (manager : Manager σ) (name : String) : Except PipelineError (Pipeline σ) :=
  match manager.pipelines.find? name with
  | some pipeline => .ok pipeline
  | none => .error (.unknownPipeline name)

def names (manager : Manager σ) : List String := manager.pipelines.names

def size (manager : Manager σ) : Nat := manager.pipelines.size

def select (manager : Manager σ) (question : String) : Action σ PipelineError (Pipeline σ) :=
  match manager.classifier with
  | none => .fail .noClassifier
  | some classify => do
      let choice ← (Action.consult (classify question manager.names)).bind .ofExcept |>.mapError .selection
      match manager.find (Text.trim choice) with
      | .ok pipeline => return pipeline
      | .error _ => .fail (.unknownSelection (Text.trim choice) manager.names)

section

-- How a call is met that a resolver makes of the manager inside a number of calls of resolvers.
variable (fresh : Nat → Call → Action σ ResolverError (Except PipelineError Answer))

def runWithin (manager : Manager σ) (deadline : Deadline) (level : Nat) :
    (room : Nat) → (name question : String) → Action σ PipelineError IdentitySet
  | 0, name, _ =>
      .fail (.nestingTooDeep name (manager.config.maxNestingDepth + 1) manager.config.maxNestingDepth)
  | room + 1, name, question => do
      let pipeline ← .ofExcept (manager.find name)
      let depth := manager.config.maxNestingDepth - room
      let scope : Scope σ :=
        ⟨level + depth, manager.runWithin deadline level room, fresh (level + depth + 1)⟩
      pipeline.run ⟨manager.config, deadline, depth, some scope⟩ question

def engine (manager : Manager σ) (deadline : Deadline) (level : Nat) : Engine σ :=
  let scope : Scope σ := ⟨level, manager.runWithin fresh deadline level manager.config.maxNestingDepth, fresh (level + 1)⟩
  ⟨manager.config, deadline, 0, some scope⟩

def beginRun (manager : Manager σ) (level : Nat) (name question : String) : Action σ PipelineError IdentitySet := do
  let deadline ← Deadline.start manager.config.queryTimeoutMs
  manager.runWithin fresh deadline level (manager.config.maxNestingDepth + 1) name question

def beginExecute (manager : Manager σ) (level : Nat) (name : String) (plan : Plan) :
    Action σ PipelineError IdentitySet := do
  let pipeline ← .ofExcept (manager.find name)
  let deadline ← Deadline.start manager.config.queryTimeoutMs
  pipeline.execute (manager.engine fresh deadline level) plan

def beginAnswer (manager : Manager σ) (level : Nat) (question : String) : Action σ PipelineError Answer := do
  let pipeline ← manager.select question
  let identities ← manager.beginRun fresh level pipeline.name question
  return ⟨pipeline.name, identities⟩

def meet (manager : Manager σ) (level : Nat) : Call → Action σ PipelineError Answer
  | .run name question => return ⟨name, ← manager.beginRun fresh level name question⟩
  | .execute name plan => return ⟨name, ← manager.beginExecute fresh level name plan⟩
  | .answer question => manager.beginAnswer fresh level question

end

-- Meets a call while there is stack left. The process ends where there is none, so nothing that is told after
-- the mark takes place.
def meetWithin (manager : Manager σ) :
    (stack level : Nat) → Call → Action σ ResolverError (Except PipelineError Answer)
  | 0, level, _ => do
      let deadline ← Deadline.start manager.config.queryTimeoutMs
      .record ⟨0, level, deadline⟩ .overflowed
      .fail (.failed "stack overflow")
  | stack + 1, level, call => (manager.meet (manager.meetWithin stack) level call).attempt

def run (manager : Manager σ) (name question : String) : Action σ PipelineError IdentitySet :=
  manager.beginRun (manager.meetWithin manager.stack) 0 name question

def execute (manager : Manager σ) (name : String) (plan : Plan) : Action σ PipelineError IdentitySet :=
  manager.beginExecute (manager.meetWithin manager.stack) 0 name plan

def answer (manager : Manager σ) (question : String) : Action σ PipelineError Answer :=
  manager.beginAnswer (manager.meetWithin manager.stack) 0 question

theorem answer_selects (manager : Manager σ) (question : String) :
    manager.answer question = (do
      let pipeline ← manager.select question
      let identities ← manager.run pipeline.name question
      return ⟨pipeline.name, identities⟩) := rfl

end Manager

end FilterPlan
