import FilterPlan.Config
import FilterPlan.Plan.Fault
import FilterPlan.Store.Merge

set_option autoImplicit false

namespace FilterPlan

inductive RegistryError where
  | duplicateFilter (name : String)
  | unknownFilter (name : String)
deriving DecidableEq, Repr

namespace RegistryError

def message : RegistryError → String
  | .duplicateFilter name => "filter '" ++ name ++ "' already registered"
  | .unknownFilter name => "filter '" ++ name ++ "' not found"

def failureClass : RegistryError → FailureClass
  | .duplicateFilter _ | .unknownFilter _ => .configuration

def failure (error : RegistryError) : Failure := ⟨error.failureClass, .registry, error.message⟩

end RegistryError

inductive GeneratorError where
  | failed (message : String)
  | plan (error : PlanError)
deriving DecidableEq, Repr

def GeneratorError.message : GeneratorError → String
  | .failed message => message
  | .plan error => error.message

-- A resolver may run a pipeline, whose failure is then inside the failure of the resolver.
mutual
inductive ResolverError where
  | failed (message : String)
  | transient (message : String)
  | notApplicable (message : String)
  | nested (error : PipelineError)

inductive EvaluateError where
  | registry (error : RegistryError)
  | resolver (filter : String) (path : Path) (attempts : Nat) (source : ResolverError)
  | timeout (elapsedMs limitMs : Nat)
  | pathCollision (path : Path)

inductive PipelineError where
  | duplicatePipeline (name : String)
  | unknownPipeline (name : String)
  | unknownSelection (answer : String) (candidates : List String)
  | noClassifier
  | selection (error : GeneratorError)
  | nestingTooDeep (pipeline : String) (depth limit : Nat)
  | planGeneration (pipeline : String) (attempts : Nat) (message : String)
  | plan (error : PlanError)
  | evaluate (error : EvaluateError)
  | merge (error : MergeError)
  | config (error : ConfigError)
end

mutual
def ResolverError.message : ResolverError → String
  | .failed message => message
  | .transient message => "transient failure: " ++ message
  | .notApplicable message => "not applicable: " ++ message
  | .nested error => "nested pipeline run failed: " ++ error.message

def EvaluateError.message : EvaluateError → String
  | .registry error => error.message
  | .resolver filter path attempts source =>
      "filter '" ++ filter ++ "' failed at '" ++ path.text ++ "' after " ++ toString attempts ++ " attempt(s): "
        ++ source.message
  | .timeout elapsedMs limitMs =>
      "query deadline exceeded after " ++ toString elapsedMs ++ "ms (limit " ++ toString limitMs ++ "ms)"
  | .pathCollision path => "result store path '" ++ path.text ++ "' written twice"

def PipelineError.message : PipelineError → String
  | .duplicatePipeline name => "pipeline '" ++ name ++ "' already registered"
  | .unknownPipeline name => "pipeline '" ++ name ++ "' not found"
  | .unknownSelection answer candidates =>
      "classifier chose '" ++ answer ++ "', which is not one of: " ++ String.intercalate ", " candidates
  | .noClassifier => "no pipeline classifier configured"
  | .selection error => "pipeline selection failed: " ++ error.message
  | .nestingTooDeep pipeline depth limit =>
      "nested run of pipeline '" ++ pipeline ++ "' at depth " ++ toString depth ++ " exceeds limit "
        ++ toString limit
  | .planGeneration pipeline attempts message =>
      "plan generation for pipeline '" ++ pipeline ++ "' failed after " ++ toString attempts
        ++ " attempt(s): " ++ message
  | .plan error => error.message
  | .evaluate error => error.message
  | .merge error => error.message
  | .config error => error.message
end

-- The class of a failed nested run is the class of what failed in it, however deep.
mutual
def ResolverError.failureClass : ResolverError → FailureClass
  | .failed _ | .transient _ | .notApplicable _ => .resolver
  | .nested error => error.failureClass

def EvaluateError.failureClass : EvaluateError → FailureClass
  | .registry error => error.failureClass
  | .resolver _ _ _ source => source.failureClass
  | .timeout _ _ => .timeout
  | .pathCollision _ => .invariantViolation

def PipelineError.failureClass : PipelineError → FailureClass
  | .duplicatePipeline _ | .unknownPipeline _ | .unknownSelection _ _ | .noClassifier
  | .nestingTooDeep _ _ _ => .configuration
  | .selection _ | .planGeneration _ _ _ => .planGeneration
  | .plan error => error.failureClass
  | .evaluate error => error.failureClass
  | .merge error => error.failureClass
  | .config error => error.failureClass
end

def ResolverError.isTransient : ResolverError → Bool
  | .transient _ => true
  | _ => false

def EvaluateError.isTimeout : EvaluateError → Bool
  | .timeout _ _ => true
  | _ => false

def EvaluateError.failure (error : EvaluateError) : Failure := ⟨error.failureClass, .evaluate, error.message⟩

def PipelineError.origin : PipelineError → Origin
  | .plan _ => .plan
  | .evaluate _ => .evaluate
  | .merge _ => .merge
  | .config _ => .config
  | _ => .pipeline

def PipelineError.failure (error : PipelineError) : Failure := ⟨error.failureClass, error.origin, error.message⟩

end FilterPlan
