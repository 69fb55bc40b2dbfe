import FilterPlan.Json

set_option autoImplicit false

namespace FilterPlan

inductive FailureClass where
  | configuration
  | internal
  | invariantViolation
  | planGeneration
  | resolver
  | timeout
  | unsupportedPlanShape
deriving DecidableEq, Repr

inductive Origin where
  | config
  | plan
  | registry
  | evaluate
  | merge
  | pipeline
deriving DecidableEq, Repr

inductive FailureKind where
  | configuration
  | internal
  | planGeneration
  | resolver
  | timeout
  | unsupportedPlanShape
deriving DecidableEq, Repr

namespace FailureClass

def all : List FailureClass :=
  [.configuration, .internal, .invariantViolation, .planGeneration, .resolver, .timeout, .unsupportedPlanShape]

def label : FailureClass → String
  | .configuration => "configuration"
  | .internal => "internal"
  | .invariantViolation => "invariant_violation"
  | .planGeneration => "plan_generation"
  | .resolver => "resolver"
  | .timeout => "timeout"
  | .unsupportedPlanShape => "unsupported_plan_shape"

-- A broken invariant is an internal failure to callers; they can remedy neither.
def kind : FailureClass → FailureKind
  | .configuration => .configuration
  | .internal => .internal
  | .invariantViolation => .internal
  | .planGeneration => .planGeneration
  | .resolver => .resolver
  | .timeout => .timeout
  | .unsupportedPlanShape => .unsupportedPlanShape

end FailureClass

namespace Origin

def all : List Origin := [.config, .plan, .registry, .evaluate, .merge, .pipeline]

def label : Origin → String
  | .config => "config"
  | .plan => "plan"
  | .registry => "registry"
  | .evaluate => "evaluate"
  | .merge => "merge"
  | .pipeline => "pipeline"

def name : Origin → String
  | .config => "Config"
  | .plan => "Plan"
  | .registry => "Registry"
  | .evaluate => "Evaluate"
  | .merge => "Merge"
  | .pipeline => "Pipeline"

end Origin

namespace FailureKind

def all : List FailureKind :=
  [.configuration, .internal, .planGeneration, .resolver, .timeout, .unsupportedPlanShape]

def name : FailureKind → String
  | .configuration => "Configuration"
  | .internal => "Internal"
  | .planGeneration => "PlanGeneration"
  | .resolver => "Resolver"
  | .timeout => "Timeout"
  | .unsupportedPlanShape => "UnsupportedPlanShape"

end FailureKind

structure Failure where
  failureClass : FailureClass
  origin : Origin
  message : String
deriving DecidableEq, Repr

def Failure.detail (failure : Failure) : String :=
  failure.origin.label ++ ":" ++ failure.failureClass.label ++ ": " ++ failure.message

structure Report where
  kind : FailureKind
  origin : Origin
  message : String
deriving DecidableEq, Repr

def Failure.report (failure : Failure) : Report :=
  ⟨failure.failureClass.kind, failure.origin, failure.message⟩

namespace Report

def toJson (report : Report) : Json :=
  .object [("kind", .string report.kind.name), ("origin", .string report.origin.name),
    ("message", .string report.message)]

-- A name out of a fixed list: a text, or a record whose only key is the name and whose value is null.
def oneOf? {α : Type} (choices : List α) (name : α → String) : Json → Option α
  | .string text => choices.find? fun choice => name choice = text
  | .object [(text, .null)] => choices.find? fun choice => name choice = text
  | _ => none

def ofJson? (value : Json) : Option Report := do
  match ← value.fields? ["kind", "origin", "message"] with
  | [some kind, some origin, some (.string message)] =>
      some ⟨← oneOf? FailureKind.all FailureKind.name kind, ← oneOf? Origin.all Origin.name origin, message⟩
  | _ => none

end Report

end FilterPlan
