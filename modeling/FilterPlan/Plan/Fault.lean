import FilterPlan.Failure
import FilterPlan.Json.Token
import FilterPlan.Plan.Path

set_option autoImplicit false

namespace FilterPlan

inductive DocumentStep where
  | filter
  | item (index : Nat)
  | operand (side : Side)
deriving DecidableEq, Repr

def Side.key (side : Side) : String := "filter" ++ side.label

def DocumentStep.text : DocumentStep → String
  | .filter => ".filter"
  | .item index => ".filter[" ++ toString index ++ "]"
  | .operand side => "." ++ side.key

abbrev Location := List DocumentStep

def Location.text (location : Location) : String :=
  "$" ++ String.join (location.reverse.map DocumentStep.text)

inductive NodeFault where
  | documentNotObject
  | nodeNotObject
  | operatorNotString
  | childrenNotArray (operator : Operator)
  | childrenMissing (operator : Operator)
  | operandMissing (side : Side)
  | filterNameNotString
  | instructionNotString
  | instructionMissing
  | unrecognised
deriving DecidableEq, Repr

def NodeFault.message : NodeFault → String
  | .documentNotObject => "plan document must be a JSON object"
  | .nodeNotObject => "node must be a JSON object"
  | .operatorNotString => "'logical_operator' must be a string"
  | .childrenNotArray operator => "'" ++ operator.tag ++ "' requires a 'filter' array"
  | .childrenMissing operator => "'" ++ operator.tag ++ "' is missing 'filter'"
  | .operandMissing side => "'NOT' is missing '" ++ side.key ++ "'"
  | .filterNameNotString => "'filter_name' must be a string"
  | .instructionNotString => "'instruction' must be a string"
  | .instructionMissing => "leaf is missing 'instruction'"
  | .unrecognised => "node is neither a filter leaf nor a logical operator"

inductive PlanError where
  | notJson (fault : Json.Fault)
  | unsupportedOperator (location : Location) (tag : String)
  | malformedNode (location : Location) (fault : NodeFault)
  | unknownFilter (name : String) (path : Path)
deriving DecidableEq, Repr

namespace PlanError

def message : PlanError → String
  | .notJson fault => "plan document is not valid JSON: " ++ fault.message
  | .unsupportedOperator location tag =>
      "unsupported plan shape at '" ++ location.text ++ "': logical operator '" ++ tag ++ "'"
  | .malformedNode location fault => "malformed plan node at '" ++ location.text ++ "': " ++ fault.message
  | .unknownFilter name path => "plan references unknown filter '" ++ name ++ "' at '" ++ path.text ++ "'"

def failureClass : PlanError → FailureClass
  | .notJson _ | .unsupportedOperator _ _ | .malformedNode _ _ => .unsupportedPlanShape
  | .unknownFilter _ _ => .configuration

def failure (error : PlanError) : Failure := ⟨error.failureClass, .plan, error.message⟩

end PlanError

end FilterPlan
