import FilterPlan.Json.Printer
import FilterPlan.Json.Reader
import FilterPlan.Plan.Fault
import FilterPlan.Plan.Trail

set_option autoImplicit false

namespace FilterPlan

-- Keys of a plan document. A schema calls the text of a leaf its question, so that key is read too.

def filterKey : String := "filter"
def operatorKey : String := "logical_operator"
def filterNameKey : String := "filter_name"
def instructionKey : String := "instruction"
def questionKey : String := "question"

-- Keys of the form in which a schema writes operators. A plan may not use it; the first of these keys that a
-- node has is named in the error.
def wrapperKeys : List String := ["AND", "OR", "XOR", "NOT"]

namespace Node

def readLeaf (location : Location) (members : List (String × Json)) : Except PlanError Node :=
  match Json.lookup filterNameKey members with
  | some (.string name) =>
      match (Json.lookup instructionKey members).or (Json.lookup questionKey members) with
      | some (.string instruction) => .ok (.leaf ⟨name, instruction⟩)
      | some _ => .error (.malformedNode location .instructionNotString)
      | none => .error (.malformedNode location .instructionMissing)
  | some _ => .error (.malformedNode location .filterNameNotString)
  | none =>
      match wrapperKeys.find? fun key => (Json.lookup key members).isSome with
      | some key => .error (.unsupportedOperator location key)
      | none => .error (.malformedNode location .unrecognised)

mutual
-- Reads a node. The first fault in document order is the one reported.
def read (location : Location) : Json → Except PlanError Node
  | .object members =>
      match Json.lookup operatorKey members with
      | none => readLeaf location members
      | some (.string tag) =>
          match Operator.ofTag? tag with
          | none => .error (.unsupportedOperator location tag)
          | some .and =>
              match _found : Json.lookup filterKey members with
              | some (.array items) => (readAll location 0 items).map .and
              | some _ => .error (.malformedNode location (.childrenNotArray .and))
              | none => .error (.malformedNode location (.childrenMissing .and))
          | some .or =>
              match _found : Json.lookup filterKey members with
              | some (.array items) => (readAll location 0 items).map .or
              | some _ => .error (.malformedNode location (.childrenNotArray .or))
              | none => .error (.malformedNode location (.childrenMissing .or))
          | some .not =>
              match _foundA : Json.lookup (Side.key .a) members with
              | none => .error (.malformedNode location (.operandMissing .a))
              | some valueA =>
                  match read (.operand .a :: location) valueA with
                  | .error error => .error error
                  | .ok a =>
                      match _foundB : Json.lookup (Side.key .b) members with
                      | none => .error (.malformedNode location (.operandMissing .b))
                      | some valueB => (read (.operand .b :: location) valueB).map (.not a)
      | some _ => .error (.malformedNode location .operatorNotString)
  | _ => .error (.malformedNode location .nodeNotObject)
termination_by value => sizeOf value
decreasing_by
  all_goals simp_wf
  · have := Json.lookup_smaller _ _ _ _found
    simp only [Json.array.sizeOf_spec] at this
    omega
  · have := Json.lookup_smaller _ _ _ _found
    simp only [Json.array.sizeOf_spec] at this
    omega
  · have := Json.lookup_smaller _ _ _ _foundA
    omega
  · have := Json.lookup_smaller _ _ _ _foundB
    omega

def readAll (location : Location) (index : Nat) : List Json → Except PlanError (List Node)
  | [] => .ok []
  | item :: items =>
      match read (.item index :: location) item with
      | .error error => .error error
      | .ok node => (readAll location (index + 1) items).map (node :: ·)
termination_by items => sizeOf items
end

mutual
def toJson : Node → Json
  | .leaf found =>
      .object [(filterNameKey, .string found.filter), (instructionKey, .string found.instruction)]
  | .and children =>
      .object [(operatorKey, .string (Operator.tag .and)), (filterKey, .array (toJsonAll children))]
  | .or children =>
      .object [(operatorKey, .string (Operator.tag .or)), (filterKey, .array (toJsonAll children))]
  | .not a b =>
      .object [(operatorKey, .string (Operator.tag .not)), (Side.key .a, toJson a), (Side.key .b, toJson b)]

def toJsonAll : List Node → List Json
  | [] => []
  | node :: rest => toJson node :: toJsonAll rest
end

end Node

namespace Plan

-- Reads a plan document: an object whose `filter` is a node, or is null or absent for no filtering.
def ofJson : Json → Except PlanError Plan
  | .object members =>
      match Json.lookup filterKey members with
      | none | some .null => .ok unfiltered
      | some value => (Node.read [.filter] value).map ofNode
  | _ => .error (.malformedNode [] .documentNotObject)

def nestingLimit : Nat := 127

def ofText (text : String) : Except PlanError Plan :=
  match Json.read nestingLimit text with
  | .error fault => .error (.notJson fault)
  | .ok value => ofJson value

def toJson (plan : Plan) : Json :=
  .object [(filterKey, match plan.root with | none => .null | some root => root.toJson)]

def text (plan : Plan) : String := plan.toJson.compact

def checkFilters (plan : Plan) (known : String → Bool) : Except PlanError Unit :=
  match plan.root with
  | none => .ok ()
  | some root =>
      match Node.firstUnknown known .empty [⟨root, .first root.kind, none⟩] with
      | none => .ok ()
      | some unknown => .error (.unknownFilter unknown.leaf.filter unknown.path)

end Plan

end FilterPlan
