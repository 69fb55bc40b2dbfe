import FilterPlan.Json

set_option autoImplicit false

namespace FilterPlan

structure FilterDescriptor where
  name : String
  description : String
deriving DecidableEq, Repr

namespace FilterDescriptor

def fieldNames : List String := ["name", "description"]

def toJson (descriptor : FilterDescriptor) : Json :=
  .object [("name", .string descriptor.name), ("description", .string descriptor.description)]

def ofJson? (value : Json) : Option FilterDescriptor :=
  match value.fields? fieldNames with
  | some [some (.string name), some (.string description)] => some ⟨name, description⟩
  | _ => none

def listOfJson? : Json → Option (List FilterDescriptor)
  | .array items => items.mapM ofJson?
  | _ => none

end FilterDescriptor

-- A fragment of the document that tells a generator how plans are written. What an object does not have is left
-- out of its text.
inductive Grammar where
  | object (description : Option String) (properties : List (String × Grammar)) (required : List String)
      (oneOf : List Grammar) (definitions : List (String × Grammar)) (additionalProperties : Option Bool)
  | array (description : Option String) (items : Grammar)
  | string (description : String) (choices : Option (List FilterDescriptor))
  | reference (target : String)

namespace Grammar

def describe : Option String → List (String × Json)
  | none => []
  | some text => [("description", .string text)]

def unlessEmpty {α : Type} (key : String) (listed : List α) (value : Json) : List (String × Json) :=
  if listed.isEmpty then [] else [(key, value)]

def offer : Option (List FilterDescriptor) → List (String × Json)
  | none => []
  | some choices =>
      [("enum", .array (choices.map fun choice => .string choice.name)),
        ("enumDescriptions", .array (choices.map fun choice => .string choice.description))]

def close : Option Bool → List (String × Json)
  | none => []
  | some allowed => [("additionalProperties", .bool allowed)]

mutual
def toJson : Grammar → Json
  | .object description properties required oneOf definitions additionalProperties =>
      .object (describe description ++ ("type", .string "object") ::
        (unlessEmpty "properties" properties (.object (toMembers properties)) ++
          unlessEmpty "required" required (.array (required.map .string)) ++
          unlessEmpty "oneOf" oneOf (.array (toItems oneOf)) ++
          unlessEmpty "definitions" definitions (.object (toMembers definitions)) ++
          close additionalProperties))
  | .array description items => .object (describe description ++ [("type", .string "array"), ("items", items.toJson)])
  | .string description choices =>
      .object (("description", .string description) :: ("type", .string "string") :: offer choices)
  | .reference target => .object [("$ref", .string target)]

def toItems : List Grammar → List Json
  | [] => []
  | item :: rest => item.toJson :: toItems rest

def toMembers : List (String × Grammar) → List (String × Json)
  | [] => []
  | (key, value) :: rest => (key, value.toJson) :: toMembers rest
end

end Grammar

structure Schema where
  filters : List FilterDescriptor
deriving DecidableEq, Repr

namespace Schema

def names (schema : Schema) : List String := schema.filters.map FilterDescriptor.name

def contains (schema : Schema) (name : String) : Bool :=
  schema.filters.any fun descriptor => descriptor.name = name

def filtersDescription : String :=
  "A complex filter object used to apply multiple question-based filters with logical operators"

def conditionDescription : String :=
  "A filter condition which can be an question-based filter or another logical operator"

def filterNameDescription : String := "The name of the filter."

def questionDescription : String :=
  "A Question, this filter should answer. Question has to contain all important information for filter."

def operatorDescriptions : List (String × String) :=
  [("AND", "A list of conditions where all must be true (logical AND)"),
    ("OR", "A list of conditions where at least one must be true (logical OR)"),
    ("XOR", "A list of conditions where exactly one must be true (logical XOR)"),
    ("NOT", "A single condition that must not be true (logical NOT)")]

def conditionReference : Grammar := .reference "#/definitions/condition"

def operatorProperties : List (String × Grammar) :=
  operatorDescriptions.map fun operator => (operator.1, .array (some operator.2) conditionReference)

def leaf (schema : Schema) : Grammar :=
  .object none
    [("filter_name", .string filterNameDescription (some schema.filters)),
      ("question", .string questionDescription none)]
    ["filter_name", "question"] [] [] none

def wrapper : Grammar := .object none operatorProperties [] [] [] none

def condition (schema : Schema) : Grammar :=
  .object (some conditionDescription) [] [] [schema.leaf, wrapper] [] none

def root (schema : Schema) : Grammar :=
  .object (some filtersDescription) operatorProperties [] [] [("condition", schema.condition)] (some false)

def rootJson (schema : Schema) : Json := schema.root.toJson

def toJson (schema : Schema) : Json := .object [("filters", schema.rootJson)]

end Schema

end FilterPlan
