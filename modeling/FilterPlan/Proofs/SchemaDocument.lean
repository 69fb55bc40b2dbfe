import FilterPlan.Proofs.PrettyText
import FilterPlan.Schema

set_option autoImplicit false

namespace FilterPlan

namespace Json

-- One step into a value: to a member of an object, or to an item of an array.
inductive Move where
  | member (key : String)
  | item (index : Nat)

def at? : Json → List Move → Option Json
  | value, [] => some value
  | .object members, .member key :: moves => (lookup key members).bind fun value => value.at? moves
  | .array items, .item index :: moves => items[index]?.bind fun value => value.at? moves
  | _, _ :: _ => none

def put : Json → List Move → Json → Json
  | _, [], new => new
  | .object members, .member key :: moves, new =>
      .object (members.map fun member => if member.1 = key then (key, member.2.put moves new) else member)
  | .array items, .item index :: moves, new => .array (items.modify index fun value => value.put moves new)
  | value, _ :: _, _ => value

theorem numberless_append (before after : List (String × Json)) (first : NumberlessMembers before)
    (last : NumberlessMembers after) : NumberlessMembers (before ++ after) := by
  induction before with
  | nil => exact last
  | cons member before ih => exact ⟨first.1, ih first.2⟩

theorem texts_numberless {α : Type} (text : α → String) (values : List α) :
    NumberlessItems (values.map fun value => .string (text value)) := by
  induction values with
  | nil => trivial
  | cons value values ih => exact ⟨trivial, ih⟩

theorem texts_depth {α : Type} (text : α → String) (values : List α) :
    depthItems (values.map fun value => .string (text value)) = 0 := by
  induction values with
  | nil => rfl
  | cons value values ih =>
      rw [List.map_cons, depthItems, ih]
      rfl

def texts? : Json → Option (List String)
  | .array items => items.mapM string?
  | _ => none

theorem texts_read {α : Type} (text : α → String) (values : List α) :
    (array (values.map fun value => .string (text value))).texts? = some (values.map text) := by
  rw [texts?]
  induction values with
  | nil => rfl
  | cons value values ih =>
      rw [List.map_cons, List.mapM_cons, ih]
      rfl

end Json

namespace Grammar

theorem describe_numberless (description : Option String) : Json.NumberlessMembers (describe description) := by
  cases description with
  | none => trivial
  | some text => exact ⟨trivial, trivial⟩

theorem unless_empty_numberless {α : Type} (key : String) (listed : List α) (value : Json)
    (numberless : value.Numberless) : Json.NumberlessMembers (unlessEmpty key listed value) := by
  cases listed with
  | nil => trivial
  | cons first rest => exact ⟨numberless, trivial⟩

theorem offer_numberless (choices : Option (List FilterDescriptor)) : Json.NumberlessMembers (offer choices) := by
  cases choices with
  | none => trivial
  | some choices =>
      exact ⟨Json.texts_numberless FilterDescriptor.name choices,
        Json.texts_numberless FilterDescriptor.description choices, trivial⟩

theorem close_numberless (allowed : Option Bool) : Json.NumberlessMembers (close allowed) := by
  cases allowed with
  | none => trivial
  | some allowed => exact ⟨trivial, trivial⟩

mutual
theorem json_numberless : (grammar : Grammar) → grammar.toJson.Numberless
  | .object description properties required oneOf definitions additionalProperties => by
      have texts := unless_empty_numberless "required" required (.array (required.map .string))
        (Json.texts_numberless id required)
      have inner := unless_empty_numberless "properties" properties (.object (toMembers properties))
        (members_numberless properties)
      have shapes := unless_empty_numberless "oneOf" oneOf (.array (toItems oneOf)) (items_numberless oneOf)
      have named := unless_empty_numberless "definitions" definitions (.object (toMembers definitions))
        (members_numberless definitions)
      have last := close_numberless additionalProperties
      exact Json.numberless_append _ _ (describe_numberless description) ⟨trivial,
        Json.numberless_append _ _ (Json.numberless_append _ _ (Json.numberless_append _ _
          (Json.numberless_append _ _ inner texts) shapes) named) last⟩
  | .array description items =>
      Json.numberless_append _ _ (describe_numberless description) ⟨trivial, json_numberless items, trivial⟩
  | .string _ choices => ⟨trivial, trivial, offer_numberless choices⟩
  | .reference _ => ⟨trivial, trivial⟩

theorem items_numberless : (items : List Grammar) → Json.NumberlessItems (toItems items)
  | [] => trivial
  | item :: rest => ⟨json_numberless item, items_numberless rest⟩

theorem members_numberless : (members : List (String × Grammar)) → Json.NumberlessMembers (toMembers members)
  | [] => trivial
  | (_, value) :: rest => ⟨json_numberless value, members_numberless rest⟩
end

end Grammar

namespace Schema

theorem json_numberless (schema : Schema) : schema.toJson.Numberless := ⟨schema.root.json_numberless, trivial⟩

theorem json_depth (schema : Schema) : schema.toJson.depth = 9 := by
  simp [toJson, rootJson, root, condition, leaf, wrapper, operatorProperties, operatorDescriptions, conditionReference,
    Grammar.toJson, Grammar.toItems, Grammar.toMembers, Grammar.describe, Grammar.unlessEmpty, Grammar.offer,
    Grammar.close, Json.depth, Json.depthMembers, Json.depthItems, Json.texts_depth]

def choices : List Json.Move :=
  [.member "filters", .member "definitions", .member "condition", .member "oneOf", .item 0, .member "properties",
    .member "filter_name"]

def namesPlace : List Json.Move := choices ++ [.member "enum"]

def descriptionsPlace : List Json.Move := choices ++ [.member "enumDescriptions"]

def namesJson (schema : Schema) : Json := .array (schema.filters.map fun descriptor => .string descriptor.name)

def descriptionsJson (schema : Schema) : Json :=
  .array (schema.filters.map fun descriptor => .string descriptor.description)

theorem names_at (schema : Schema) : schema.toJson.at? namesPlace = some schema.namesJson := rfl

theorem descriptions_at (schema : Schema) : schema.toJson.at? descriptionsPlace = some schema.descriptionsJson := rfl

theorem document_changed (schema other : Schema) :
    (schema.toJson.put namesPlace other.namesJson).put descriptionsPlace other.descriptionsJson = other.toJson := rfl

def ofJson? (document : Json) : Option Schema := do
  let names ← (← document.at? namesPlace).texts?
  let descriptions ← (← document.at? descriptionsPlace).texts?
  return ⟨List.zipWith FilterDescriptor.mk names descriptions⟩

theorem document_read (schema : Schema) : ofJson? schema.toJson = some schema := by
  have paired : List.zipWith FilterDescriptor.mk (schema.filters.map FilterDescriptor.name)
      (schema.filters.map FilterDescriptor.description) = schema.filters := by
    simp [List.zipWith_map]
  have names : schema.namesJson.texts? = some (schema.filters.map FilterDescriptor.name) :=
    Json.texts_read FilterDescriptor.name schema.filters
  have descriptions : schema.descriptionsJson.texts? = some (schema.filters.map FilterDescriptor.description) :=
    Json.texts_read FilterDescriptor.description schema.filters
  simp [ofJson?, names_at, descriptions_at, names, descriptions, paired]

def ofText? (text : String) : Option Schema :=
  match Json.read 127 text with
  | .ok document => ofJson? document
  | .error _ => none

theorem pretty_read (schema : Schema) (limit : Nat) : Json.read limit schema.toJson.pretty =
    if 9 ≤ limit then .ok schema.toJson else .error .nestedTooDeep := by
  rw [Json.read_pretty limit schema.toJson schema.json_numberless, schema.json_depth]

theorem compact_read (schema : Schema) (limit : Nat) : Json.read limit schema.toJson.compact =
    if 9 ≤ limit then .ok schema.toJson else .error .nestedTooDeep := by
  rw [Json.read_compact limit schema.toJson schema.json_numberless, schema.json_depth]

theorem pretty_text (schema : Schema) : ofText? schema.toJson.pretty = some schema := by
  rw [ofText?, pretty_read]
  exact schema.document_read

theorem compact_text (schema : Schema) : ofText? schema.toJson.compact = some schema := by
  rw [ofText?, compact_read]
  exact schema.document_read

theorem text_same (write : Json → String) (readable : ∀ schema : Schema, ofText? (write schema.toJson) = some schema)
    (schema other : Schema) : write schema.toJson = write other.toJson ↔ schema = other := by
  constructor
  · intro same
    have read := congrArg ofText? same
    rw [readable schema, readable other] at read
    exact Option.some.inj read
  · intro same
    rw [same]

theorem contains_listed (schema : Schema) (name : String) : schema.contains name = true ↔
    ∃ names, schema.toJson.at? namesPlace = some (.array names) ∧ .string name ∈ names := by
  rw [names_at, namesJson, contains]
  simp

-- A generator gets the same document from both texts, and can tell from it which filters it may use and in which order:
-- the two lists in the shape of a leaf hold all that a schema is made of, and nothing else in the document tells one
-- schema from another.
theorem document_lossless (schema other : Schema) (name : String) (limit : Nat) :
    let document := schema.toJson
    (Json.read limit document.pretty = if 9 ≤ limit then .ok document else .error .nestedTooDeep) ∧
      (Json.read limit document.compact = if 9 ≤ limit then .ok document else .error .nestedTooDeep) ∧
      document.at? namesPlace = some (.array (schema.filters.map fun descriptor => .string descriptor.name)) ∧
      document.at? descriptionsPlace =
        some (.array (schema.filters.map fun descriptor => .string descriptor.description)) ∧
      ofText? document.pretty = some schema ∧ ofText? document.compact = some schema ∧
      (document.pretty = other.toJson.pretty ↔ schema = other) ∧
      (document.compact = other.toJson.compact ↔ schema = other) ∧
      (schema.contains name = true ↔
        ∃ names, document.at? namesPlace = some (.array names) ∧ .string name ∈ names) ∧
      (document.put namesPlace other.namesJson).put descriptionsPlace other.descriptionsJson = other.toJson := by
  intro document
  exact ⟨schema.pretty_read limit, schema.compact_read limit, schema.names_at, schema.descriptions_at,
    schema.pretty_text, schema.compact_text, text_same Json.pretty pretty_text schema other,
    text_same Json.compact compact_text schema other, schema.contains_listed name, schema.document_changed other⟩

end Schema

end FilterPlan
