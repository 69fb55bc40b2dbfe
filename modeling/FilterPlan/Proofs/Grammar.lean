import FilterPlan.Plan.Document

set_option autoImplicit false

namespace FilterPlan

-- The grammar of plan documents. The keys are written out, and a node has no key but those named here.

mutual
inductive Node.Spells : Json → Node → Prop where
  | leaf {members : List (String × Json)} {name text : String}
      (plain : Json.lookup "logical_operator" members = none)
      (named : Json.lookup "filter_name" members = some (.string name))
      (asked : Json.lookup "instruction" members = some (.string text) ∨
        Json.lookup "instruction" members = none ∧ Json.lookup "question" members = some (.string text)) :
      Spells (.object members) (.leaf ⟨name, text⟩)
  | and {members : List (String × Json)} {items : List Json} {children : List Node}
      (tagged : Json.lookup "logical_operator" members = some (.string "AND"))
      (listed : Json.lookup "filter" members = some (.array items)) (inner : SpellsAll items children) :
      Spells (.object members) (.and children)
  | or {members : List (String × Json)} {items : List Json} {children : List Node}
      (tagged : Json.lookup "logical_operator" members = some (.string "OR"))
      (listed : Json.lookup "filter" members = some (.array items)) (inner : SpellsAll items children) :
      Spells (.object members) (.or children)
  | not {members : List (String × Json)} {valueA valueB : Json} {a b : Node}
      (tagged : Json.lookup "logical_operator" members = some (.string "NOT"))
      (foundA : Json.lookup "filterA" members = some valueA) (foundB : Json.lookup "filterB" members = some valueB)
      (innerA : Spells valueA a) (innerB : Spells valueB b) : Spells (.object members) (.not a b)

inductive Node.SpellsAll : List Json → List Node → Prop where
  | nil : SpellsAll [] []
  | cons {item : Json} {items : List Json} {node : Node} {nodes : List Node} (first : Spells item node)
      (rest : SpellsAll items nodes) : SpellsAll (item :: items) (node :: nodes)
end

inductive Plan.Spells : Json → Plan → Prop where
  | unfiltered {members : List (String × Json)}
      (empty : Json.lookup "filter" members = none ∨ Json.lookup "filter" members = some .null) :
      Spells (.object members) Plan.unfiltered
  | filtered {members : List (String × Json)} {value : Json} {root : Node}
      (found : Json.lookup "filter" members = some value) (inner : Node.Spells value root) :
      Spells (.object members) (Plan.ofNode root)

theorem Operator.of_tag_iff (operator : Operator) (tag : String) :
    Operator.ofTag? tag = some operator ↔ tag = operator.tag := by
  unfold Operator.ofTag?
  constructor
  · intro held
    split at held
    · cases held
      assumption
    · split at held
      · cases held
        assumption
      · split at held
        · cases held
          assumption
        · cases held
  · rintro rfl
    cases operator <;> decide

namespace Node

def readChildren (location : Location) (operator : Operator) (connect : List Node → Node) :
    Option Json → Except PlanError Node
  | some (.array items) => (readAll location 0 items).map connect
  | some _ => .error (.malformedNode location (.childrenNotArray operator))
  | none => .error (.malformedNode location (.childrenMissing operator))

def readOperand (location : Location) (side : Side) : Option Json → Except PlanError Node
  | some value => read (.operand side :: location) value
  | none => .error (.malformedNode location (.operandMissing side))

def readTagged (location : Location) (members : List (String × Json)) (tag : String) : Except PlanError Node :=
  match Operator.ofTag? tag with
  | none => .error (.unsupportedOperator location tag)
  | some .and => readChildren location .and .and (Json.lookup filterKey members)
  | some .or => readChildren location .or .or (Json.lookup filterKey members)
  | some .not =>
      match readOperand location .a (Json.lookup (Side.key .a) members) with
      | .error error => .error error
      | .ok a => (readOperand location .b (Json.lookup (Side.key .b) members)).map (.not a)

theorem read_object (location : Location) (members : List (String × Json)) :
    read location (.object members) =
      match Json.lookup operatorKey members with
      | none => readLeaf location members
      | some (.string tag) => readTagged location members tag
      | some _ => .error (.malformedNode location .operatorNotString) := by
  rw [read]
  cases Json.lookup operatorKey members with
  | none => rfl
  | some value =>
      cases value with
      | string tag =>
          simp only [readTagged]
          cases Operator.ofTag? tag with
          | none => rfl
          | some operator =>
              cases operator with
              | and | or =>
                  simp only
                  split
                  · rename_i items found
                    rw [found, readChildren]
                  · rename_i other found
                    rw [found, readChildren]
                    assumption
                  · rename_i absent
                    rw [absent, readChildren]
              | not =>
                  simp only
                  split
                  · rename_i absent
                    rw [absent]
                    rfl
                  · rename_i valueA foundA
                    rw [foundA, readOperand]
                    cases read (.operand .a :: location) valueA with
                    | error error => rfl
                    | ok a =>
                        simp only
                        split
                        · rename_i absent
                          rw [absent]
                          rfl
                        · rename_i valueB foundB
                          rw [foundB]
                          rfl
      | _ => rfl

theorem read_not_object (location : Location) (value : Json) (shape : ∀ members, value ≠ .object members) :
    read location value = .error (.malformedNode location .nodeNotObject) := by
  cases value with
  | object members => exact absurd rfl (shape members)
  | _ => rw [read]; simp

theorem read_leaf_iff (location : Location) (members : List (String × Json)) (node : Node) :
    readLeaf location members = .ok node ↔
      ∃ name text, Json.lookup "filter_name" members = some (.string name) ∧
        (Json.lookup "instruction" members = some (.string text) ∨
          Json.lookup "instruction" members = none ∧ Json.lookup "question" members = some (.string text)) ∧
        node = .leaf ⟨name, text⟩ := by
  unfold readLeaf filterNameKey instructionKey questionKey
  constructor
  · intro held
    split at held
    · rename_i name named
      split at held
      · rename_i text asked
        cases held
        exact ⟨name, text, named, Option.or_eq_some_iff.mp asked, rfl⟩
      · cases held
      · cases held
    · cases held
    · split at held <;> cases held
  · rintro ⟨name, text, named, asked, rfl⟩
    rw [named]
    simp only
    rw [Option.or_eq_some_iff.mpr asked]

theorem read_children_iff (location : Location) (operator : Operator) (connect : List Node → Node)
    (found : Option Json) (node : Node) :
    readChildren location operator connect found = .ok node ↔
      ∃ items children, found = some (.array items) ∧ readAll location 0 items = .ok children ∧
        node = connect children := by
  constructor
  · intro held
    unfold readChildren at held
    split at held
    · rename_i items
      cases inner : readAll location 0 items with
      | error error =>
          rw [inner] at held
          cases held
      | ok children =>
          rw [inner] at held
          cases held
          exact ⟨items, children, rfl, inner, rfl⟩
    · cases held
    · cases held
  · rintro ⟨items, children, rfl, inner, rfl⟩
    rw [readChildren, inner]
    rfl

theorem read_operand_iff (location : Location) (side : Side) (found : Option Json) (node : Node) :
    readOperand location side found = .ok node ↔
      ∃ value, found = some value ∧ read (.operand side :: location) value = .ok node := by
  cases found with
  | none => simp [readOperand]
  | some value => simp [readOperand]

theorem read_tagged (location : Location) (members : List (String × Json)) (operator : Operator) :
    readTagged location members operator.tag =
      match operator with
      | .and => readChildren location .and .and (Json.lookup "filter" members)
      | .or => readChildren location .or .or (Json.lookup "filter" members)
      | .not =>
          match readOperand location .a (Json.lookup "filterA" members) with
          | .error error => .error error
          | .ok a => (readOperand location .b (Json.lookup "filterB" members)).map (.not a) := by
  have keyA : Side.key .a = "filterA" := by decide
  have keyB : Side.key .b = "filterB" := by decide
  rw [readTagged, (Operator.of_tag_iff operator operator.tag).mpr rfl, keyA, keyB]
  cases operator <;> rfl

theorem read_and (location : Location) (members : List (String × Json))
    (tagged : Json.lookup "logical_operator" members = some (.string "AND")) :
    read location (.object members) = readChildren location .and .and (Json.lookup "filter" members) := by
  rw [read_object, operatorKey, tagged]
  exact read_tagged location members .and

theorem read_or (location : Location) (members : List (String × Json))
    (tagged : Json.lookup "logical_operator" members = some (.string "OR")) :
    read location (.object members) = readChildren location .or .or (Json.lookup "filter" members) := by
  rw [read_object, operatorKey, tagged]
  exact read_tagged location members .or

theorem read_connective (location : Location) (members : List (String × Json)) (operator : Operator)
    (connective : operator ≠ .not) (tagged : Json.lookup "logical_operator" members = some (.string operator.tag)) :
    ∃ connect, read location (.object members) =
      readChildren location operator connect (Json.lookup "filter" members) := by
  cases operator with
  | and => exact ⟨.and, read_and location members tagged⟩
  | or => exact ⟨.or, read_or location members tagged⟩
  | not => exact absurd rfl connective

theorem read_not (location : Location) (members : List (String × Json))
    (tagged : Json.lookup "logical_operator" members = some (.string "NOT")) :
    read location (.object members) =
      match readOperand location .a (Json.lookup "filterA" members) with
      | .error error => .error error
      | .ok a => (readOperand location .b (Json.lookup "filterB" members)).map (.not a) := by
  rw [read_object, operatorKey, tagged]
  exact read_tagged location members .not

theorem read_plain (location : Location) (members : List (String × Json))
    (plain : Json.lookup "logical_operator" members = none) :
    read location (.object members) = readLeaf location members := by
  rw [read_object, operatorKey, plain]

theorem read_not_iff (location : Location) (members : List (String × Json)) (node : Node)
    (tagged : Json.lookup "logical_operator" members = some (.string "NOT")) :
    read location (.object members) = .ok node ↔
      ∃ valueA valueB a b, Json.lookup "filterA" members = some valueA ∧
        Json.lookup "filterB" members = some valueB ∧ read (.operand .a :: location) valueA = .ok a ∧
        read (.operand .b :: location) valueB = .ok b ∧ node = .not a b := by
  rw [read_not location members tagged]
  constructor
  · intro held
    cases readA : readOperand location .a (Json.lookup "filterA" members) with
    | error error =>
        rw [readA] at held
        cases held
    | ok a =>
        rw [readA] at held
        cases readB : readOperand location .b (Json.lookup "filterB" members) with
        | error error =>
            rw [readB] at held
            cases held
        | ok b =>
            rw [readB] at held
            cases held
            obtain ⟨valueA, foundA, innerA⟩ := (read_operand_iff _ _ _ _).mp readA
            obtain ⟨valueB, foundB, innerB⟩ := (read_operand_iff _ _ _ _).mp readB
            exact ⟨valueA, valueB, a, b, foundA, foundB, innerA, innerB, rfl⟩
  · rintro ⟨valueA, valueB, a, b, foundA, foundB, innerA, innerB, rfl⟩
    rw [foundA, foundB, readOperand, innerA, readOperand, innerB]
    rfl

mutual
theorem read_spelled (location : Location) : (value : Json) → (node : Node) → (spelled : Spells value node) →
    read location value = .ok node
  | _, _, .leaf plain named asked => by
      rw [read_plain _ _ plain]
      exact (read_leaf_iff _ _ _).mpr ⟨_, _, named, asked, rfl⟩
  | _, _, .and tagged listed inner => by
      rw [read_and _ _ tagged, listed]
      exact (read_children_iff _ _ _ _ _).mpr ⟨_, _, rfl, read_all_spelled location 0 _ _ inner, rfl⟩
  | _, _, .or tagged listed inner => by
      rw [read_or _ _ tagged, listed]
      exact (read_children_iff _ _ _ _ _).mpr ⟨_, _, rfl, read_all_spelled location 0 _ _ inner, rfl⟩
  | _, _, .not tagged foundA foundB innerA innerB => by
      apply (read_not_iff _ _ _ tagged).mpr
      exact ⟨_, _, _, _, foundA, foundB, read_spelled _ _ _ innerA, read_spelled _ _ _ innerB, rfl⟩

theorem read_all_spelled (location : Location) (index : Nat) : (items : List Json) → (nodes : List Node) →
    (spelled : SpellsAll items nodes) → readAll location index items = .ok nodes
  | _, _, .nil => by rw [readAll]
  | _, _, .cons first rest => by
      rw [readAll, read_spelled _ _ _ first, read_all_spelled location (index + 1) _ _ rest]
      rfl
end

-- What is read is spelled. A child is smaller than the node it is found in, which carries the induction.

theorem found_smaller (key : String) (members : List (String × Json)) (value : Json)
    (found : Json.lookup key members = some value) : sizeOf value < sizeOf (Json.object members) := by
  have smaller := Json.lookup_smaller key members value found
  rw [Json.object.sizeOf_spec]
  omega

theorem listed_smaller (key : String) (members : List (String × Json)) (items : List Json)
    (listed : Json.lookup key members = some (.array items)) : sizeOf items < sizeOf (Json.object members) := by
  have smaller := found_smaller key members (.array items) listed
  rw [Json.array.sizeOf_spec] at smaller
  omega

mutual
theorem read_sound (location : Location) (value : Json) (node : Node) (held : read location value = .ok node) :
    Spells value node := by
  cases shape : value with
  | object members =>
      rw [shape] at held
      cases tagged : Json.lookup "logical_operator" members with
      | none =>
          rw [read_plain _ _ tagged] at held
          obtain ⟨name, text, named, asked, rfl⟩ := (read_leaf_iff _ _ _).mp held
          exact .leaf tagged named asked
      | some found =>
          cases found with
          | string tag =>
              cases named : Operator.ofTag? tag with
              | none =>
                  rw [read_object, operatorKey, tagged] at held
                  simp only [readTagged, named] at held
                  cases held
              | some operator =>
                  obtain rfl := (Operator.of_tag_iff operator tag).mp named
                  cases operator with
                  | and =>
                      rw [read_and _ _ tagged] at held
                      obtain ⟨items, children, listed, inner, rfl⟩ := (read_children_iff _ _ _ _ _).mp held
                      have smaller : sizeOf items < sizeOf value := shape ▸ listed_smaller _ _ _ listed
                      exact .and tagged listed (read_all_sound location 0 items children inner)
                  | or =>
                      rw [read_or _ _ tagged] at held
                      obtain ⟨items, children, listed, inner, rfl⟩ := (read_children_iff _ _ _ _ _).mp held
                      have smaller : sizeOf items < sizeOf value := shape ▸ listed_smaller _ _ _ listed
                      exact .or tagged listed (read_all_sound location 0 items children inner)
                  | not =>
                      obtain ⟨valueA, valueB, a, b, foundA, foundB, innerA, innerB, rfl⟩ :=
                        (read_not_iff _ _ _ tagged).mp held
                      have smallerA : sizeOf valueA < sizeOf value := shape ▸ found_smaller _ _ _ foundA
                      have smallerB : sizeOf valueB < sizeOf value := shape ▸ found_smaller _ _ _ foundB
                      exact .not tagged foundA foundB (read_sound _ valueA a innerA) (read_sound _ valueB b innerB)
          | _ =>
              rw [read_object, operatorKey, tagged] at held
              cases held
  | _ =>
      rw [shape, read_not_object _ _ (by simp)] at held
      cases held
termination_by sizeOf value

theorem read_all_sound (location : Location) (index : Nat) (items : List Json) (nodes : List Node)
    (held : readAll location index items = .ok nodes) : SpellsAll items nodes := by
  cases items with
  | nil =>
      rw [readAll] at held
      cases held
      exact .nil
  | cons item items =>
      rw [readAll] at held
      cases first : read (.item index :: location) item with
      | error error =>
          rw [first] at held
          cases held
      | ok node =>
          rw [first] at held
          cases rest : readAll location (index + 1) items with
          | error error =>
              rw [rest] at held
              cases held
          | ok others =>
              rw [rest] at held
              cases held
              exact .cons (read_sound _ item node first) (read_all_sound location (index + 1) items others rest)
termination_by sizeOf items
end

theorem read_iff (location : Location) (value : Json) (node : Node) :
    read location value = .ok node ↔ Spells value node :=
  ⟨read_sound location value node, read_spelled location value node⟩

end Node

namespace Plan

theorem of_json_iff (value : Json) (plan : Plan) : ofJson value = .ok plan ↔ Spells value plan := by
  constructor
  · intro held
    cases value with
    | object members =>
        unfold ofJson filterKey at held
        simp only at held
        split at held
        · rename_i absent
          cases held
          exact .unfiltered (.inl absent)
        · rename_i empty
          cases held
          exact .unfiltered (.inr empty)
        · rename_i root _ found
          cases inner : Node.read [.filter] root with
          | error error =>
              rw [inner] at held
              cases held
          | ok node =>
              rw [inner] at held
              cases held
              exact .filtered found ((Node.read_iff _ _ _).mp inner)
    | _ => cases held
  · intro spelled
    cases spelled with
    | unfiltered empty =>
        rcases empty with absent | empty
        · simp [ofJson, filterKey, absent]
        · simp [ofJson, filterKey, empty]
    | @filtered members root node found inner =>
        have held := (Node.read_iff [.filter] root node).mpr inner
        unfold ofJson filterKey
        simp only [found]
        cases root with
        | null => cases inner
        | _ =>
            simp only
            rw [held]
            rfl

end Plan

end FilterPlan
