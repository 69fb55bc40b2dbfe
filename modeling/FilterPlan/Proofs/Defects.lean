import FilterPlan.Proofs.Grammar

set_option autoImplicit false

namespace FilterPlan

namespace Node

inductive Reached : Json → Json → Prop where
  | self {value : Json} : Reached value value
  | child {members : List (String × Json)} {items : List Json} {item part : Json}
      (tagged : Json.lookup "logical_operator" members = some (.string "AND") ∨
        Json.lookup "logical_operator" members = some (.string "OR"))
      (listed : Json.lookup "filter" members = some (.array items)) (inside : item ∈ items)
      (below : Reached part item) : Reached part (.object members)
  | operand {members : List (String × Json)} {value part : Json}
      (tagged : Json.lookup "logical_operator" members = some (.string "NOT"))
      (found : Json.lookup "filterA" members = some value ∨ Json.lookup "filterB" members = some value)
      (below : Reached part value) : Reached part (.object members)

-- The ways in which a value by itself is no node. `notObject` has null nodes, `operatorUnknown` has XOR, and
-- `nameless` has the form in which a schema writes operators; the others have fields that are missing or of
-- another type.
inductive Defect : Json → Prop where
  | notObject {value : Json} (shape : ∀ members, value ≠ .object members) : Defect value
  | operatorNotString {members : List (String × Json)} (tagged : Json.lookup "logical_operator" members ≠ none)
      (shape : ∀ tag, Json.lookup "logical_operator" members ≠ some (.string tag)) : Defect (.object members)
  | operatorUnknown {members : List (String × Json)} {tag : String}
      (tagged : Json.lookup "logical_operator" members = some (.string tag))
      (unknown : tag ∉ ["AND", "OR", "NOT"]) : Defect (.object members)
  | childrenNotArray {members : List (String × Json)}
      (tagged : Json.lookup "logical_operator" members = some (.string "AND") ∨
        Json.lookup "logical_operator" members = some (.string "OR"))
      (unlisted : ∀ items, Json.lookup "filter" members ≠ some (.array items)) : Defect (.object members)
  | operandMissing {members : List (String × Json)}
      (tagged : Json.lookup "logical_operator" members = some (.string "NOT"))
      (missing : Json.lookup "filterA" members = none ∨ Json.lookup "filterB" members = none) :
      Defect (.object members)
  | nameless {members : List (String × Json)} (plain : Json.lookup "logical_operator" members = none)
      (unnamed : ∀ name, Json.lookup "filter_name" members ≠ some (.string name)) : Defect (.object members)
  | instructionNotString {members : List (String × Json)} (plain : Json.lookup "logical_operator" members = none)
      (asked : Json.lookup "instruction" members ≠ none)
      (shape : ∀ text, Json.lookup "instruction" members ≠ some (.string text)) : Defect (.object members)
  | textMissing {members : List (String × Json)} (plain : Json.lookup "logical_operator" members = none)
      (absent : Json.lookup "instruction" members = none)
      (unasked : ∀ text, Json.lookup "question" members ≠ some (.string text)) : Defect (.object members)

theorem defect_spells_nothing (value : Json) (node : Node) (defect : Defect value) : ¬ Spells value node := by
  intro spelled
  cases defect with
  | notObject shape => cases spelled <;> exact shape _ rfl
  | operatorNotString tagged shape => cases spelled <;> simp_all
  | operatorUnknown tagged unknown => cases spelled <;> simp_all
  | childrenNotArray tagged unlisted => cases spelled <;> simp_all
  | operandMissing tagged missing => cases spelled <;> simp_all
  | nameless plain unnamed => cases spelled <;> simp_all
  | instructionNotString plain asked shape => cases spelled <;> simp_all
  | textMissing plain absent unasked => cases spelled <;> simp_all

theorem spells_all_mem (items : List Json) (nodes : List Node) (item : Json) (spelled : SpellsAll items nodes)
    (inside : item ∈ items) : ∃ node, Spells item node := by
  induction items generalizing nodes with
  | nil => cases inside
  | cons first items ih =>
      cases spelled with
      | cons head rest =>
          rcases List.mem_cons.mp inside with same | later
          · subst item
            exact ⟨_, head⟩
          · exact ih _ rest later

theorem reached_spells (part value : Json) (node : Node) (below : Reached part value) (spelled : Spells value node) :
    ∃ inner, Spells part inner := by
  induction below generalizing node with
  | self => exact ⟨node, spelled⟩
  | child tagged listed inside _ ih =>
      cases spelled with
      | leaf plain _ _ => simp [plain] at tagged
      | and _ held inner | or _ held inner =>
          rw [listed] at held
          cases held
          obtain ⟨node, spelled⟩ := spells_all_mem _ _ _ inner inside
          exact ih node spelled
      | not other _ _ _ _ => simp [other] at tagged
  | operand tagged found _ ih =>
      cases spelled with
      | leaf plain _ _ => simp [plain] at tagged
      | and other _ _ | or other _ _ => simp [other] at tagged
      | not _ foundA foundB innerA innerB =>
          rcases found with found | found
          · rw [foundA] at found
            cases found
            exact ih _ innerA
          · rw [foundB] at found
            cases found
            exact ih _ innerB

theorem leaf_or_defect (members : List (String × Json)) (plain : Json.lookup "logical_operator" members = none) :
    (∃ node, Spells (.object members) node) ∨ Defect (.object members) := by
  by_cases named : ∃ name, Json.lookup "filter_name" members = some (.string name)
  · obtain ⟨name, named⟩ := named
    by_cases absent : Json.lookup "instruction" members = none
    · by_cases asked : ∃ text, Json.lookup "question" members = some (.string text)
      · obtain ⟨text, asked⟩ := asked
        exact .inl ⟨_, .leaf plain named (.inr ⟨absent, asked⟩)⟩
      · exact .inr (.textMissing plain absent (not_exists.mp asked))
    · by_cases asked : ∃ text, Json.lookup "instruction" members = some (.string text)
      · obtain ⟨text, asked⟩ := asked
        exact .inl ⟨_, .leaf plain named (.inl asked)⟩
      · exact .inr (.instructionNotString plain absent (not_exists.mp asked))
  · exact .inr (.nameless plain (not_exists.mp named))

theorem connective_or_defect (members : List (String × Json)) (items : List Json)
    (tagged : Json.lookup "logical_operator" members = some (.string "AND") ∨
      Json.lookup "logical_operator" members = some (.string "OR"))
    (listed : Json.lookup "filter" members = some (.array items))
    (inner : (∃ nodes, SpellsAll items nodes) ∨ ∃ item ∈ items, ∃ part, Reached part item ∧ Defect part) :
    (∃ node, Spells (.object members) node) ∨ ∃ part, Reached part (.object members) ∧ Defect part := by
  rcases inner with ⟨nodes, spelled⟩ | ⟨item, inside, part, below, defect⟩
  · rcases tagged with conjunction | disjunction
    · exact .inl ⟨_, .and conjunction listed spelled⟩
    · exact .inl ⟨_, .or disjunction listed spelled⟩
  · exact .inr ⟨part, .child tagged listed inside below, defect⟩

theorem operator_defect (members : List (String × Json)) (tagged : Json.lookup "logical_operator" members ≠ none)
    (noAnd : Json.lookup "logical_operator" members ≠ some (.string "AND"))
    (noOr : Json.lookup "logical_operator" members ≠ some (.string "OR"))
    (noNot : Json.lookup "logical_operator" members ≠ some (.string "NOT")) : Defect (.object members) := by
  by_cases worded : ∃ tag, Json.lookup "logical_operator" members = some (.string tag)
  · obtain ⟨tag, worded⟩ := worded
    apply Defect.operatorUnknown worded
    rw [worded] at noAnd noOr noNot
    simp_all
  · exact .operatorNotString tagged (not_exists.mp worded)

-- A value that spells no node has a part that is wrong by itself. Parts are smaller than what they are part of.
mutual
theorem spelled_or_defect (value : Json) :
    (∃ node, Spells value node) ∨ ∃ part, Reached part value ∧ Defect part := by
  cases value with
  | object members =>
      by_cases plain : Json.lookup "logical_operator" members = none
      · exact (leaf_or_defect members plain).imp_right fun defect => ⟨_, .self, defect⟩
      by_cases connective : Json.lookup "logical_operator" members = some (.string "AND") ∨
          Json.lookup "logical_operator" members = some (.string "OR")
      · by_cases listed : ∃ items, Json.lookup "filter" members = some (.array items)
        · obtain ⟨items, listed⟩ := listed
          have smaller := listed_smaller _ _ _ listed
          exact connective_or_defect members items connective listed (all_spelled_or_defect items)
        · exact .inr ⟨_, .self, .childrenNotArray connective (not_exists.mp listed)⟩
      by_cases difference : Json.lookup "logical_operator" members = some (.string "NOT")
      · cases foundA : Json.lookup "filterA" members with
        | none => exact .inr ⟨_, .self, .operandMissing difference (.inl foundA)⟩
        | some valueA =>
            cases foundB : Json.lookup "filterB" members with
            | none => exact .inr ⟨_, .self, .operandMissing difference (.inr foundB)⟩
            | some valueB =>
                have smallerA := found_smaller _ _ _ foundA
                have smallerB := found_smaller _ _ _ foundB
                rcases spelled_or_defect valueA with ⟨a, spelledA⟩ | ⟨part, below, defect⟩
                · rcases spelled_or_defect valueB with ⟨b, spelledB⟩ | ⟨part, below, defect⟩
                  · exact .inl ⟨_, .not difference foundA foundB spelledA spelledB⟩
                  · exact .inr ⟨part, .operand difference (.inr foundB) below, defect⟩
                · exact .inr ⟨part, .operand difference (.inl foundA) below, defect⟩
      · obtain ⟨noAnd, noOr⟩ := not_or.mp connective
        exact .inr ⟨_, .self, operator_defect members plain noAnd noOr difference⟩
  | _ => exact .inr ⟨_, .self, .notObject (by simp)⟩
termination_by sizeOf value
decreasing_by all_goals assumption

theorem all_spelled_or_defect (items : List Json) :
    (∃ nodes, SpellsAll items nodes) ∨ ∃ item ∈ items, ∃ part, Reached part item ∧ Defect part := by
  cases items with
  | nil => exact .inl ⟨[], .nil⟩
  | cons item items =>
      rcases spelled_or_defect item with ⟨node, first⟩ | ⟨part, below, defect⟩
      · rcases all_spelled_or_defect items with ⟨nodes, rest⟩ | ⟨other, inside, found⟩
        · exact .inl ⟨_, .cons first rest⟩
        · exact .inr ⟨other, List.mem_cons_of_mem _ inside, found⟩
      · exact .inr ⟨item, List.mem_cons_self, part, below, defect⟩
termination_by sizeOf items
end

end Node

namespace Plan

-- A document is read as the plan it spells and as no other. One that has a filter is refused exactly if some part of the
-- filter, at whatever depth, is wrong by itself.
theorem documents_read (value : Json) :
    (∀ plan, ofJson value = .ok plan ↔ Spells value plan) ∧
      ∀ members root, value = .object members → Json.lookup "filter" members = some root → root ≠ .null →
        ((∃ error, ofJson value = .error error) ↔ ∃ part, Node.Reached part root ∧ Node.Defect part) := by
  refine ⟨of_json_iff value, ?_⟩
  rintro members root rfl found filled
  constructor
  · rintro ⟨error, failed⟩
    rcases Node.spelled_or_defect root with ⟨node, spelled⟩ | defect
    · rw [(of_json_iff _ _).mpr (.filtered found spelled)] at failed
      cases failed
    · exact defect
  · rintro ⟨part, below, defect⟩
    cases held : ofJson (.object members) with
    | error error => exact ⟨error, rfl⟩
    | ok plan =>
        cases (of_json_iff _ _).mp held with
        | unfiltered empty =>
            rcases empty with absent | empty
            · rw [absent] at found
              cases found
            · rw [empty] at found
              cases found
              exact absurd rfl filled
        | filtered other spelled =>
            rw [other] at found
            cases found
            obtain ⟨inner, spelled⟩ := Node.reached_spells _ _ _ below spelled
            exact absurd spelled (Node.defect_spells_nothing _ _ defect)

theorem documents_read_xor_child :
    ofJson (.object [("filter", .object [("logical_operator", .string "AND"), ("filter", .array
        [.object [("filter_name", .string "id"), ("question", .string "x"), ("note", .null)]])])]) =
        .ok (ofNode (.and [.leaf ⟨"id", "x"⟩])) ∧
      ∃ error, ofJson (.object [("filter", .object [("logical_operator", .string "AND"), ("filter", .array
        [.object [("filter_name", .string "id"), ("question", .string "x"), ("note", .null)],
          .object [("logical_operator", .string "XOR"), ("filter", .array [])]])])]) = .error error := by
  constructor
  · apply ((documents_read _).1 _).mpr
    exact .filtered rfl (.and rfl rfl (.cons (.leaf rfl rfl (.inr ⟨rfl, rfl⟩)) .nil))
  · apply ((documents_read _).2 _ _ rfl rfl (by simp)).mpr
    refine ⟨.object [("logical_operator", .string "XOR"), ("filter", .array [])], ?_, ?_⟩
    · exact .child (.inl rfl) rfl (List.mem_cons_of_mem _ List.mem_cons_self) .self
    · exact .operatorUnknown rfl (by decide)

end Plan

end FilterPlan
