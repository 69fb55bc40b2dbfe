import FilterPlan.Proofs.Grammar
import FilterPlan.Proofs.JsonText

set_option autoImplicit false

namespace FilterPlan

-- How deep the document of a plan nests. The children of an AND or OR stand in an array inside its object, the
-- operands of a NOT in the object itself.

mutual
def Node.nesting : Node → Nat
  | .leaf _ => 1
  | .and children => 2 + Node.nestings children
  | .or children => 2 + Node.nestings children
  | .not a b => 1 + max (Node.nesting a) (Node.nesting b)

def Node.nestings : List Node → Nat
  | [] => 0
  | node :: rest => max (Node.nesting node) (Node.nestings rest)
end

def Plan.nesting (plan : Plan) : Nat :=
  match plan.root with
  | none => 1
  | some root => 1 + root.nesting

namespace Node

mutual
theorem json_nesting : (node : Node) → node.toJson.depth = node.nesting
  | .leaf found => by simp [toJson, Json.depth, Json.depthMembers, nesting]
  | .and children | .or children => by
      rw [toJson, nesting, ← json_nestings children]
      simp [Json.depth, Json.depthMembers]
      omega
  | .not a b => by
      rw [toJson, nesting, ← json_nesting a, ← json_nesting b]
      simp [Json.depth, Json.depthMembers]

theorem json_nestings : (nodes : List Node) → Json.depthItems (toJsonAll nodes) = nestings nodes
  | [] => rfl
  | node :: rest => by rw [toJsonAll, Json.depthItems, nestings, json_nesting node, json_nestings rest]
end

mutual
theorem json_numberless : (node : Node) → node.toJson.Numberless
  | .leaf _ => ⟨trivial, trivial, trivial⟩
  | .and children | .or children => ⟨trivial, json_all_numberless children, trivial⟩
  | .not a b => ⟨trivial, json_numberless a, json_numberless b, trivial⟩

theorem json_all_numberless : (nodes : List Node) → Json.NumberlessItems (toJsonAll nodes)
  | [] => trivial
  | node :: rest => ⟨json_numberless node, json_all_numberless rest⟩
end

mutual
theorem json_spells : (node : Node) → Spells node.toJson node
  | .leaf _ => .leaf rfl rfl (.inl rfl)
  | .and children => .and rfl rfl (json_all_spells children)
  | .or children => .or rfl rfl (json_all_spells children)
  | .not a b => .not rfl rfl rfl (json_spells a) (json_spells b)

theorem json_all_spells : (nodes : List Node) → SpellsAll (toJsonAll nodes) nodes
  | [] => .nil
  | node :: rest => .cons (json_spells node) (json_all_spells rest)
end

end Node

namespace Plan

theorem json_nesting (plan : Plan) : plan.toJson.depth = plan.nesting := by
  obtain ⟨root⟩ := plan
  cases root with
  | none => rfl
  | some root => simp [toJson, nesting, Json.depth, Json.depthMembers, Node.json_nesting]

theorem json_numberless (plan : Plan) : plan.toJson.Numberless := by
  obtain ⟨root⟩ := plan
  cases root with
  | none => exact ⟨trivial, trivial⟩
  | some root => exact ⟨root.json_numberless, trivial⟩

theorem json_spells (plan : Plan) : Spells plan.toJson plan := by
  obtain ⟨root⟩ := plan
  cases root with
  | none => exact .unfiltered (.inr rfl)
  | some root => exact .filtered rfl root.json_spells

-- A plan is read back from its document, and from the text of the document if no more than 127 arrays and objects stand
-- inside one another there.
theorem document_round_trip (plan : Plan) :
    ofJson plan.toJson = .ok plan ∧ plan.toJson.depth = plan.nesting ∧
      ofText plan.text = if plan.nesting ≤ 127 then .ok plan else .error (.notJson .nestedTooDeep) := by
  have read := (of_json_iff plan.toJson plan).mpr plan.json_spells
  refine ⟨read, plan.json_nesting, ?_⟩
  rw [ofText, text, Json.read_compact nestingLimit plan.toJson plan.json_numberless, plan.json_nesting, nestingLimit]
  by_cases within : plan.nesting ≤ 127
  · rw [if_pos within, if_pos within]
    exact read
  · rw [if_neg within, if_neg within]

example : (ofNode (.and [.not (.leaf ⟨"f", "x"⟩) (.or [])])).nesting = 6 := by decide

end Plan

end FilterPlan
