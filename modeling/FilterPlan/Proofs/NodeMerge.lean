import FilterPlan.Proofs.Merge
import FilterPlan.Proofs.Results

set_option autoImplicit false

namespace FilterPlan

namespace Merge

theorem entry_values_ok (policy : MissingOperandPolicy) (above : Path) (forest : ResultForest) :
    (∃ values, entryValues policy above forest = .ok values) ↔ ∀ key child, (key, child) ∈ forest.pairs →
      ∃ value, entryValue policy (above ++ [key]) key.kind child = .ok value := by
  cases forest with
  | nil => simp [entryValues, ResultForest.pairs]
  | cons key child forest =>
      constructor
      · rintro ⟨values, merged⟩ other tree inside
        obtain ⟨value, rest, here, later, _⟩ := (entry_values_cons policy above key child forest values).mp merged
        rcases List.mem_cons.mp inside with same | inside
        · obtain ⟨rfl, rfl⟩ := Prod.mk.inj same
          exact ⟨value, here⟩
        · exact (entry_values_ok policy above forest).mp ⟨rest, later⟩ other tree inside
      · intro merges
        obtain ⟨value, here⟩ := merges key child (by simp [ResultForest.pairs])
        obtain ⟨rest, later⟩ := (entry_values_ok policy above forest).mpr fun other tree inside =>
          merges other tree (by simp [ResultForest.pairs, inside])
        exact ⟨value :: rest, (entry_values_cons policy above key child forest _).mpr ⟨value, rest, here, later, rfl⟩⟩

theorem entry_values_listed (policy : MissingOperandPolicy) (above : Path) (forest : ResultForest)
    (values : List IdentitySet) (merged : entryValues policy above forest = .ok values) (value : IdentitySet) :
    value ∈ values ↔
      ∃ key child, (key, child) ∈ forest.pairs ∧ entryValue policy (above ++ [key]) key.kind child = .ok value := by
  cases forest with
  | nil =>
      simp only [entryValues, Except.ok.injEq] at merged
      simp [← merged, ResultForest.pairs]
  | cons key child forest =>
      obtain ⟨first, rest, here, later, rfl⟩ := (entry_values_cons policy above key child forest values).mp merged
      rw [List.mem_cons, entry_values_listed policy above forest rest later value]
      constructor
      · rintro (same | ⟨other, tree, inside, below⟩)
        · exact ⟨key, child, by simp [ResultForest.pairs], same ▸ here⟩
        · exact ⟨other, tree, by simp [ResultForest.pairs, inside], below⟩
      · rintro ⟨other, tree, inside, below⟩
        rcases List.mem_cons.mp inside with same | inside
        · obtain ⟨rfl, rfl⟩ := Prod.mk.inj same
          rw [here] at below
          exact Or.inl (Except.ok.inj below).symm
        · exact Or.inr ⟨other, tree, inside, below⟩

theorem entry_values_error (policy : MissingOperandPolicy) (above : Path) (forest : ResultForest) (error : MergeError)
    (failed : entryValues policy above forest = .error error) :
    ∃ key child, (key, child) ∈ forest.pairs ∧
      entryValue policy (above ++ [key]) key.kind child = .error error := by
  cases forest with
  | nil => simp [entryValues] at failed
  | cons key child forest =>
      rw [entryValues] at failed
      cases here : entryValue policy (above ++ [key]) key.kind child with
      | error first =>
          have same : first = error := by simpa [here, bind, Except.bind] using failed
          exact ⟨key, child, by simp [ResultForest.pairs], same ▸ here⟩
      | ok value =>
          cases later : entryValues policy above forest with
          | ok rest => simp [here, later, bind, Except.bind, pure, Except.pure] at failed
          | error second =>
              have same : second = error := by simpa [here, later, bind, Except.bind] using failed
              obtain ⟨other, tree, inside, below⟩ := entry_values_error policy above forest second later
              exact ⟨other, tree, by simp [ResultForest.pairs, inside], same ▸ below⟩

theorem entry_values_agree (policy other : MissingOperandPolicy) (above : Path) (forest : ResultForest)
    (agree : ∀ key child, (key, child) ∈ forest.pairs →
      entryValue policy (above ++ [key]) key.kind child = entryValue other (above ++ [key]) key.kind child) :
    entryValues policy above forest = entryValues other above forest := by
  cases forest with
  | nil => rfl
  | cons key child forest =>
      rw [entryValues, entryValues, agree key child (by simp [ResultForest.pairs]),
        entry_values_agree policy other above forest fun key child inside =>
          agree key child (by simp [ResultForest.pairs, inside])]

-- A branch with results below one key only is merged through that key.
theorem first_single (forest : ResultForest) (results : List Stored) (key : Segment)
    (recorded : forest.Records (results.map (underKeys [key]))) :
    (results = [] ∧ ∀ policy above, firstValue policy above forest = .ok .empty) ∨
      ∃ child, child.Records results ∧
        ∀ policy above, firstValue policy above forest = entryValue policy (above ++ [key]) key.kind child := by
  rcases records_single forest results key recorded with ⟨nothing, isNil⟩ | ⟨child, isSingle, below⟩
  · refine Or.inl ⟨nothing, fun policy above => ?_⟩
    rw [isNil, firstValue]
  · refine Or.inr ⟨child, below, fun policy above => ?_⟩
    rw [isSingle, firstValue]

variable (rows : PlacedLeaf → Option IdentitySet)

theorem sibling_found (node : Node) (children : List Node) (isSiblings : node.slots = Node.siblingSlots [] children)
    (forest : ResultForest) (recorded : forest.Records (node.results rows)) (slot : Node.Slot)
    (inside : slot ∈ node.slots) :
    slot.results rows = [] ∨ ∃ child, (slot.key, child) ∈ forest.pairs ∧ child.Records (slot.results rows) := by
  obtain ⟨noRest, _⟩ := Node.sibling_slot_key [] children slot (isSiblings ▸ inside)
  cases found : forest.find? slot.key with
  | none => exact Or.inl ((Node.slot_missing rows node forest recorded slot inside).mp found)
  | some child =>
      have below := Node.slot_found rows node forest recorded slot inside child found
      rw [noRest, under_nothing] at below
      exact Or.inr ⟨child, (find_pairs forest recorded.sound slot.key child).mp found, below⟩

theorem sibling_slot (node : Node) (inner : node.operator? ≠ none) (children : List Node)
    (isSiblings : node.slots = Node.siblingSlots [] children) (forest : ResultForest)
    (recorded : forest.Records (node.results rows)) (key : Segment) (child : ResultTree)
    (inside : (key, child) ∈ forest.pairs) :
    ∃ slot ∈ node.slots, slot.steps = [key] ∧ key.kind = slot.child.kind ∧ child.Records (slot.results rows) := by
  obtain ⟨slot, known, rfl⟩ := Node.pair_slot rows node inner forest recorded key child inside
  obtain ⟨noRest, sameKind⟩ := Node.sibling_slot_key [] children slot (isSiblings ▸ known)
  have found := (find_pairs forest recorded.sound slot.key child).mpr inside
  have below := Node.slot_found rows node forest recorded slot known child found
  rw [noRest, under_nothing] at below
  exact ⟨slot, known, by rw [Node.Slot.steps, noRest], sameKind, below⟩

theorem operand_found (node : Node) (forest : ResultForest) (recorded : forest.Records (node.results rows))
    (slot : Node.Slot) (inside : slot ∈ node.slots) (side : Side) (isOperand : slot.key = .operand side)
    (single : slot.rest = [.first slot.child.kind]) :
    (slot.results rows = [] ∧ ∀ policy here, operandValue policy here side forest = absentOperand policy here side) ∨
      ∃ child, child.Records (slot.results rows) ∧ ∀ policy here,
        operandValue policy here side forest = entryValue policy (here ++ slot.steps) slot.child.kind child := by
  cases found : forest.find? slot.key with
  | none =>
      refine Or.inl ⟨(Node.slot_missing rows node forest recorded slot inside).mp found, fun policy here => ?_⟩
      rw [operand_value_find, ← isOperand, found]
  | some tree =>
      have below := Node.slot_found rows node forest recorded slot inside tree found
      rw [single] at below
      obtain ⟨branch, rfl, branched⟩ := records_branch tree _ below (under_deep _ [] _)
      rcases first_single branch _ _ branched with ⟨nothing, _⟩ | ⟨child, childRecorded, merged⟩
      · exact absurd (by rw [nothing, List.map_nil]) (records_exist _ _ below)
      · refine Or.inr ⟨child, childRecorded, fun policy here => ?_⟩
        rw [operand_value_find, ← isOperand, found]
        simp only [treeValue, merged, Node.Slot.steps, single, List.append_assoc]
        rfl

end Merge

theorem store_merged (store : Store) (node : Node) (rows : PlacedLeaf → Option IdentitySet)
    (recorded : store.Records ((node.results rows).map (underKeys [.first node.kind]))) :
    (node.results rows = [] ∧ ∀ policy, store.merge policy = .ok .empty) ∨
      ∃ tree, tree.Records (node.results rows) ∧
        ∀ policy, store.merge policy = Merge.entryValue policy [.first node.kind] node.kind tree := by
  obtain ⟨forest, isForest, below⟩ := store_records store _ recorded
  have merged (policy : MissingOperandPolicy) : store.merge policy = Merge.firstValue policy [] forest := by
    rw [merge_value, isForest, Merge.treeValue]
  rcases Merge.first_single forest _ _ below with ⟨nothing, absent⟩ | ⟨tree, stored, same⟩
  · exact Or.inl ⟨nothing, fun policy => (merged policy).trans (absent policy [])⟩
  · exact Or.inr ⟨tree, stored, fun policy => (merged policy).trans (same policy [])⟩

end FilterPlan
