import FilterPlan.Proofs.NodeMerge
import FilterPlan.Proofs.OrderedSet

set_option autoImplicit false

namespace FilterPlan

def meet (sets : List (Set Identity)) : Option (Set Identity) :=
  if sets = [] then none else some {identity | ∀ set ∈ sets, identity ∈ set}

def join (sets : List (Set Identity)) : Option (Set Identity) :=
  if sets = [] then none else some {identity | ∃ set ∈ sets, identity ∈ set}

theorem mem_meet (sets : List (Set Identity)) (identity : Identity) :
    identity ∈ (meet sets).getD ∅ ↔ sets ≠ [] ∧ ∀ set ∈ sets, identity ∈ set := by
  rw [meet]
  by_cases nothing : sets = []
  · simp [nothing]
  · rw [if_neg nothing]
    exact (and_iff_right nothing).symm

theorem mem_join (sets : List (Set Identity)) (identity : Identity) :
    identity ∈ (join sets).getD ∅ ↔ ∃ set ∈ sets, identity ∈ set := by
  rw [join]
  by_cases nothing : sets = []
  · simp [nothing]
  · rw [if_neg nothing]
    exact Iff.rfl

-- A missing operand counts as the empty set, unless both are missing.
def without : Option (Set Identity) → Option (Set Identity) → Option (Set Identity)
  | none, none => none
  | a, b => some (a.getD ∅ \ b.getD ∅)

namespace Node

-- What a plan stands for when leaves may be absent: AND and OR combine the children that are present, and
-- are absent when none is.
mutual
def value (answer : Leaf → Option (Set Identity)) : Node → Option (Set Identity)
  | .leaf found => answer found
  | .and children => meet (valuesAmong answer children)
  | .or children => join (valuesAmong answer children)
  | .not a b => without (a.value answer) (b.value answer)
def valuesAmong (answer : Leaf → Option (Set Identity)) : List Node → List (Set Identity)
  | [] => []
  | child :: rest =>
      match child.value answer with
      | some set => set :: valuesAmong answer rest
      | none => valuesAmong answer rest
end

theorem mem_values_among (answer : Leaf → Option (Set Identity)) (children : List Node) (set : Set Identity) :
    set ∈ valuesAmong answer children ↔ ∃ child ∈ children, child.value answer = some set := by
  induction children with
  | nil => simp [valuesAmong]
  | cons child rest ih =>
      rw [valuesAmong]
      cases present : child.value answer with
      | none => simp [ih, present]
      | some found => simp [ih, present, eq_comm]

end Node

namespace Merge

theorem inter_members (first : IdentitySet) (rest : List IdentitySet) (identity : Identity) :
    identity ∈ (rest.foldl OrderedSet.inter first).members ↔ ∀ set ∈ first :: rest, identity ∈ set.members := by
  induction rest generalizing first with
  | nil => simp
  | cons second rest ih =>
      rw [List.foldl_cons, ih]
      simp [OrderedSet.members_inter, and_assoc]

theorem union_members (first : IdentitySet) (rest : List IdentitySet) (identity : Identity) :
    identity ∈ (rest.foldl OrderedSet.union first).members ↔ ∃ set ∈ first :: rest, identity ∈ set.members := by
  induction rest generalizing first with
  | nil => simp
  | cons second rest ih =>
      rw [List.foldl_cons, ih]
      simp [OrderedSet.members_union, or_assoc]

theorem combine_meet (values : List IdentitySet) (some_value : values ≠ []) :
    meet (values.map OrderedSet.members) = some (combine .and values).members := by
  cases values with
  | nil => exact absurd rfl some_value
  | cons first rest =>
      have known : (combine .and (first :: rest)).members =
          {identity | ∀ set ∈ (first :: rest).map OrderedSet.members, identity ∈ set} := by
        ext identity
        change _ ↔ ∀ set ∈ (first :: rest).map OrderedSet.members, identity ∈ set
        rw [combine, inter_members, List.forall_mem_map]
      rw [meet, if_neg (by simp), known]

theorem combine_join (values : List IdentitySet) (some_value : values ≠ []) :
    join (values.map OrderedSet.members) = some (combine .or values).members := by
  have known : (combine .or values).members =
      {identity | ∃ set ∈ values.map OrderedSet.members, identity ∈ set} := by
    ext identity
    rw [combine, union_members]
    simp [OrderedSet.members_empty]
  rw [join, if_neg (by simpa using some_value), known]

end Merge

theorem meet_same (left right : List (Set Identity)) (same : ∀ set, set ∈ left ↔ set ∈ right) :
    meet left = meet right := by
  have empty : left = [] ↔ right = [] := by
    simp [List.eq_nil_iff_forall_not_mem, same]
  simp only [meet, empty, same]

theorem join_same (left right : List (Set Identity)) (same : ∀ set, set ∈ left ↔ set ∈ right) :
    join left = join right := by
  have empty : left = [] ↔ right = [] := by
    simp [List.eq_nil_iff_forall_not_mem, same]
  simp only [join, empty, same]

namespace Node

variable (answer : Leaf → Option IdentitySet)

def answers (leaf : Leaf) : Option (Set Identity) := (answer leaf).map OrderedSet.members

def rowsOf (placed : PlacedLeaf) : Option IdentitySet := answer placed.leaf

theorem among_absent (answer : Leaf → Option (Set Identity)) (children : List Node) :
    valuesAmong answer children = [] ↔ ∀ slot ∈ siblingSlots [] children, slot.child.value answer = none := by
  have listed : (∀ slot ∈ siblingSlots [] children, slot.child.value answer = none) ↔
      ∀ child ∈ children, child.value answer = none := by
    rw [← List.forall_mem_map (f := Slot.child) (P := fun child => child.value answer = none), sibling_slots_children]
  rw [listed, List.eq_nil_iff_forall_not_mem]
  simp only [mem_values_among, Option.eq_none_iff_forall_ne_some]
  grind

theorem value_absent (answer : Leaf → Option (Set Identity)) (node : Node) (inner : node.operator? ≠ none) :
    node.value answer = none ↔ ∀ slot ∈ node.slots, slot.child.value answer = none := by
  cases node with
  | leaf found => simp [operator?] at inner
  | and children =>
      rw [slots, ← among_absent, value, meet]
      simp
  | or children =>
      rw [slots, ← among_absent, value, join]
      simp
  | not a b =>
      rw [value]
      cases left : a.value answer <;> cases right : b.value answer <;> simp [without, slots, left, right]

theorem absent_nothing (node : Node) :
    node.value (answers answer) = none ↔ node.results (rowsOf answer) = [] := by
  induction node using induct_slots with
  | leaf found =>
      rw [results_leaf, rowsOf, value, answers]
      cases answer found <;> simp
  | operator node inner ih =>
      rw [value_absent _ node inner, results_nothing _ node inner]
      exact forall₂_congr ih

theorem without_present (a b : Option (Set Identity)) (present : without a b ≠ none) :
    without a b = some (a.getD ∅ \ b.getD ∅) := by
  cases a <;> cases b <;> simp_all [without]

-- The keys of the stored children are in ascending order and their leaves in document order, but as sets of values
-- the two lists are the same.
theorem siblings_merged (node : Node) (inner : node.operator? ≠ none) (children : List Node)
    (isSiblings : node.slots = siblingSlots [] children) (forest : ResultForest)
    (recorded : forest.Records (node.results (rowsOf answer))) (here : Path)
    (merges : ∀ slot ∈ node.slots, ∀ below tree, tree.Records (slot.child.results (rowsOf answer)) →
      ∃ merged, Merge.entryValue .empty below slot.child.kind tree = .ok merged ∧
        slot.child.value (answers answer) = some merged.members) :
    ∃ values, Merge.entryValues .empty here forest = .ok values ∧
      ∀ set, set ∈ values.map OrderedSet.members ↔ set ∈ valuesAmong (answers answer) children := by
  have each : ∀ key child, (key, child) ∈ forest.pairs → ∃ slot ∈ node.slots, ∃ merged,
      Merge.entryValue .empty (here ++ [key]) key.kind child = .ok merged ∧
        slot.child.value (answers answer) = some merged.members := by
    intro key child inside
    obtain ⟨slot, known, _, sameKind, below⟩ :=
      Merge.sibling_slot _ node inner children isSiblings forest recorded key child inside
    rw [sameKind]
    exact ⟨slot, known, merges slot known (here ++ [key]) child below⟩
  obtain ⟨values, merged⟩ := (Merge.entry_values_ok .empty here forest).mpr fun key child inside => by
    obtain ⟨_, _, value, isMerged, _⟩ := each key child inside
    exact ⟨value, isMerged⟩
  refine ⟨values, merged, fun set => ?_⟩
  rw [mem_values_among, List.mem_map]
  constructor
  · rintro ⟨value, listed, rfl⟩
    obtain ⟨key, child, inside, isValue⟩ := (Merge.entry_values_listed _ _ _ _ merged value).mp listed
    obtain ⟨slot, known, same, isSame, present⟩ := each key child inside
    rw [isValue] at isSame
    refine ⟨slot.child, sibling_slot_child [] children slot (isSiblings ▸ known), ?_⟩
    rw [present, Except.ok.inj isSame]
  · rintro ⟨child, inside, present⟩
    rw [← sibling_slots_children [] children, ← isSiblings] at inside
    obtain ⟨slot, known, rfl⟩ := List.mem_map.mp inside
    rcases Merge.sibling_found _ node children isSiblings forest recorded slot known with
      nothing | ⟨tree, stored, below⟩
    · simp [(absent_nothing answer slot.child).mpr nothing] at present
    · obtain ⟨_, sameKind⟩ := sibling_slot_key [] children slot (isSiblings ▸ known)
      obtain ⟨value, isMerged, isValue⟩ := merges slot known (here ++ [slot.key]) tree below
      rw [← sameKind] at isMerged
      refine ⟨value, (Merge.entry_values_listed _ _ _ _ merged value).mpr ⟨slot.key, tree, stored, isMerged⟩, ?_⟩
      rw [isValue] at present
      exact Option.some.inj present

theorem operand_merged (node : Node) (forest : ResultForest) (recorded : forest.Records (node.results (rowsOf answer)))
    (slot : Slot) (inside : slot ∈ node.slots) (side : Side) (isOperand : slot.key = .operand side)
    (single : slot.rest = [.first slot.child.kind]) (here : Path)
    (merges : ∀ below tree, tree.Records (slot.child.results (rowsOf answer)) →
      ∃ merged, Merge.entryValue .empty below slot.child.kind tree = .ok merged ∧
        slot.child.value (answers answer) = some merged.members) :
    ∃ merged, Merge.operandValue .empty here side forest = .ok merged ∧
      (slot.child.value (answers answer)).getD ∅ = merged.members := by
  rcases Merge.operand_found _ node forest recorded slot inside side isOperand single with
    ⟨nothing, absent⟩ | ⟨tree, below, same⟩
  · refine ⟨.empty, absent .empty here, ?_⟩
    rw [(absent_nothing answer slot.child).mpr nothing, OrderedSet.members_empty]
    rfl
  · obtain ⟨merged, isMerged, present⟩ := merges (here ++ slot.steps) tree below
    rw [← same] at isMerged
    exact ⟨merged, isMerged, by rw [present]; rfl⟩

theorem node_merged (node : Node) : ∀ (here : Path) (tree : ResultTree), tree.Records (node.results (rowsOf answer)) →
    ∃ merged, Merge.entryValue .empty here node.kind tree = .ok merged ∧
      node.value (answers answer) = some merged.members := by
  induction node using induct_slots with
  | leaf found =>
      intro here tree recorded
      rw [results_leaf, rowsOf] at recorded
      rw [value, answers]
      cases answered : answer found with
      | none => exact absurd (by simp [answered]) (records_exist tree _ recorded)
      | some set =>
          simp only [answered, Option.map_some, Option.toList_some] at recorded
          rw [records_rows tree set recorded]
          exact ⟨set, by rw [Merge.entryValue], rfl⟩
  | operator node inner ih =>
      intro here tree recorded
      have exists_some := records_exist tree _ recorded
      obtain ⟨forest, rfl, stored⟩ := records_branch tree _ recorded (results_deep _ node inner)
      have present : node.value (answers answer) ≠ none := fun absent =>
        exists_some ((absent_nothing answer node).mp absent)
      cases node with
      | leaf found => simp [operator?] at inner
      | and children =>
          obtain ⟨values, merged, same⟩ :=
            siblings_merged answer (.and children) inner children rfl forest stored here ih
          have exist : values ≠ [] := by
            rintro rfl
            exact present (by rw [value, ← meet_same _ _ same]; rfl)
          refine ⟨Merge.combine .and values, ?_, ?_⟩
          · simp only [kind, Merge.entryValue, merged]
            rfl
          · rw [value, ← meet_same _ _ same, Merge.combine_meet values exist]
      | or children =>
          obtain ⟨values, merged, same⟩ :=
            siblings_merged answer (.or children) inner children rfl forest stored here ih
          have exist : values ≠ [] := by
            rintro rfl
            exact present (by rw [value, ← join_same _ _ same]; rfl)
          refine ⟨Merge.combine .or values, ?_, ?_⟩
          · simp only [kind, Merge.entryValue, merged]
            rfl
          · rw [value, ← join_same _ _ same, Merge.combine_join values exist]
      | not a b =>
          have slotA : (⟨.operand .a, [.first a.kind], a⟩ : Slot) ∈ (Node.not a b).slots := by simp [slots]
          have slotB : (⟨.operand .b, [.first b.kind], b⟩ : Slot) ∈ (Node.not a b).slots := by simp [slots]
          obtain ⟨fromA, mergedA, isA⟩ :=
            operand_merged answer (.not a b) forest stored _ slotA .a rfl rfl here (ih _ slotA)
          obtain ⟨fromB, mergedB, isB⟩ :=
            operand_merged answer (.not a b) forest stored _ slotB .b rfl rfl here (ih _ slotB)
          refine ⟨fromA.diff fromB, ?_, ?_⟩
          · simp only [kind, Merge.entryValue, mergedA, mergedB]
            rfl
          · rw [value] at present ⊢
            rw [OrderedSet.members_diff, ← isA, ← isB]
            exact without_present _ _ present

end Node

end FilterPlan
