import FilterPlan.Proofs.Meaning
import Mathlib.Order.BooleanAlgebra.Set

set_option autoImplicit false

namespace FilterPlan

namespace Node

mutual
def reading (rows : Leaf → Set Identity) : Node → Set Identity
  | .leaf found => rows found
  | .and children => (meet (readingsOf rows children)).getD ∅
  | .or children => (join (readingsOf rows children)).getD ∅
  | .not a b => a.reading rows \ b.reading rows
def readingsOf (rows : Leaf → Set Identity) : List Node → List (Set Identity)
  | [] => []
  | child :: rest => child.reading rows :: readingsOf rows rest
end

mutual
def pruned : Node → Node
  | .leaf found => .leaf found
  | .and children => .and (prunedAmong children)
  | .or children => .or (prunedAmong children)
  | .not a b => .not a.pruned b.pruned
def prunedAmong : List Node → List Node
  | [] => []
  | child :: rest => if child.positions = [] then prunedAmong rest else child.pruned :: prunedAmong rest
end

mutual
def Unmixed : Node → Prop
  | .leaf _ => True
  | .and children => ((∀ child ∈ children, child.positions ≠ []) ∨ ∀ child ∈ children, child.positions = []) ∧
      UnmixedAmong children
  | .or children => UnmixedAmong children
  | .not a b => a.Unmixed ∧ b.Unmixed
def UnmixedAmong : List Node → Prop
  | [] => True
  | child :: rest => child.Unmixed ∧ UnmixedAmong rest
end

theorem positions_siblings (node : Node) (children : List Node) (inner : node.operator? ≠ none)
    (isSiblings : node.slots = siblingSlots [] children) :
    node.positions = [] ↔ ∀ child ∈ children, child.positions = [] := by
  rw [positions_slots node inner, List.flatMap_eq_nil_iff, isSiblings]
  simp only [List.map_eq_nil_iff]
  rw [← List.forall_mem_map (f := Slot.child) (P := fun child => child.positions = []), sibling_slots_children]

theorem positions_and (children : List Node) :
    (Node.and children).positions = [] ↔ ∀ child ∈ children, child.positions = [] :=
  positions_siblings (.and children) children (by simp [operator?]) rfl

theorem positions_or (children : List Node) :
    (Node.or children).positions = [] ↔ ∀ child ∈ children, child.positions = [] :=
  positions_siblings (.or children) children (by simp [operator?]) rfl

theorem positions_not (a b : Node) : (Node.not a b).positions = [] ↔ a.positions = [] ∧ b.positions = [] := by
  rw [positions_slots (.not a b) (by simp [operator?])]
  simp [slots]

theorem pruned_among_empty (children : List Node) :
    prunedAmong children = [] ↔ ∀ child ∈ children, child.positions = [] := by
  induction children with
  | nil => simp [prunedAmong]
  | cons child rest ih =>
      rw [prunedAmong]
      by_cases bare : child.positions = [] <;> simp [bare, ih]

theorem leaves_flat (pending : List Node) : leavesOf pending = pending.flatMap leaves := by
  rw [leaves_of_positions]
  simp only [leaves_positions]

theorem leaves_and (children : List Node) : (Node.and children).leaves = children.flatMap leaves := by
  rw [leaves, leavesOf, List.append_nil, leaves_flat]

theorem leaves_or (children : List Node) : (Node.or children).leaves = children.flatMap leaves := by
  rw [leaves, leavesOf, List.append_nil, leaves_flat]

theorem leaves_not (a b : Node) : (Node.not a b).leaves = a.leaves ++ b.leaves := by
  rw [leaves, leavesOf, leaves_flat]
  simp

mutual
theorem bare_reading (rows : Leaf → Set Identity) (node : Node) (bare : node.positions = []) :
    node.reading rows = ∅ ∧ node.pruned.reading rows = ∅ := by
  cases node with
  | leaf found => simp [positions_leaf] at bare
  | and children =>
      have all := (positions_and children).mp bare
      rw [pruned, reading, reading, (pruned_among_empty children).mpr all]
      refine ⟨?_, rfl⟩
      cases children with
      | nil => rfl
      | cons child rest =>
          rw [readingsOf, (bare_reading rows child (all child (by simp))).1]
          ext identity
          simp [mem_meet]
  | or children =>
      have all := (positions_or children).mp bare
      rw [pruned, reading, reading, (pruned_among_empty children).mpr all]
      refine ⟨?_, rfl⟩
      ext identity
      simp only [mem_join, Set.mem_empty_iff_false, iff_false]
      rintro ⟨set, listed, inside⟩
      rw [bare_readings rows children all set listed] at inside
      exact inside
  | not a b =>
      obtain ⟨bareA, bareB⟩ := (positions_not a b).mp bare
      rw [pruned, reading, reading, (bare_reading rows a bareA).1, (bare_reading rows a bareA).2]
      exact ⟨Set.empty_sdiff _, Set.empty_sdiff _⟩
theorem bare_readings (rows : Leaf → Set Identity) (children : List Node)
    (bare : ∀ child ∈ children, child.positions = []) : ∀ set ∈ readingsOf rows children, set = ∅ := by
  cases children with
  | nil => simp [readingsOf]
  | cons child rest =>
      rw [readingsOf]
      intro set listed
      rcases List.mem_cons.mp listed with same | later
      · rw [same, (bare_reading rows child (bare child (by simp))).1]
      · exact bare_readings rows rest (fun other inside => bare other (by simp [inside])) set later
end

theorem readings_empty (rows : Leaf → Set Identity) (children : List Node) :
    readingsOf rows children = [] ↔ children = [] := by
  cases children <;> simp [readingsOf]

-- When every leaf is answered, absent nodes are those without leaves, and the value is the reading of what is left.
mutual
theorem value_pruned (rows : Leaf → Set Identity) (answer : Leaf → Option (Set Identity)) (node : Node)
    (known : ∀ leaf ∈ node.leaves, answer leaf = some (rows leaf)) :
    node.value answer = if node.positions = [] then none else some (node.pruned.reading rows) := by
  cases node with
  | leaf found =>
      rw [value, known found (by simp [leaves, leavesOf]), if_neg (by simp [positions_leaf]), pruned, reading]
  | and children =>
      rw [leaves_and] at known
      have empty := (positions_and children).trans (pruned_among_empty children).symm
      rw [value, values_pruned rows answer children known, pruned, reading, meet]
      simp only [empty, readings_empty]
      split <;> rfl
  | or children =>
      rw [leaves_or] at known
      have empty := (positions_or children).trans (pruned_among_empty children).symm
      rw [value, values_pruned rows answer children known, pruned, reading, join]
      simp only [empty, readings_empty]
      split <;> rfl
  | not a b =>
      rw [leaves_not, List.forall_mem_append] at known
      rw [value, value_pruned rows answer a known.1, value_pruned rows answer b known.2, pruned, reading]
      simp only [positions_not]
      by_cases bareA : a.positions = [] <;> by_cases bareB : b.positions = [] <;>
        simp [bareA, bareB, without, bare_reading]
theorem values_pruned (rows : Leaf → Set Identity) (answer : Leaf → Option (Set Identity)) (children : List Node)
    (known : ∀ leaf ∈ children.flatMap leaves, answer leaf = some (rows leaf)) :
    valuesAmong answer children = readingsOf rows (prunedAmong children) := by
  cases children with
  | nil => rfl
  | cons child rest =>
      rw [List.flatMap_cons, List.forall_mem_append] at known
      rw [valuesAmong, value_pruned rows answer child known.1, values_pruned rows answer rest known.2, prunedAmong]
      by_cases bare : child.positions = [] <;> simp [bare, readingsOf]
end

theorem mem_readings (rows : Leaf → Set Identity) (children : List Node) (set : Set Identity) :
    set ∈ readingsOf rows children ↔ ∃ child ∈ children, child.reading rows = set := by
  induction children with
  | nil => simp [readingsOf]
  | cons child rest ih => simp [readingsOf, ih, eq_comm]

mutual
theorem unmixed_reading (rows : Leaf → Set Identity) (node : Node) (unmixed : node.Unmixed) :
    node.pruned.reading rows = node.reading rows := by
  cases node with
  | leaf found => rfl
  | and children =>
      rw [Unmixed] at unmixed
      obtain ⟨full | bare, among⟩ := unmixed
      · have kept : children.filter (fun child => child.positions ≠ []) = children :=
          List.filter_eq_self.mpr fun child inside => decide_eq_true (full child inside)
        rw [pruned, reading, reading, unmixed_readings rows children among, kept]
      · have both := bare_reading rows (.and children) ((positions_and children).mpr bare)
        rw [both.1, both.2]
  | or children =>
      rw [Unmixed] at unmixed
      rw [pruned, reading, reading, unmixed_readings rows children unmixed]
      ext identity
      simp only [mem_join, mem_readings]
      constructor
      · rintro ⟨set, ⟨child, inside, same⟩, member⟩
        exact ⟨set, ⟨child, (List.mem_filter.mp inside).1, same⟩, member⟩
      · rintro ⟨set, ⟨child, inside, same⟩, member⟩
        refine ⟨set, ⟨child, List.mem_filter.mpr ⟨inside, decide_eq_true fun bare => ?_⟩, same⟩, member⟩
        rw [← same, (bare_reading rows child bare).1] at member
        exact member
  | not a b =>
      rw [Unmixed] at unmixed
      rw [pruned, reading, reading, unmixed_reading rows a unmixed.1, unmixed_reading rows b unmixed.2]
theorem unmixed_readings (rows : Leaf → Set Identity) (children : List Node) (unmixed : UnmixedAmong children) :
    readingsOf rows (prunedAmong children) =
      readingsOf rows (children.filter fun child => child.positions ≠ []) := by
  cases children with
  | nil => rfl
  | cons child rest =>
      rw [UnmixedAmong] at unmixed
      rw [prunedAmong]
      by_cases bare : child.positions = []
      · simp [bare, unmixed_readings rows rest unmixed.2]
      · simp [bare, readingsOf, unmixed_reading rows child unmixed.1, unmixed_readings rows rest unmixed.2]
end

end Node

namespace Evaluation

variable {σ : Type}

-- What merging gives when every filter is registered is the set algebra of the pruned plan. It is that of the plan
-- itself exactly when pruning does not change it, as in every plan without an AND that mixes operands with and
-- without leaves.
theorem merged_reading (evaluation : Evaluation σ) (root : Node) (planned : evaluation.plan.root = some root)
    (registered : ∀ leaf ∈ root.leaves, evaluation.registry.contains leaf.filter = true)
    (unlimited : evaluation.engine.deadline.limitMs = none) (rows : String → String → IdentitySet)
    (steady : evaluation.registry.Steady evaluation.engine.serve rows) (world : World σ) :
    ∃ store merged, (evaluation.evaluate world).result = .ok store ∧
      store.merge Config.default.missingOperand = .ok merged ∧
      merged.members = root.pruned.reading (fun leaf => (rows leaf.filter leaf.instruction).members) ∧
      (merged.members = root.reading (fun leaf => (rows leaf.filter leaf.instruction).members) ↔
        root.pruned.reading (fun leaf => (rows leaf.filter leaf.instruction).members) =
          root.reading (fun leaf => (rows leaf.filter leaf.instruction).members)) ∧
      (root.Unmixed → merged.members = root.reading fun leaf => (rows leaf.filter leaf.instruction).members) := by
  obtain ⟨store, merged, stored, isMerged, isValue⟩ :=
    evaluation.steady_merged root planned (Or.inr registered) unlimited rows steady world
  have pruned : merged.members = root.pruned.reading fun leaf => (rows leaf.filter leaf.instruction).members := by
    have known : ∀ leaf ∈ root.leaves, Node.answers (evaluation.registry.answer rows) leaf =
        some (rows leaf.filter leaf.instruction).members := by
      intro leaf inside
      rw [Node.answers, Registry.answer, if_pos (registered leaf inside), Option.map_some]
    rw [isValue, Node.value_pruned (fun leaf => (rows leaf.filter leaf.instruction).members) _ root known]
    by_cases bare : root.positions = []
    · rw [if_pos bare, (Node.bare_reading _ root bare).2]
      rfl
    · rw [if_neg bare]
      rfl
  refine ⟨store, merged, stored, isMerged, pruned, by rw [pruned], fun unmixed => ?_⟩
  rw [pruned, Node.unmixed_reading _ root unmixed]

def hollowNode : Node := .or [.and [.leaf ⟨"f", "x"⟩, .or []], .not (.leaf ⟨"f", "y"⟩) (.and [])]

theorem merged_reading_hollow :
    (∀ leaf ∈ hollowNode.leaves, (namedEvaluation hollowNode).registry.contains leaf.filter = true) ∧
      (namedEvaluation hollowNode).registry.Steady (namedEvaluation hollowNode).engine.serve (fun _ => named) ∧
        ∃ store merged, ((namedEvaluation hollowNode).evaluate ⟨(), 0⟩).result = .ok store ∧
          store.merge Config.default.missingOperand = .ok merged ∧
          merged.members = {⟨"x", none⟩, ⟨"y", none⟩} := by
  have registered := named_registered hollowNode (by decide)
  obtain ⟨store, merged, stored, isMerged, pruned, _⟩ := (namedEvaluation hollowNode).merged_reading hollowNode rfl
    registered rfl (fun _ => named) (named_steady hollowNode) ⟨(), 0⟩
  refine ⟨registered, named_steady hollowNode, store, merged, stored, isMerged, ?_⟩
  rw [pruned]
  have shape : hollowNode.pruned = .or [.and [.leaf ⟨"f", "x"⟩], .not (.leaf ⟨"f", "y"⟩) (.and [])] := by
    decide
  ext identity
  rw [shape]
  simp [Node.reading, Node.readingsOf, meet, join, named_members]

theorem and_beside_empty_or :
    ∃ store merged,
      ((namedEvaluation (.and [.leaf ⟨"f", "x"⟩, .or []])).evaluate ⟨(), 0⟩).result = .ok store ∧
      store.merge Config.default.missingOperand = .ok merged ∧
      merged.members ≠
        (Node.and [.leaf ⟨"f", "x"⟩, .or []]).reading fun leaf => (named leaf.instruction).members := by
  have registered := named_registered (.and [.leaf ⟨"f", "x"⟩, .or []]) (by decide)
  obtain ⟨store, merged, stored, isMerged, isValue⟩ :=
    (namedEvaluation (.and [.leaf ⟨"f", "x"⟩, .or []])).steady_merged _ rfl (Or.inr registered) rfl (fun _ => named)
      (named_steady _) ⟨(), 0⟩
  refine ⟨store, merged, stored, isMerged, fun same => ?_⟩
  have known := registered ⟨"f", "x"⟩ (by simp [Node.leaves, Node.leavesOf])
  have kept : (⟨"x", none⟩ : Identity) ∈ merged.members := by
    rw [isValue]
    simp [Node.value, Node.valuesAmong, meet, join, Node.answers, Registry.answer, known, named_members]
  rw [same] at kept
  simp [Node.reading, Node.readingsOf, meet, join] at kept

end Evaluation

end FilterPlan
