import FilterPlan.Proofs.Steady
import FilterPlan.Proofs.Value

set_option autoImplicit false

namespace FilterPlan

-- What a leaf is answered with: nothing for a filter that is not registered.
def Registry.answer {σ : Type} (registry : Registry σ) (rows : String → String → IdentitySet) (leaf : Leaf) :
    Option IdentitySet :=
  if registry.contains leaf.filter then some (rows leaf.filter leaf.instruction) else none

theorem store_value (store : Store) (root : Node) (answer : Leaf → Option IdentitySet)
    (recorded : store.Records ((root.results (Node.rowsOf answer)).map (underKeys [.first root.kind]))) :
    ∃ merged, store.merge .empty = .ok merged ∧ merged.members = (root.value (Node.answers answer)).getD ∅ := by
  rcases store_merged store root _ recorded with ⟨nothing, merged⟩ | ⟨tree, below, merged⟩
  · refine ⟨.empty, merged .empty, ?_⟩
    rw [(Node.absent_nothing answer root).mpr nothing, OrderedSet.members_empty]
    rfl
  · obtain ⟨value, isValue, present⟩ := Node.node_merged answer root [.first root.kind] tree below
    exact ⟨value, (merged .empty).trans isValue, by rw [present]; rfl⟩

namespace Evaluation

variable {σ : Type}

theorem steady_results (evaluation : Evaluation σ) (root : Node) (rows : String → String → IdentitySet) :
    ((root.placedLeaves []).filter evaluation.knows).map
        (fun placed => (placed.path, rows placed.leaf.filter placed.leaf.instruction)) =
      (root.results (Node.rowsOf (evaluation.registry.answer rows))).map (underKeys [.first root.kind]) := by
  rw [Node.placed_leaves_positions, Node.results, List.map_filterMap]
  induction root.positions with
  | nil => rfl
  | cons placed rest ih =>
      by_cases known : evaluation.registry.contains placed.leaf.filter
      · have isKnown : evaluation.knows (placed.below ([] ++ [.first root.kind])) = true := known
        rw [List.map_cons, List.filter_cons_of_pos isKnown, List.map_cons, ih, List.filterMap_cons]
        simp [Node.rowsOf, Registry.answer, known, underKeys, PlacedLeaf.below]
      · have isUnknown : ¬ evaluation.knows (placed.below ([] ++ [.first root.kind])) = true := known
        rw [List.map_cons, List.filter_cons_of_neg isUnknown, ih, List.filterMap_cons]
        simp [Node.rowsOf, Registry.answer, known]

theorem steady_merged (evaluation : Evaluation σ) (root : Node) (planned : evaluation.plan.root = some root)
    (allowed : evaluation.engine.config.missingFilter = .skip ∨
      ∀ leaf ∈ root.leaves, evaluation.registry.contains leaf.filter = true)
    (unlimited : evaluation.engine.deadline.limitMs = none) (rows : String → String → IdentitySet)
    (steady : evaluation.registry.Steady evaluation.engine.serve rows) (world : World σ) :
    ∃ store merged, (evaluation.evaluate world).result = .ok store ∧ store.merge .empty = .ok merged ∧
      merged.members = (root.value (Node.answers (evaluation.registry.answer rows))).getD ∅ := by
  have chosen : evaluation.engine.config.missingFilter = .skip ∨
      ∀ placed ∈ root.placedLeaves [], evaluation.knows placed = true := by
    refine allowed.imp id fun all placed inside => all placed.leaf ?_
    rw [← root.placed_leaves_order []]
    exact List.mem_map_of_mem inside
  have answered := evaluation.answered_steady unlimited rows steady ((root.placedLeaves []).filter evaluation.knows)
    (fun placed inside => (List.mem_filter.mp inside).2) world
  obtain ⟨store, stored, recorded⟩ := evaluation.evaluate_node_answered root [] world chosen _ answered
  rw [steady_results] at recorded
  rw [evaluate_root evaluation root planned]
  obtain ⟨merged, isMerged, isValue⟩ := store_value store root _ recorded
  exact ⟨store, merged, stored, isMerged, isValue⟩

end Evaluation

namespace Pipeline

variable {σ : Type}

theorem execute_result (pipeline : Pipeline σ) (engine : Engine σ) (root : Node) (world : World σ) :
    (pipeline.execute engine (.ofNode root) world).result =
      match ((Evaluation.ofPlan engine pipeline.registry (.ofNode root)).evaluate world).result with
      | .ok store => (store.merge engine.config.missingOperand).mapError .merge
      | .error error => .error (.evaluate error) := by
  have filtered : ¬ (Plan.ofNode root).isUnfiltered = true := by simp [Plan.isUnfiltered, Plan.ofNode]
  have configured : (Evaluation.ofPlan engine pipeline.registry (.ofNode root)).engine = engine := rfl
  change (pipeline.execute engine (.ofNode root)).Ends world fun result _ => result = _
  rw [execute, if_neg filtered, Action.bind_ends, Action.map_error_ends, Action.Ends]
  cases ((Evaluation.ofPlan engine pipeline.registry (.ofNode root)).evaluate world).result with
  | error error => rfl
  | ok store =>
      simp only [Except.mapError, Action.bind_ends, merge, configured]
      cases store.merge engine.config.missingOperand <;> rfl

theorem execute_merged (pipeline : Pipeline σ) (engine : Engine σ) (root : Node) (world : World σ) (store : Store)
    (stored : ((Evaluation.ofPlan engine pipeline.registry (.ofNode root)).evaluate world).result = .ok store)
    (merged : IdentitySet) (isMerged : store.merge engine.config.missingOperand = .ok merged) :
    (pipeline.execute engine (.ofNode root) world).result = .ok merged := by
  rw [execute_result, stored]
  dsimp only
  rw [isMerged]
  rfl

-- The meaning of a plan: evaluating it and merging the results gives the value of its root, in ascending order.
theorem execute_value (pipeline : Pipeline σ) (engine : Engine σ) (root : Node) (rows : String → String → IdentitySet)
    (skips : engine.config.missingFilter = .skip) (tolerant : engine.config.missingOperand = .empty)
    (unlimited : engine.deadline.limitMs = none) (steady : pipeline.registry.Steady engine.serve rows)
    (world : World σ) :
    ∃ store merged,
      ((Evaluation.ofPlan engine pipeline.registry (.ofNode root)).evaluate world).result = .ok store ∧
      store.merge engine.config.missingOperand = .ok merged ∧
      (pipeline.execute engine (.ofNode root) world).result = .ok merged ∧
      merged.members = (root.value fun leaf =>
        if pipeline.registry.contains leaf.filter then some (rows leaf.filter leaf.instruction).members
        else none).getD ∅ ∧
      merged.toList.Pairwise fun a b => compare a b = .lt := by
  obtain ⟨store, merged, stored, isMerged, isValue⟩ :=
    (Evaluation.ofPlan engine pipeline.registry (.ofNode root)).steady_merged root rfl (Or.inl skips) unlimited rows
      steady world
  have answers : (fun leaf : Leaf => if pipeline.registry.contains leaf.filter then
      some (rows leaf.filter leaf.instruction).members else none) =
        Node.answers (pipeline.registry.answer rows) := by
    funext leaf
    rw [Node.answers, Registry.answer]
    split <;> rfl
  rw [← tolerant] at isMerged
  refine ⟨store, merged, stored, isMerged, pipeline.execute_merged engine root world store stored merged isMerged, ?_,
    merged.ascending⟩
  rw [answers]
  exact isValue

def patchyNode : Node :=
  .or [.and [.leaf ⟨"f", "x"⟩, .leaf ⟨"g", "y"⟩], .not (.leaf ⟨"f", "z"⟩) (.leaf ⟨"g", "w"⟩), .and []]

def patchyPipeline : Pipeline Unit :=
  ⟨"patchy", "", .answering "f" named, .empty, fun _ state => ⟨.error (.failed ""), state, 0⟩, none⟩

theorem execute_value_patchy :
    patchyPipeline.registry.Steady standalone.serve (fun _ => named) ∧
      ∃ store merged,
        ((Evaluation.ofPlan standalone patchyPipeline.registry (.ofNode patchyNode)).evaluate ⟨(), 0⟩).result =
          .ok store ∧
        store.merge .empty = .ok merged ∧
        (patchyPipeline.execute standalone (.ofNode patchyNode) ⟨(), 0⟩).result = .ok merged ∧
        merged.members = {⟨"x", none⟩, ⟨"z", none⟩} := by
  have steady : patchyPipeline.registry.Steady standalone.serve fun _ => named :=
    Registry.answering_steady "f" named _
  obtain ⟨store, merged, stored, isMerged, executed, isValue, _⟩ :=
    execute_value patchyPipeline standalone patchyNode (fun _ => named) rfl rfl rfl steady ⟨(), 0⟩
  refine ⟨steady, store, merged, stored, isMerged, executed, ?_⟩
  have registered (name : String) : patchyPipeline.registry.contains name = decide ("f" = name) :=
    Registry.answering_contains "f" named name
  rw [isValue]
  ext identity
  simp [patchyNode, Node.value, Node.valuesAmong, meet, join, without, registered, named_members]

end Pipeline

end FilterPlan
