import FilterPlan.Proofs.Steady

set_option autoImplicit false

namespace FilterPlan

namespace Evaluation

variable {σ : Type}

theorem evaluate_node_collision (evaluation : Evaluation σ) (node : Node) (base : Path) (world : World σ)
    (path : Path) : (evaluation.evaluateNode node base world).result ≠ .error (.pathCollision path) := by
  intro collided
  obtain ⟨harmless, _⟩ := evaluation.evaluate_node_ends node base world
  exact harmless _ collided ⟨path, rfl⟩

-- No leaf is lost, overwritten or misplaced. The positions are those of the recursion over the tree, whatever is
-- registered, and a run in which every registered leaf is answered stores each answer at its leaf's position.
theorem every_known_leaf_stored (evaluation : Evaluation σ) (node : Node) (base : Path) :
    node.placedLeaves base = node.positions.map (.below (base ++ [.first node.kind])) ∧
      (node.placedLeaves base).map PlacedLeaf.leaf = node.leaves ∧
      (node.placedLeaves base).Pairwise (fun p q => p.path ≠ q.path ∧ ¬ p.path <+: q.path ∧ ¬ q.path <+: p.path) ∧
      (∀ world path, (evaluation.evaluateNode node base world).result ≠ .error (.pathCollision path)) ∧
      (evaluation.engine.config.missingFilter = .skip → ∀ world results,
        evaluation.Answered ((node.placedLeaves base).filter evaluation.knows) world results →
          results.map Prod.fst = ((node.placedLeaves base).filter evaluation.knows).map PlacedLeaf.path ∧
            ∃ store, (evaluation.evaluateNode node base world).result = .ok store ∧
              store.entries.Perm results ∧ store.size = store.entries.length) := by
  refine ⟨node.placed_leaves_positions base, node.placed_leaves_order base, ?_, ?_, ?_⟩
  · exact (node.placed_leaves_apart base).imp fun {p q} apart => ⟨apart_ne p.path q.path apart, apart⟩
  · exact evaluation.evaluate_node_collision node base
  · intro skips world results answered
    obtain ⟨store, stored, filled⟩ := evaluation.evaluate_node_answered node base world (Or.inl skips) results answered
    exact ⟨evaluation.answered_paths _ world results answered, store, stored, filled.listed, filled.sound.counted⟩

def mixedNode : Node :=
  .and [.leaf ⟨"f", "x"⟩, .not (.leaf ⟨"f", "y"⟩) (.leaf ⟨"g", "z"⟩), .leaf ⟨"f", "w"⟩]

theorem every_known_leaf_stored_mixed :
    let stored : List Stored :=
      [([⟨.op .and, 0⟩, ⟨.filter "f", 0⟩], named "x"),
        ([⟨.op .and, 0⟩, ⟨.op .not, 0⟩, ⟨.operand .a, 0⟩, ⟨.filter "f", 0⟩], named "y"),
        ([⟨.op .and, 0⟩, ⟨.filter "f", 1⟩], named "w")]
    (namedEvaluation mixedNode).engine.config.missingFilter = .skip ∧
      (namedEvaluation mixedNode).Answered
        ((mixedNode.placedLeaves []).filter (namedEvaluation mixedNode).knows) ⟨(), 0⟩ stored ∧
      ∃ store, ((namedEvaluation mixedNode).evaluateNode mixedNode [] ⟨(), 0⟩).result = .ok store ∧
        store.entries.Perm stored := by
  intro stored
  have isStored : namedResults mixedNode = stored := rfl
  have answered := named_answered mixedNode ⟨(), 0⟩
  rw [isStored] at answered
  obtain ⟨_, store, result, listed, _⟩ :=
    ((namedEvaluation mixedNode).every_known_leaf_stored mixedNode []).2.2.2.2 rfl _ _ answered
  exact ⟨rfl, answered, store, result, listed⟩

end Evaluation

end FilterPlan
