import FilterPlan.Pipeline
import FilterPlan.Proofs.Evaluation
import FilterPlan.Proofs.OrderedSet

set_option autoImplicit false

namespace FilterPlan

def named (name : String) : IdentitySet := .ofList [⟨name, none⟩]

theorem named_members (name : String) : (named name).members = {⟨name, none⟩} := by
  ext identity
  rw [named, OrderedSet.members_of_list, List.mem_singleton, Set.mem_singleton_iff]

namespace Registry

variable {σ : Type}

def Willing (registry : Registry σ) (access : Access σ) : Prop :=
  ∀ name filter, registry.find name = .ok filter → ∀ instruction context world,
    ((filter.resolver instruction context).perform access).Ends world fun result _ => ∃ rows, result = .ok rows

-- Every registered resolver succeeds with an answer that depends on the filter and the instruction only.
def Steady (registry : Registry σ) (access : Access σ)
    (rows : String → String → IdentitySet) : Prop :=
  ∀ name filter, registry.find name = .ok filter → ∀ instruction context world,
    ((filter.resolver instruction context).perform access).Ends world fun result _ =>
      result = .ok (rows name instruction)

theorem steady_willing (registry : Registry σ) (access : Access σ)
    (rows : String → String → IdentitySet) (steady : registry.Steady access rows) : registry.Willing access := by
  intro name filter found instruction context world
  exact ⟨rows name instruction, steady name filter found instruction context world⟩

def only (name : String) (resolver : Resolver σ) : Registry σ :=
  match (empty : Registry σ).register ⟨name, ""⟩ resolver with
  | .ok registry => registry
  | .error _ => empty

theorem only_find (name : String) (resolver : Resolver σ) (other : String) :
    (only name resolver).find other = if name = other then .ok ⟨"", resolver⟩ else .error (.unknownFilter other) := by
  obtain ⟨next, registered⟩ := register_fresh empty ⟨name, ""⟩ resolver (find_empty name)
  have isNext : only name resolver = next := by
    rw [only, registered]
  rw [isNext, find_register _ _ _ _ registered other, find_empty]

theorem only_contains (name : String) (resolver : Resolver σ) (other : String) :
    (only name resolver).contains other = decide (name = other) := by
  rw [Bool.eq_iff_iff, contains_find, only_find]
  by_cases same : name = other <;> simp [same]

def answering (name : String) (answer : String → IdentitySet) : Registry σ :=
  match (empty : Registry σ).register ⟨name, ""⟩ fun instruction _ => .done (.ok (answer instruction)) with
  | .ok registry => registry
  | .error _ => empty

theorem answering_find (name : String) (answer : String → IdentitySet) (other : String) :
    (answering name answer : Registry σ).find other =
      if name = other then .ok ⟨"", fun instruction _ => .done (.ok (answer instruction))⟩
      else .error (.unknownFilter other) :=
  only_find name _ other

theorem answering_contains (name : String) (answer : String → IdentitySet) (other : String) :
    (answering name answer : Registry σ).contains other = decide (name = other) :=
  only_contains name _ other

theorem answering_steady (name : String) (answer : String → IdentitySet)
    (access : Access σ) :
    (answering name answer : Registry σ).Steady access fun _ => answer := by
  intro other filter found instruction context world
  rw [answering_find] at found
  by_cases same : name = other
  · rw [if_pos same] at found
    rw [← Except.ok.inj found]
    exact rfl
  · simp [same] at found

end Registry

namespace Evaluation

variable {σ : Type}

theorem timeout_unlimited (deadline : Deadline) (unlimited : deadline.limitMs = none) (now : Nat) :
    deadline.timeout? now = none := by
  rw [Deadline.timeout?, unlimited]

theorem knows_find (evaluation : Evaluation σ) (placed : PlacedLeaf) (known : evaluation.knows placed = true) :
    ∃ filter, evaluation.registry.find placed.leaf.filter = .ok filter :=
  (evaluation.registry.contains_find placed.leaf.filter).mp known

theorem answered_willing (evaluation : Evaluation σ) (unlimited : evaluation.engine.deadline.limitMs = none)
    (willing : evaluation.registry.Willing evaluation.engine.serve) (leaves : List PlacedLeaf)
    (known : ∀ placed ∈ leaves, evaluation.knows placed = true) (world : World σ) :
    ∃ results, evaluation.Answered leaves world results := by
  induction leaves generalizing world with
  | nil => exact ⟨[], .nothing world⟩
  | cons placed rest ih =>
      obtain ⟨filter, registered⟩ := evaluation.knows_find placed (known placed (by simp))
      obtain ⟨rows, resolved⟩ :=
        willing _ filter registered placed.leaf.instruction (evaluation.context placed.path 0) world
      obtain ⟨others, later⟩ := ih (fun other inside => known other (by simp [inside]))
        (((filter.resolver placed.leaf.instruction (evaluation.context placed.path 0)).perform
          evaluation.engine.serve) world).world
      exact ⟨_, .answer placed rest filter world _ rows others registered (timeout_unlimited _ unlimited _)
        ⟨resolved, rfl⟩ (timeout_unlimited _ unlimited _) later⟩

theorem answered_steady (evaluation : Evaluation σ) (unlimited : evaluation.engine.deadline.limitMs = none)
    (rows : String → String → IdentitySet) (steady : evaluation.registry.Steady evaluation.engine.serve rows)
    (leaves : List PlacedLeaf) (known : ∀ placed ∈ leaves, evaluation.knows placed = true) (world : World σ) :
    evaluation.Answered leaves world
      (leaves.map fun placed => (placed.path, rows placed.leaf.filter placed.leaf.instruction)) := by
  induction leaves generalizing world with
  | nil => exact .nothing world
  | cons placed rest ih =>
      obtain ⟨filter, registered⟩ := evaluation.knows_find placed (known placed (by simp))
      have resolved := steady _ filter registered placed.leaf.instruction (evaluation.context placed.path 0) world
      exact .answer placed rest filter world _ _ _ registered (timeout_unlimited _ unlimited _) ⟨resolved, rfl⟩
        (timeout_unlimited _ unlimited _) (ih (fun other inside => known other (by simp [inside])) _)

def namedEvaluation (root : Node) : Evaluation Unit :=
  .ofPlan Pipeline.standalone (.answering "f" named) (.ofNode root)

theorem named_contains (root : Node) (name : String) :
    (namedEvaluation root).registry.contains name = decide ("f" = name) :=
  Registry.answering_contains "f" named name

theorem named_steady (root : Node) :
    (namedEvaluation root).registry.Steady (namedEvaluation root).engine.serve fun _ => named :=
  Registry.answering_steady "f" named _

theorem named_registered (root : Node) (only : ∀ leaf ∈ root.positions.map PlacedLeaf.leaf, leaf.filter = "f") :
    ∀ leaf ∈ root.leaves, (namedEvaluation root).registry.contains leaf.filter = true := by
  intro leaf inside
  rw [← Node.leaves_positions] at inside
  rw [named_contains, only leaf inside]
  rfl

def namedResults (root : Node) : List Stored :=
  (root.positions.filter fun placed => "f" = placed.leaf.filter).map fun placed =>
    (.first root.kind :: placed.path, named placed.leaf.instruction)

theorem named_answered (root : Node) (world : World Unit) :
    (namedEvaluation root).Answered ((root.placedLeaves []).filter (namedEvaluation root).knows) world
      (namedResults root) := by
  have answered := (namedEvaluation root).answered_steady rfl _ (named_steady root)
    ((root.placedLeaves []).filter (namedEvaluation root).knows)
    (fun placed inside => (List.mem_filter.mp inside).2) world
  have same : ((root.placedLeaves []).filter (namedEvaluation root).knows).map
      (fun placed => (placed.path, named placed.leaf.instruction)) = namedResults root := by
    have knows : (namedEvaluation root).knows ∘ PlacedLeaf.below ([] ++ [.first root.kind]) =
        fun placed => decide ("f" = placed.leaf.filter) := by
      funext placed
      exact named_contains root placed.leaf.filter
    rw [Node.placed_leaves_positions, List.filter_map, knows, List.map_map]
    rfl
  rwa [same] at answered

theorem named_stored (root : Node) (world : World Unit) :
    ∃ store, ((namedEvaluation root).evaluate world).result = .ok store ∧ store.Records (namedResults root) :=
  (namedEvaluation root).evaluate_node_answered root [] world (Or.inl rfl) _ (named_answered root world)

end Evaluation

end FilterPlan
