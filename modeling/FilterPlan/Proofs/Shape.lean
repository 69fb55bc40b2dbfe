import FilterPlan.Proofs.Placement
import FilterPlan.Proofs.StackMerge

set_option autoImplicit false

namespace FilterPlan

namespace SegmentKind

def IsNode : SegmentKind → Prop
  | .operand _ => False
  | _ => True

theorem is_node (node : Node) : node.kind.IsNode := by cases node <;> trivial

def Admits (kind : SegmentKind) (keys : List Segment) : Prop :=
  match kind with
  | .filter _ => False
  | .op .not => keys ≠ [] ∧ ∀ key ∈ keys, ∃ side, key = .operand side
  | .op _ => keys ≠ [] ∧ ∀ key ∈ keys, key.kind.IsNode
  | .operand _ => ∃ key, keys = [key] ∧ key.ordinal = 0 ∧ key.kind.IsNode

end SegmentKind

-- Every key of a fitting tree holds what its kind asks for: rows below a filter, and a branch below any other.
mutual
def ResultTree.Fits (kind : SegmentKind) : ResultTree → Prop
  | .rows _ => ∃ name, kind = .filter name
  | .branch children => kind.Admits children.keys ∧ children.Fits
def ResultForest.Fits : ResultForest → Prop
  | .nil => True
  | .cons key child forest => child.Fits key.kind ∧ forest.Fits
end

theorem forest_fits_pairs (forest : ResultForest) (fits : ∀ key child, (key, child) ∈ forest.pairs → child.Fits key.kind) :
    forest.Fits := by
  cases forest with
  | nil => trivial
  | cons key child forest =>
      have here := fits key child List.mem_cons_self
      exact ⟨here, forest_fits_pairs forest fun other tree inside => fits other tree (List.mem_cons_of_mem _ inside)⟩

theorem find_fits (forest : ResultForest) (fits : forest.Fits) (key : Segment) (child : ResultTree)
    (found : forest.find? key = some child) : child.Fits key.kind := by
  cases forest with
  | nil => cases found
  | cons first tree forest =>
      rw [ResultForest.find?] at found
      by_cases same : key = first
      · rw [if_pos same] at found
        cases found
        rw [same]
        exact fits.1
      · rw [if_neg same] at found
        exact find_fits forest fits.2 key child found

theorem keys_size (forest : ResultForest) : forest.keys.length = forest.size := by
  cases forest with
  | nil => rfl
  | cons key child forest => rw [ResultForest.keys, List.length_cons, keys_size forest, ResultForest.size]

theorem keys_exist (forest : ResultForest) (results : List Stored) (recorded : forest.Records results)
    (filled : results ≠ []) : forest.keys ≠ [] := by
  cases forest with
  | nil => exact absurd (List.nil_perm.mp recorded.listed) filled
  | cons key child forest => exact List.cons_ne_nil _ _

namespace Node

variable (rows : PlacedLeaf → Option IdentitySet)

theorem single_fits (node : Node) (forest : ResultForest)
    (recorded : forest.Records ((node.results rows).map (underKeys [.first node.kind])))
    (fits : ∀ tree : ResultTree, tree.Records (node.results rows) → tree.Fits node.kind) :
    forest.Fits ∧ (forest.keys = [] ∨ ∃ key, forest.keys = [key] ∧ key.ordinal = 0 ∧ key.kind.IsNode) := by
  rcases records_single forest _ _ recorded with ⟨_, empty⟩ | ⟨child, single, below⟩
  · subst empty
    exact ⟨trivial, Or.inl rfl⟩
  · subst single
    exact ⟨⟨fits child below, trivial⟩, Or.inr ⟨.first node.kind, rfl, rfl, SegmentKind.is_node node⟩⟩

theorem key_slot (node : Node) (inner : node.operator? ≠ none) (forest : ResultForest)
    (recorded : forest.Records (node.results rows)) (key : Segment) (tree : ResultTree)
    (found : forest.find? key = some tree) :
    ∃ slot ∈ node.slots, slot.key = key ∧ tree.Records ((slot.results rows).map (underKeys slot.rest)) := by
  have pair := (find_pairs forest recorded.sound key tree).mp found
  obtain ⟨slot, inside, isKey⟩ := pair_slot rows node inner forest recorded key tree pair
  rw [← isKey] at found
  exact ⟨slot, inside, isKey, slot_found rows node forest recorded slot inside tree found⟩

theorem known_slot (node : Node) (inner : node.operator? ≠ none) (forest : ResultForest)
    (recorded : forest.Records (node.results rows)) (key : Segment) (known : key ∈ forest.keys) :
    ∃ slot ∈ node.slots, slot.key = key := by
  cases found : forest.find? key with
  | none => exact absurd found ((keys_find forest key).mp known)
  | some tree =>
      obtain ⟨slot, inside, isKey, _⟩ := key_slot rows node inner forest recorded key tree found
      exact ⟨slot, inside, isKey⟩

theorem branch_fits (node : Node) (inner : node.operator? ≠ none) (forest : ResultForest)
    (recorded : forest.Records (node.results rows))
    (fits : ∀ slot ∈ node.slots, ∀ tree : ResultTree,
      tree.Records ((slot.results rows).map (underKeys slot.rest)) → tree.Fits slot.key.kind) : forest.Fits := by
  refine forest_fits_pairs forest fun key tree pair => ?_
  have found := (find_pairs forest recorded.sound key tree).mpr pair
  obtain ⟨slot, inside, isKey, below⟩ := key_slot rows node inner forest recorded key tree found
  rw [← isKey]
  exact fits slot inside tree below

theorem siblings_fit (node : Node) (children : List Node) (inner : node.operator? ≠ none)
    (isSiblings : node.slots = siblingSlots [] children) (forest : ResultForest)
    (recorded : forest.Records (node.results rows))
    (fits : ∀ slot ∈ node.slots, ∀ tree : ResultTree, tree.Records (slot.results rows) → tree.Fits slot.child.kind) :
    forest.Fits ∧ ∀ key ∈ forest.keys, key.kind.IsNode := by
  constructor
  · refine branch_fits rows node inner forest recorded fun slot inside tree below => ?_
    obtain ⟨flat, sameKind⟩ := sibling_slot_key [] children slot (isSiblings ▸ inside)
    rw [flat, under_nothing] at below
    rw [sameKind]
    exact fits slot inside tree below
  · intro key known
    obtain ⟨slot, inside, isKey⟩ := known_slot rows node inner forest recorded key known
    obtain ⟨_, sameKind⟩ := sibling_slot_key [] children slot (isSiblings ▸ inside)
    rw [← isKey, sameKind]
    exact SegmentKind.is_node slot.child

theorem operands_fit (a b : Node) (forest : ResultForest) (recorded : forest.Records ((Node.not a b).results rows))
    (fits : ∀ slot ∈ (Node.not a b).slots, ∀ tree : ResultTree,
      tree.Records (slot.results rows) → tree.Fits slot.child.kind) :
    forest.Fits ∧ ∀ key ∈ forest.keys, ∃ side, key = .operand side := by
  have inner : (Node.not a b).operator? ≠ none := by simp [operator?]
  have operand : ∀ slot ∈ (Node.not a b).slots, slot.rest = [.first slot.child.kind] ∧
      ∃ side, slot.key = .operand side := by
    intro slot inside
    simp only [slots, List.mem_cons, List.not_mem_nil, or_false] at inside
    rcases inside with same | same
    · rw [same]
      exact ⟨rfl, .a, rfl⟩
    · rw [same]
      exact ⟨rfl, .b, rfl⟩
  constructor
  · refine branch_fits rows _ inner forest recorded fun slot inside tree below => ?_
    obtain ⟨single, side, isKey⟩ := operand slot inside
    rw [single] at below
    obtain ⟨children, isBranch, stored⟩ := records_branch tree _ below (under_deep _ [] _)
    have filled := keys_exist children _ stored (records_exist tree _ below)
    obtain ⟨fit, keys⟩ := single_fits _ slot.child children stored (fits slot inside)
    rw [isBranch, isKey]
    exact ⟨keys.resolve_left filled, fit⟩
  · intro key known
    obtain ⟨slot, inside, isKey⟩ := known_slot rows _ inner forest recorded key known
    rw [← isKey]
    exact (operand slot inside).2

theorem node_fits (node : Node) (tree : ResultTree) (recorded : tree.Records (node.results rows)) :
    tree.Fits node.kind := by
  induction node using induct_slots generalizing rows tree with
  | leaf found =>
      have exist := records_exist tree _ recorded
      rw [results_leaf] at recorded exist
      cases answered : rows ⟨[], found⟩ with
      | none => simp [answered] at exist
      | some set =>
          rw [answered] at recorded
          rw [records_rows tree set recorded]
          exact ⟨found.filter, rfl⟩
  | operator node inner ih =>
      obtain ⟨forest, isBranch, stored⟩ := records_branch tree _ recorded (results_deep rows node inner)
      have filled := keys_exist forest _ stored (records_exist tree _ recorded)
      have fits : ∀ slot ∈ node.slots, ∀ tree : ResultTree, tree.Records (slot.results rows) →
          tree.Fits slot.child.kind := fun slot inside tree below => ih slot inside _ tree below
      rw [isBranch]
      cases node with
      | leaf found => simp [operator?] at inner
      | and children =>
          obtain ⟨fit, keys⟩ := siblings_fit rows _ children inner rfl forest stored fits
          exact ⟨⟨filled, keys⟩, fit⟩
      | or children =>
          obtain ⟨fit, keys⟩ := siblings_fit rows _ children inner rfl forest stored fits
          exact ⟨⟨filled, keys⟩, fit⟩
      | not a b =>
          obtain ⟨fit, keys⟩ := operands_fit rows a b forest stored fits
          exact ⟨⟨filled, keys⟩, fit⟩

end Node

def Store.Shaped (store : Store) : Prop :=
  ∃ forest, store.root = .branch forest ∧ forest.Fits ∧
    (forest.keys = [] ∨ ∃ key, forest.keys = [key] ∧ key.ordinal = 0 ∧ key.kind.IsNode)

theorem Node.stored_shape (rows : PlacedLeaf → Option IdentitySet) (node : Node) (store : Store)
    (recorded : store.Records ((node.results rows).map (underKeys [.first node.kind]))) : store.Shaped := by
  obtain ⟨forest, isRoot, stored⟩ := store_records store _ recorded
  exact ⟨forest, isRoot, node.single_fits rows forest stored fun tree below => node.node_fits rows tree below⟩

namespace Merge

def Task.Fits : Task → Prop
  | .tree found _ => ∃ children, found = .branch children ∧ children.size ≤ 1 ∧ children.Fits
  | .entry key value _ => value.Fits key.kind
  | .operand children _ _ => children.Fits
  | .fold _ _ => True

theorem entry_tasks_fit (parent : Option Nat) (forest : ResultForest) (fits : forest.Fits) :
    ∀ task ∈ entryTasks parent forest, task.Fits := by
  cases forest with
  | nil => simp [entryTasks]
  | cons key child forest =>
      intro task inside
      rcases List.mem_cons.mp inside with same | later
      · rw [same]
        exact fits.1
      · exact entry_tasks_fit parent forest fits.2 task later

theorem operand_fits (side : Side) (found : ResultTree) (parent : Option Nat)
    (fits : found.Fits (.operand side)) : (Task.tree found parent).Fits := by
  cases found with
  | rows rows =>
      obtain ⟨name, isFilter⟩ := fits
      cases isFilter
  | branch children =>
      obtain ⟨⟨key, single, _⟩, inner⟩ := fits
      refine ⟨children, rfl, ?_, inner⟩
      rw [← keys_size, single]
      exact Nat.le_refl 1

namespace Machine

theorem enter_fits (trail : Trail) (values : List IdentitySet) (rest : List Task) (key : Segment) (parent : Option Nat)
    (value : ResultTree) (fits : value.Fits key.kind) (later : ∀ task ∈ rest, task.Fits) :
    ∀ task ∈ (enter ⟨trail, values, rest⟩ key parent value).tasks, task.Fits := by
  cases value with
  | rows rows => exact later
  | branch children =>
      cases isKind : key.kind with
      | op operator =>
          cases operator with
          | not =>
              simp only [enter, isKind, List.forall_mem_cons]
              exact ⟨fits.2, fits.2, trivial, later⟩
          | and | or =>
              simp only [enter, isKind, List.forall_mem_append, List.forall_mem_cons]
              exact ⟨entry_tasks_fit _ children fits.2, trivial, later⟩
      | operand side =>
          rw [isKind] at fits
          simp only [enter, isKind, List.forall_mem_cons]
          exact ⟨operand_fits side _ _ fits, later⟩
      | filter name =>
          simp only [enter, isKind]
          exact later

theorem step_fits (policy : MissingOperandPolicy) (trail : Trail) (values : List IdentitySet) (task : Task)
    (rest : List Task) (next : Machine) (fits : ∀ other ∈ task :: rest, other.Fits)
    (done : step policy ⟨trail, values, rest⟩ task = .ok next) : ∀ other ∈ next.tasks, other.Fits := by
  obtain ⟨here, later⟩ := List.forall_mem_cons.mp fits
  cases task with
  | tree found parent =>
      cases done
      obtain ⟨children, isBranch, _, inner⟩ := here
      subst isBranch
      cases children with
      | nil => exact later
      | cons key child forest => exact List.forall_mem_cons.mpr ⟨inner.1, later⟩
  | entry key value parent =>
      cases done
      exact enter_fits trail values rest key parent value here later
  | operand children side place =>
      cases isFound : children.find? (.operand side) with
      | some found =>
          simp only [step, seek, isFound, Except.ok.injEq] at done
          subst done
          exact List.forall_mem_cons.mpr ⟨operand_fits side found _ (find_fits children here _ found isFound), later⟩
      | none =>
          cases policy with
          | reject => simp [step, seek, isFound] at done
          | empty =>
              simp only [step, seek, isFound, Except.ok.injEq] at done
              subst done
              exact later
  | fold operator arity =>
      cases done
      exact later

theorem reaches_fits (policy : MissingOperandPolicy) (machine final : Machine) (reached : Reaches policy machine final)
    (fits : ∀ task ∈ machine.tasks, task.Fits) : ∀ task ∈ final.tasks, task.Fits :=
  reaches_keeps policy (fun machine => ∀ task ∈ machine.tasks, task.Fits) (step_fits policy) machine final reached fits

theorem start_fits (store : Store) (shaped : store.Shaped) : ∀ task ∈ (start store).tasks, task.Fits := by
  obtain ⟨forest, isRoot, fits, keys⟩ := shaped
  have few : forest.size ≤ 1 := by
    rw [← keys_size]
    rcases keys with none | ⟨key, single, _⟩
    · simp [none]
    · simp [single]
  simp only [start, List.forall_mem_singleton]
  exact ⟨forest, isRoot, few, fits⟩

end Machine

end Merge

namespace Evaluation

variable {σ : Type}

theorem evaluate_shaped (evaluation : Evaluation σ) (world : World σ) (store : Store)
    (stored : (evaluation.evaluate world).result = .ok store) : store.Shaped := by
  cases planned : evaluation.plan.root with
  | none =>
      have empty : (evaluation.evaluate world).result = .ok .empty := by
        rw [evaluate, planned]
        rfl
      rw [empty] at stored
      cases stored
      exact ⟨.nil, rfl, trivial, Or.inl rfl⟩
  | some root =>
      rw [evaluation.evaluate_root root planned] at stored
      obtain ⟨rows, recorded⟩ := evaluation.stored_results root world store stored
      exact root.stored_shape rows store recorded

-- What an evaluation stores is what a merge counts on, whichever leaves are skipped and in whatever order the others are
-- written. So a merge of it never has to choose among the keys of a branch that stands for no operator, and finds
-- rows below filters and nowhere else.
theorem evaluated_shape (evaluation : Evaluation σ) (world : World σ) (store : Store)
    (stored : (evaluation.evaluate world).result = .ok store) :
    (∃ forest, store.root = .branch forest ∧ forest.Fits ∧
      (forest.keys = [] ∨ ∃ key, forest.keys = [key] ∧ key.ordinal = 0 ∧ key.kind.IsNode)) ∧
    ∀ policy machine, Merge.Machine.Reaches policy (.start store) machine →
      (∀ tree parent, .tree tree parent ∈ machine.tasks → ∃ children, tree = .branch children ∧ children.size ≤ 1) ∧
      (∀ key rows parent, .entry key (.rows rows) parent ∈ machine.tasks → ∃ name, key.kind = .filter name) ∧
      (∀ key children parent, .entry key (.branch children) parent ∈ machine.tasks →
        ∀ name, key.kind ≠ .filter name) := by
  have shaped := evaluation.evaluate_shaped world store stored
  refine ⟨shaped, fun policy machine reached => ?_⟩
  have fits := Merge.Machine.reaches_fits policy _ machine reached (Merge.Machine.start_fits store shaped)
  refine ⟨fun tree parent inside => ?_, fun key rows parent inside => fits _ inside,
    fun key children parent inside name isFilter => ?_⟩
  · obtain ⟨children, isBranch, few, _⟩ := fits _ inside
    exact ⟨children, isBranch, few⟩
  · obtain ⟨admitted, _⟩ := fits _ inside
    rw [isFilter] at admitted
    exact admitted

theorem evaluated_shape_mixed :
    ∃ store forest, ((namedEvaluation mixedNode).evaluate ⟨(), 0⟩).result = .ok store ∧ store.root = .branch forest ∧
      forest.Fits ∧ forest.keys = [⟨.op .and, 0⟩] ∧
      Merge.Machine.Reaches .reject (.start store) (.start store) ∧
      ∃ children, store.root = .branch children ∧ children.size ≤ 1 := by
  obtain ⟨store, stored, recorded⟩ := named_stored mixedNode ⟨(), 0⟩
  obtain ⟨⟨forest, isRoot, fits, keys⟩, merges⟩ := (namedEvaluation mixedNode).evaluated_shape ⟨(), 0⟩ store stored
  have first : (([⟨.op .and, 0⟩, ⟨.filter "f", 0⟩], named "x") : Stored) ∈ forest.entries [] := by
    have inside := recorded.listed.mem_iff.mpr (List.mem_cons_self (l := (namedResults mixedNode).tail))
    rw [Store.entries_tree, isRoot] at inside
    exact inside
  obtain ⟨key, known, rest, start⟩ := entries_keys forest _ first
  obtain ⟨isKey, _⟩ := List.cons.inj start
  rcases keys with none | ⟨other, single, _⟩
  · simp [none] at known
  · rw [single, List.mem_singleton] at known
    have here : Merge.Machine.Reaches .reject (.start store) (.start store) := .here _
    refine ⟨store, forest, stored, isRoot, fits, ?_, here, (merges .reject _ here).1 store.root none ?_⟩
    · rw [single, ← known, ← isKey]
    · exact List.mem_singleton.mpr rfl

end Evaluation

end FilterPlan
