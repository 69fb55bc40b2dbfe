import FilterPlan.Proofs.Store

set_option autoImplicit false

namespace FilterPlan

def strip (key : Segment) (results : List Stored) : List Stored :=
  results.filterMap fun entry =>
    match entry.1 with
    | first :: rest => if first = key then some (rest, entry.2) else none
    | [] => none

theorem strip_append (key : Segment) (before after : List Stored) :
    strip key (before ++ after) = strip key before ++ strip key after := by
  simp [strip]

theorem strip_under (key : Segment) (keys : Path) (results : List Stored) :
    strip key (results.map (underKeys (key :: keys))) = results.map (underKeys keys) := by
  simp [strip, underKeys, List.filterMap_map, Function.comp_def]

theorem strip_under_other (key other : Segment) (keys : Path) (results : List Stored) (different : other ≠ key) :
    strip key (results.map (underKeys (other :: keys))) = [] := by
  simp [strip, underKeys, List.filterMap_map, Function.comp_def, different]

theorem under_nothing (results : List Stored) : results.map (underKeys []) = results := by
  have same : underKeys [] = id := rfl
  rw [same, List.map_id]

theorem under_deep (key : Segment) (keys : Path) (results : List Stored) :
    ∀ entry ∈ results.map (underKeys (key :: keys)), entry.1 ≠ [] := by
  intro entry inside
  obtain ⟨below, _, rfl⟩ := List.mem_map.mp inside
  simp [underKeys]

def ResultForest.pairs : ResultForest → List (Segment × ResultTree)
  | .nil => []
  | .cons key child forest => (key, child) :: forest.pairs

theorem pairs_key (forest : ResultForest) (key : Segment) (child : ResultTree) (inside : (key, child) ∈ forest.pairs) :
    key ∈ forest.keys := by
  cases forest with
  | nil => simp [ResultForest.pairs] at inside
  | cons first tree forest =>
      rcases List.mem_cons.mp inside with same | later
      · simp [ResultForest.keys, (Prod.mk.inj same).1]
      · simp [ResultForest.keys, pairs_key forest key child later]

theorem find_pairs (forest : ResultForest) (sound : forest.Sound) (key : Segment) (child : ResultTree) :
    forest.find? key = some child ↔ (key, child) ∈ forest.pairs := by
  cases forest with
  | nil => simp [ResultForest.find?, ResultForest.pairs]
  | cons first tree forest =>
      rw [ResultForest.find?, ResultForest.pairs, List.mem_cons]
      by_cases same : key = first
      · subst same
        have absent : (key, child) ∉ forest.pairs := fun later =>
          less_ne key key (sound.2.2 key (pairs_key forest key child later)) rfl
        simp [absent, eq_comm]
      · rw [if_neg same, find_pairs forest sound.2.1 key child]
        simp [same]

theorem pairs_sound (forest : ResultForest) (sound : forest.Sound) (key : Segment) (child : ResultTree)
    (inside : (key, child) ∈ forest.pairs) : child.Sound := by
  cases forest with
  | nil => simp [ResultForest.pairs] at inside
  | cons first tree forest =>
      rcases List.mem_cons.mp inside with same | later
      · rw [(Prod.mk.inj same).2]
        exact sound.1
      · exact pairs_sound forest sound.2.1 key child later

theorem strip_absent (forest : ResultForest) (key : Segment) (absent : key ∉ forest.keys) :
    strip key (forest.entries []) = [] := by
  rw [strip, List.filterMap_eq_nil_iff]
  intro entry inside
  obtain ⟨first, known, rest, start⟩ := entries_keys forest entry inside
  have different : first ≠ key := fun same => absent (same ▸ known)
  simp [start, different]

theorem find_entries (forest : ResultForest) (sound : forest.Sound) (key : Segment) :
    strip key (forest.entries []) =
      match forest.find? key with
      | some child => child.entries []
      | none => [] := by
  cases forest with
  | nil => rfl
  | cons first tree forest =>
      rw [entries_cons, strip_append, ResultForest.find?]
      by_cases same : key = first
      · subst same
        have absent : key ∉ forest.keys := fun known => less_ne key key (sound.2.2 key known) rfl
        rw [if_pos rfl, strip_under, strip_absent forest key absent, under_nothing, List.append_nil]
      · rw [if_neg same, strip_under_other key first [] _ (Ne.symm same), find_entries forest sound.2.1 key,
          List.nil_append]

-- A sound tree is known through its entries; nothing is said of the order in which they were written.
structure ResultTree.Records (tree : ResultTree) (results : List Stored) : Prop where
  sound : tree.Sound
  listed : (tree.entries []).Perm results

structure ResultForest.Records (forest : ResultForest) (results : List Stored) : Prop where
  sound : forest.Sound
  listed : (forest.entries []).Perm results

structure Store.Records (store : Store) (results : List Stored) : Prop where
  sound : store.Sound
  listed : store.entries.Perm results

theorem store_records (store : Store) (results : List Stored) (recorded : store.Records results) :
    ∃ forest, store.root = .branch forest ∧ forest.Records results := by
  obtain ⟨⟨⟨forest, isForest, sound⟩, _⟩, listed⟩ := recorded
  rw [Store.entries_tree, isForest] at listed
  exact ⟨forest, isForest, sound, listed⟩

theorem records_exist (tree : ResultTree) (results : List Stored) (recorded : tree.Records results) :
    results ≠ [] := by
  intro nothing
  have none := recorded.listed
  rw [nothing, List.perm_nil] at none
  exact tree_entries_exist tree recorded.sound none

theorem records_rows (tree : ResultTree) (rows : IdentitySet) (recorded : tree.Records [([], rows)]) :
    tree = .rows rows := by
  cases tree with
  | rows found =>
      have same := List.perm_singleton.mp recorded.listed
      simp only [ResultTree.entries, List.reverse_nil, List.cons.injEq, Prod.mk.injEq, true_and, and_true] at same
      rw [same]
  | branch forest =>
      have inside : (([] : Path), rows) ∈ forest.entries [] := recorded.listed.mem_iff.mpr List.mem_cons_self
      obtain ⟨key, _, rest, start⟩ := entries_keys forest _ inside
      simp at start

theorem records_branch (tree : ResultTree) (results : List Stored) (recorded : tree.Records results)
    (deep : ∀ entry ∈ results, entry.1 ≠ []) : ∃ forest, tree = .branch forest ∧ forest.Records results := by
  cases tree with
  | rows rows =>
      have shallow : ([], rows) ∈ results := recorded.listed.mem_iff.mp (by simp [ResultTree.entries])
      exact absurd rfl (deep _ shallow)
  | branch forest => exact ⟨forest, rfl, recorded.sound.2, recorded.listed⟩

theorem records_found (forest : ResultForest) (results : List Stored) (recorded : forest.Records results)
    (key : Segment) (child : ResultTree) (found : forest.find? key = some child) :
    child.Records (strip key results) := by
  have inside := (find_pairs forest recorded.sound key child).mp found
  have below : strip key (forest.entries []) = child.entries [] := by
    rw [find_entries forest recorded.sound key, found]
  refine ⟨pairs_sound forest recorded.sound key child inside, ?_⟩
  rw [← below]
  exact recorded.listed.filterMap _

theorem records_missing (forest : ResultForest) (results : List Stored) (recorded : forest.Records results)
    (key : Segment) : forest.find? key = none ↔ strip key results = [] := by
  constructor
  · intro missing
    have below : strip key (forest.entries []) = [] := by
      rw [find_entries forest recorded.sound key, missing]
    have stripped : (strip key (forest.entries [])).Perm (strip key results) := recorded.listed.filterMap _
    rw [below] at stripped
    exact List.nil_perm.mp stripped
  · intro nothing
    cases found : forest.find? key with
    | none => rfl
    | some child => exact absurd nothing (records_exist child _ (records_found forest results recorded key child found))

theorem keys_find (forest : ResultForest) (key : Segment) : key ∈ forest.keys ↔ forest.find? key ≠ none := by
  cases forest with
  | nil => simp [ResultForest.keys, ResultForest.find?]
  | cons first tree forest =>
      rw [ResultForest.keys, ResultForest.find?, List.mem_cons]
      by_cases same : key = first
      · simp [same]
      · simp [same, keys_find forest key]

theorem records_single (forest : ResultForest) (results : List Stored) (key : Segment)
    (recorded : forest.Records (results.map (underKeys [key]))) :
    (results = [] ∧ forest = .nil) ∨ ∃ child, forest = .cons key child .nil ∧ child.Records results := by
  have only : ∀ other ∈ forest.keys, other = key := by
    intro other known
    refine Decidable.byContradiction fun different => ?_
    have stripped := strip_under_other other key [] results (Ne.symm different)
    exact (keys_find forest other).mp known ((records_missing forest _ recorded other).mpr stripped)
  cases forest with
  | nil =>
      have nothing := List.nil_perm.mp recorded.listed
      exact Or.inl ⟨List.map_eq_nil_iff.mp nothing, rfl⟩
  | cons first tree rest =>
      have isKey : first = key := only first (by simp [ResultForest.keys])
      subst isKey
      cases rest with
      | nil =>
          have found := records_found _ _ recorded first tree (by simp [ResultForest.find?])
          rw [strip_under, under_nothing] at found
          exact Or.inr ⟨tree, rfl, found⟩
      | cons second other rest =>
          have less := recorded.sound.2.2 second (by simp [ResultForest.keys])
          exact absurd (only second (by simp [ResultForest.keys])).symm (less_ne first second less)

namespace Node

def results (rows : PlacedLeaf → Option IdentitySet) (node : Node) : List Stored :=
  node.positions.filterMap fun placed => (rows placed).map fun found => (placed.path, found)

def Slot.results (rows : PlacedLeaf → Option IdentitySet) (slot : Slot) : List Stored :=
  slot.child.results fun placed => rows (placed.below slot.steps)

variable (rows : PlacedLeaf → Option IdentitySet)

theorem results_leaf (found : Leaf) :
    (leaf found).results rows = ((rows ⟨[], found⟩).map fun set => ([], set)).toList := by
  rw [results, positions_leaf]
  cases stored : rows ⟨[], found⟩ with
  | none => simp [stored]
  | some set => simp [stored]

theorem results_slots (node : Node) (inner : node.operator? ≠ none) :
    node.results rows = node.slots.flatMap fun slot => (slot.results rows).map (underKeys slot.steps) := by
  rw [results, positions_slots node inner, List.filterMap_flatMap]
  congr 1
  funext slot
  rw [List.filterMap_map, Slot.results, results, List.map_filterMap]
  congr 1
  funext placed
  simp [PlacedLeaf.below, underKeys, Function.comp_def]

theorem results_nothing (node : Node) (inner : node.operator? ≠ none) :
    node.results rows = [] ↔ ∀ slot ∈ node.slots, slot.results rows = [] := by
  rw [results_slots rows node inner, List.flatMap_eq_nil_iff]
  simp only [List.map_eq_nil_iff]

theorem results_deep (node : Node) (inner : node.operator? ≠ none) :
    ∀ entry ∈ node.results rows, entry.1 ≠ [] := by
  intro entry inside
  rw [results_slots rows node inner] at inside
  obtain ⟨slot, _, below⟩ := List.mem_flatMap.mp inside
  exact under_deep slot.key slot.rest _ entry below

theorem strip_no_slot (slots : List Slot) (key : Segment) (absent : key ∉ slots.map Slot.key) :
    strip key (slots.flatMap fun slot => (slot.results rows).map (underKeys slot.steps)) = [] := by
  induction slots with
  | nil => rfl
  | cons slot rest ih =>
      simp only [List.map_cons, List.mem_cons, not_or] at absent
      rw [List.flatMap_cons, strip_append, ih absent.2, Slot.steps,
        strip_under_other key slot.key slot.rest _ (Ne.symm absent.1), List.append_nil]

-- The keys of the slots differ, so the results below one of them are those of its child.
theorem strip_slot (slots : List Slot) (distinct : (slots.map Slot.key).Nodup) (slot : Slot) (inside : slot ∈ slots) :
    strip slot.key (slots.flatMap fun slot => (slot.results rows).map (underKeys slot.steps)) =
      (slot.results rows).map (underKeys slot.rest) := by
  induction slots with
  | nil => simp at inside
  | cons first rest ih =>
      obtain ⟨fresh, later⟩ := List.nodup_cons.mp distinct
      rw [List.flatMap_cons, strip_append]
      rcases List.mem_cons.mp inside with same | known
      · subst same
        rw [Slot.steps, strip_under, strip_no_slot rows rest slot.key fresh, List.append_nil]
      · have different : first.key ≠ slot.key := fun same => fresh (same ▸ List.mem_map_of_mem known)
        rw [ih later known, Slot.steps, strip_under_other slot.key first.key first.rest _ different, List.nil_append]

theorem results_strip (node : Node) (slot : Slot) (inside : slot ∈ node.slots) :
    strip slot.key (node.results rows) = (slot.results rows).map (underKeys slot.rest) := by
  have inner : node.operator? ≠ none := by
    cases node with
    | leaf found => simp [slots] at inside
    | and | or | not => simp [operator?]
  rw [results_slots rows node inner]
  exact strip_slot rows node.slots (slot_keys_nodup node) slot inside

theorem slot_found (node : Node) (forest : ResultForest) (recorded : forest.Records (node.results rows)) (slot : Slot)
    (inside : slot ∈ node.slots) (tree : ResultTree) (found : forest.find? slot.key = some tree) :
    tree.Records ((slot.results rows).map (underKeys slot.rest)) := by
  rw [← results_strip rows node slot inside]
  exact records_found forest _ recorded slot.key tree found

theorem slot_missing (node : Node) (forest : ResultForest) (recorded : forest.Records (node.results rows)) (slot : Slot)
    (inside : slot ∈ node.slots) : forest.find? slot.key = none ↔ slot.results rows = [] := by
  rw [records_missing forest _ recorded slot.key, results_strip rows node slot inside, List.map_eq_nil_iff]

theorem pair_slot (node : Node) (inner : node.operator? ≠ none) (forest : ResultForest)
    (recorded : forest.Records (node.results rows)) (key : Segment) (tree : ResultTree)
    (inside : (key, tree) ∈ forest.pairs) : ∃ slot ∈ node.slots, slot.key = key := by
  have found := (find_pairs forest recorded.sound key tree).mpr inside
  refine Decidable.byContradiction fun absent => ?_
  have unknown : key ∉ node.slots.map Slot.key := by simpa using absent
  have nothing := strip_no_slot rows node.slots key unknown
  rw [← results_slots rows node inner] at nothing
  have missing := (records_missing forest _ recorded key).mpr nothing
  simp [missing] at found

theorem sibling_slot_key (seen : List SegmentKind) (children : List Node) (slot : Slot)
    (inside : slot ∈ siblingSlots seen children) : slot.rest = [] ∧ slot.key.kind = slot.child.kind := by
  induction children generalizing seen with
  | nil => simp [siblingSlots] at inside
  | cons child rest ih =>
      rcases List.mem_cons.mp inside with same | later
      · simp [same]
      · exact ih (child.kind :: seen) later

end Node

end FilterPlan
