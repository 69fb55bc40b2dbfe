import FilterPlan.Store
import FilterPlan.Proofs.Positions

set_option autoImplicit false

namespace FilterPlan

abbrev Stored := Path × IdentitySet

mutual
def ResultTree.Sound : ResultTree → Prop
  | .rows _ => True
  | .branch children => children ≠ .nil ∧ children.Sound
def ResultForest.Sound : ResultForest → Prop
  | .nil => True
  | .cons key child forest => child.Sound ∧ forest.Sound ∧ ∀ other ∈ forest.keys, compare key other = .lt
end

mutual
def ResultTree.entries (above : List Segment) : ResultTree → List Stored
  | .rows rows => [(above.reverse, rows)]
  | .branch children => children.entries above
def ResultForest.entries (above : List Segment) : ResultForest → List Stored
  | .nil => []
  | .cons key child forest => child.entries (key :: above) ++ forest.entries above
end

def underKeys (keys : Path) (entry : Stored) : Stored := (keys ++ entry.1, entry.2)

mutual
theorem tree_entries_above (above : List Segment) (tree : ResultTree) :
    tree.entries above = (tree.entries []).map (underKeys above.reverse) := by
  cases tree with
  | rows rows => simp [ResultTree.entries, underKeys]
  | branch children =>
      rw [ResultTree.entries, ResultTree.entries]
      exact forest_entries_above above children
theorem forest_entries_above (above : List Segment) (forest : ResultForest) :
    forest.entries above = (forest.entries []).map (underKeys above.reverse) := by
  cases forest with
  | nil => rfl
  | cons key child forest =>
      rw [ResultForest.entries, ResultForest.entries, tree_entries_above (key :: above) child,
        tree_entries_above [key] child, forest_entries_above above forest]
      simp [underKeys]
end

theorem entries_cons (key : Segment) (child : ResultTree) (forest : ResultForest) :
    (ResultForest.cons key child forest).entries [] =
      (child.entries []).map (underKeys [key]) ++ forest.entries [] := by
  rw [ResultForest.entries, tree_entries_above [key] child]
  rfl

theorem entries_keys (forest : ResultForest) (entry : Stored) (inside : entry ∈ forest.entries []) :
    ∃ key ∈ forest.keys, ∃ rest, entry.1 = key :: rest := by
  cases forest with
  | nil => simp [ResultForest.entries] at inside
  | cons key child forest =>
      rw [entries_cons] at inside
      rcases List.mem_append.mp inside with here | later
      · obtain ⟨below, _, rfl⟩ := List.mem_map.mp here
        exact ⟨key, by simp [ResultForest.keys], below.1, rfl⟩
      · obtain ⟨other, known, rest, start⟩ := entries_keys forest entry later
        exact ⟨other, by simp [ResultForest.keys, known], rest, start⟩

theorem tree_entries_exist (tree : ResultTree) (sound : tree.Sound) : tree.entries [] ≠ [] := by
  cases tree with
  | rows rows => simp [ResultTree.entries]
  | branch children =>
      cases children with
      | nil => exact absurd rfl sound.1
      | cons key child forest =>
          rw [ResultTree.entries, entries_cons]
          have below := tree_entries_exist child sound.2.1
          simp [below]

theorem chain_entries (rows : IdentitySet) (path : Path) :
    (ResultTree.chain rows path).entries [] = [(path, rows)] := by
  induction path with
  | nil => rfl
  | cons key rest ih =>
      rw [ResultTree.chain, ResultTree.entries, entries_cons, ih]
      rfl

theorem chain_sound (rows : IdentitySet) (path : Path) : (ResultTree.chain rows path).Sound := by
  induction path with
  | nil => trivial
  | cons key rest ih => exact ⟨by simp, ih, trivial, by simp [ResultForest.keys]⟩

theorem compare_self (key : Segment) : compare key key = .eq := Std.ReflCmp.compare_self

theorem less_ne (a b : Segment) (less : compare a b = .lt) : a ≠ b := by
  intro same
  rw [same, compare_self] at less
  simp at less

theorem insert_keys (rows : IdentitySet) (key : Segment) (rest : Path) (forest : ResultForest) (other : Segment)
    (inside : other ∈ (forest.insert rows key rest).1.keys) : other = key ∨ other ∈ forest.keys := by
  cases forest with
  | nil => simpa [ResultForest.insert, ResultForest.keys] using inside
  | cons first child forest =>
      rw [ResultForest.insert] at inside
      cases order : compare key first with
      | lt =>
          rw [order] at inside
          simpa [ResultForest.keys] using inside
      | eq =>
          rw [order] at inside
          exact Or.inr (by simpa [ResultForest.keys] using inside)
      | gt =>
          rw [order] at inside
          rcases List.mem_cons.mp inside with same | later
          · exact Or.inr (by simp [ResultForest.keys, same])
          · rcases insert_keys rows key rest forest other later with same | known
            · exact Or.inl same
            · exact Or.inr (by simp [ResultForest.keys, known])

theorem insert_exists (rows : IdentitySet) (key : Segment) (rest : Path) (forest : ResultForest) :
    (forest.insert rows key rest).1 ≠ .nil := by
  cases forest with
  | nil => simp [ResultForest.insert]
  | cons first child forest =>
      rw [ResultForest.insert]
      cases compare key first <;> simp

mutual
theorem tree_insert_sound (rows : IdentitySet) (tree : ResultTree) (path : Path) (sound : tree.Sound) :
    (tree.insert rows path).1.Sound := by
  cases tree with
  | rows old => simpa [ResultTree.insert] using sound
  | branch children =>
      cases path with
      | nil => simpa [ResultTree.insert] using sound
      | cons key rest =>
          exact ⟨insert_exists rows key rest children, forest_insert_sound rows children key rest sound.2⟩
theorem forest_insert_sound (rows : IdentitySet) (forest : ResultForest) (key : Segment) (rest : Path)
    (sound : forest.Sound) : (forest.insert rows key rest).1.Sound := by
  cases forest with
  | nil => exact ⟨chain_sound rows rest, trivial, by simp [ResultForest.keys]⟩
  | cons first child forest =>
      rw [ResultForest.insert]
      cases order : compare key first with
      | lt =>
          refine ⟨chain_sound rows rest, sound, fun other inside => ?_⟩
          rcases List.mem_cons.mp inside with same | later
          · rw [same]
            exact order
          · exact Std.TransCmp.lt_trans order (sound.2.2 other later)
      | eq => exact ⟨tree_insert_sound rows child rest sound.1, sound.2.1, sound.2.2⟩
      | gt =>
          refine ⟨sound.1, forest_insert_sound rows forest key rest sound.2.1, fun other inside => ?_⟩
          rcases insert_keys rows key rest forest other inside with same | known
          · rw [same]
            exact Std.OrientedCmp.lt_of_gt order
          · exact sound.2.2 other known
end

theorem apart_forest (forest : ResultForest) (key : Segment) (rest : Path) (absent : key ∉ forest.keys) :
    ∀ entry ∈ forest.entries [], Apart entry.1 (key :: rest) := by
  intro entry inside
  obtain ⟨other, known, below, start⟩ := entries_keys forest entry inside
  rw [start]
  exact apart_keys other key below rest fun same => absent (same ▸ known)

theorem apart_child (key : Segment) (child : ResultTree) (rest : Path) :
    (∀ entry ∈ (child.entries []).map (underKeys [key]), Apart entry.1 (key :: rest)) ↔
      ∀ entry ∈ child.entries [], Apart entry.1 rest := by
  simp only [List.forall_mem_map, underKeys]
  exact forall₂_congr fun entry _ => apart_below [key] entry.1 rest

theorem key_absent_below (key first : Segment) (forest : ResultForest) (less : compare key first = .lt)
    (ascending : ∀ other ∈ forest.keys, compare first other = .lt) : key ∉ forest.keys := by
  intro known
  exact less_ne key key (Std.TransCmp.lt_trans less (ascending key known)) rfl

mutual
theorem tree_insert_written (rows : IdentitySet) (tree : ResultTree) (path : Path) (sound : tree.Sound) :
    (tree.insert rows path).2 = true ↔ ∀ entry ∈ tree.entries [], Apart entry.1 path := by
  cases tree with
  | rows old => simp [ResultTree.insert, ResultTree.entries, Apart]
  | branch children =>
      cases path with
      | nil =>
          obtain ⟨entry, inside⟩ := List.exists_mem_of_ne_nil _ (tree_entries_exist (.branch children) sound)
          simp only [ResultTree.insert, Bool.false_eq_true, false_iff]
          exact fun apart => (apart entry inside).2 List.nil_prefix
      | cons key rest =>
          rw [ResultTree.insert, ResultTree.entries]
          exact forest_insert_written rows children key rest sound.2
theorem forest_insert_written (rows : IdentitySet) (forest : ResultForest) (key : Segment) (rest : Path)
    (sound : forest.Sound) :
    (forest.insert rows key rest).2 = true ↔ ∀ entry ∈ forest.entries [], Apart entry.1 (key :: rest) := by
  cases forest with
  | nil => simp [ResultForest.insert, ResultForest.entries]
  | cons first child forest =>
      rw [ResultForest.insert]
      cases order : compare key first with
      | lt =>
          have absent : key ∉ (ResultForest.cons first child forest).keys := by
            simp only [ResultForest.keys, List.mem_cons, not_or]
            exact ⟨less_ne key first order, key_absent_below key first forest order sound.2.2⟩
          exact iff_of_true rfl (apart_forest _ key rest absent)
      | eq =>
          have isFirst : key = first := Std.LawfulEqCmp.eq_of_compare order
          subst isFirst
          have absent : key ∉ forest.keys := fun known => less_ne key key (sound.2.2 key known) rfl
          rw [entries_cons, List.forall_mem_append, apart_child, and_iff_left (apart_forest forest key rest absent)]
          exact tree_insert_written rows child rest sound.1
      | gt =>
          have different : first ≠ key := less_ne first key (Std.OrientedCmp.lt_of_gt order)
          have here : ∀ entry ∈ (child.entries []).map (underKeys [first]), Apart entry.1 (key :: rest) := by
            simp only [List.forall_mem_map, underKeys]
            exact fun entry _ => apart_keys first key entry.1 rest different
          rw [entries_cons, List.forall_mem_append, and_iff_right here]
          exact forest_insert_written rows forest key rest sound.2.1
end

mutual
theorem tree_insert_entries (rows : IdentitySet) (tree : ResultTree) (path : Path)
    (written : (tree.insert rows path).2 = true) :
    ((tree.insert rows path).1.entries []).Perm ((path, rows) :: tree.entries []) := by
  cases tree with
  | rows old => simp [ResultTree.insert] at written
  | branch children =>
      cases path with
      | nil => simp [ResultTree.insert] at written
      | cons key rest => exact forest_insert_entries rows children key rest written
theorem forest_insert_entries (rows : IdentitySet) (forest : ResultForest) (key : Segment) (rest : Path)
    (written : (forest.insert rows key rest).2 = true) :
    ((forest.insert rows key rest).1.entries []).Perm ((key :: rest, rows) :: forest.entries []) := by
  cases forest with
  | nil => simp [ResultForest.insert, entries_cons, chain_entries, ResultForest.entries, underKeys]
  | cons first child forest =>
      rw [ResultForest.insert] at written ⊢
      cases order : compare key first with
      | lt => simp [entries_cons, chain_entries, underKeys]
      | eq =>
          have isFirst : key = first := Std.LawfulEqCmp.eq_of_compare order
          subst isFirst
          simp only [order] at written
          have below := (tree_insert_entries rows child rest written).map (underKeys [key])
          rw [entries_cons, entries_cons]
          exact below.append_right _
      | gt =>
          simp only [order] at written
          have later := forest_insert_entries rows forest key rest written
          rw [entries_cons, entries_cons]
          exact (later.append_left _).trans List.perm_middle
end

mutual
theorem tree_insert_refused (rows : IdentitySet) (tree : ResultTree) (path : Path)
    (refused : (tree.insert rows path).2 = false) : (tree.insert rows path).1 = tree := by
  cases tree with
  | rows old => rfl
  | branch children =>
      cases path with
      | nil => rfl
      | cons key rest =>
          rw [ResultTree.insert] at refused ⊢
          simp only [forest_insert_refused rows children key rest refused]
theorem forest_insert_refused (rows : IdentitySet) (forest : ResultForest) (key : Segment) (rest : Path)
    (refused : (forest.insert rows key rest).2 = false) : (forest.insert rows key rest).1 = forest := by
  cases forest with
  | nil => simp [ResultForest.insert] at refused
  | cons first child forest =>
      rw [ResultForest.insert] at refused ⊢
      cases order : compare key first with
      | lt => simp [order] at refused
      | eq =>
          simp only [order] at refused
          simp only [tree_insert_refused rows child rest refused]
      | gt =>
          simp only [order] at refused
          simp only [forest_insert_refused rows forest key rest refused]
end

namespace ResultTree

def pendingEntries (trail : Trail) (pending : List (Option Nat × ResultTree)) : List Stored :=
  pending.flatMap fun waiting => waiting.2.entries (trail.spot waiting.1).reverse

theorem pending_extended (older newer : Trail) (extended : older.Extends newer)
    (pending : List (Option Nat × ResultTree)) (held : ∀ waiting ∈ pending, older.Holds waiting.1) :
    pendingEntries newer pending = pendingEntries older pending := by
  rw [pendingEntries, pendingEntries, List.flatMap_def, List.flatMap_def]
  congr 1
  refine List.map_congr_left fun waiting inside => ?_
  rw [extended.same waiting.1 (held waiting inside)]

-- What a walk knows once it has entered a branch: old positions stand, and the subtrees hold its entries.
structure Entered (parent : Option Nat) (trail : Trail) (forest : ResultForest) : Prop where
  extends_trail : trail.Extends (forest.enter parent trail).1
  held : ∀ waiting ∈ (forest.enter parent trail).2, (forest.enter parent trail).1.Holds waiting.1
  listed : pendingEntries (forest.enter parent trail).1 (forest.enter parent trail).2 =
    forest.entries (trail.spot parent).reverse

theorem enter_entered (parent : Option Nat) (trail : Trail) (forest : ResultForest) (grounded : trail.Grounded)
    (held : trail.Holds parent) : Entered parent trail forest := by
  cases forest with
  | nil => exact ⟨⟨grounded, fun _ holds => holds, fun _ _ => rfl⟩, by simp [ResultForest.enter], rfl⟩
  | cons key child forest =>
      have later := enter_entered parent trail forest grounded held
      have parentHeld := later.extends_trail.holds parent held
      have pushed := Trail.push_extends (forest.enter parent trail).1 parent key later.extends_trail.grounded parentHeld
      have spotted := Trail.push_spot (forest.enter parent trail).1 parent key later.extends_trail.grounded parentHeld
      rw [later.extends_trail.same parent held] at spotted
      constructor
      · exact Trail.extends_trans _ _ _ later.extends_trail pushed
      · intro waiting inside
        rcases List.mem_cons.mp inside with same | known
        · rw [same]
          exact Trail.push_holds _ parent key
        · exact pushed.holds _ (later.held waiting known)
      · have kept := pending_extended _ _ pushed _ later.held
        rw [later.listed] at kept
        rw [ResultForest.entries, ← kept]
        simp only [ResultForest.enter, pendingEntries, List.flatMap_cons, spotted, List.reverse_append,
          List.reverse_singleton, List.singleton_append]

theorem waiting_held (parent : Option Nat) (trail : Trail) (forest : ResultForest) (known : Entered parent trail forest)
    (rest : List (Option Nat × ResultTree)) (held : ∀ waiting ∈ rest, trail.Holds waiting.1) :
    ∀ waiting ∈ (forest.enter parent trail).2 ++ rest, (forest.enter parent trail).1.Holds waiting.1 :=
  List.forall_mem_append.mpr ⟨known.held, fun other waiting => known.extends_trail.holds _ (held other waiting)⟩

-- The walk over the links of the trail finds the entries of the recursion over the trees, in the same order.
theorem list_entries (trail : Trail) (pending : List (Option Nat × ResultTree)) (grounded : trail.Grounded)
    (held : ∀ waiting ∈ pending, trail.Holds waiting.1) : list trail pending = pendingEntries trail pending := by
  fun_induction list trail pending with
  | case1 => rfl
  | case2 trail place found rest ih =>
      rw [ih grounded fun waiting inside => held waiting (by simp [inside])]
      simp [pendingEntries, entries]
  | case3 trail place children rest entered ih =>
      have known := enter_entered place trail children grounded (held (place, .branch children) (by simp))
      have later : ∀ waiting ∈ rest, trail.Holds waiting.1 := fun waiting inside => held waiting (by simp [inside])
      rw [ih known.extends_trail.grounded (waiting_held place trail children known rest later), pendingEntries,
        List.flatMap_append]
      change pendingEntries entered.1 entered.2 ++ pendingEntries entered.1 rest = _
      rw [known.listed, pending_extended trail _ known.extends_trail rest later]
      rfl

end ResultTree

namespace Store

theorem entries_tree (store : Store) : store.entries = store.root.entries [] := by
  rw [entries, ResultTree.list_entries .empty _ Trail.empty_grounded (by simp [Trail.holds_top])]
  simp [ResultTree.pendingEntries, Trail.spot]

structure Sound (store : Store) : Prop where
  root : ∃ forest, store.root = .branch forest ∧ forest.Sound
  counted : store.size = store.entries.length

theorem empty_entries : empty.entries = [] := entries_tree empty

theorem empty_sound : empty.Sound := ⟨⟨.nil, rfl, trivial⟩, by rw [empty_entries]; rfl⟩

theorem insert_written (store : Store) (sound : store.Sound) (path : Path) (rows : IdentitySet) :
    (store.insert path rows).2 = true ↔ path ≠ [] ∧ ∀ entry ∈ store.entries, Apart entry.1 path := by
  obtain ⟨⟨forest, isForest, forestSound⟩, _⟩ := sound
  have flag : (store.insert path rows).2 = (store.root.insert rows path).2 := by
    rw [insert]
    rcases store.root.insert rows path with ⟨root, _ | _⟩ <;> rfl
  rw [flag, entries_tree, isForest, ResultTree.entries]
  cases path with
  | nil => simp [ResultTree.insert]
  | cons key rest => simpa [ResultTree.insert] using forest_insert_written rows forest key rest forestSound

theorem insert_store (store : Store) (path : Path) (rows : IdentitySet) (written : (store.insert path rows).2 = true) :
    (store.insert path rows).1 = ⟨(store.root.insert rows path).1, store.size + 1⟩ ∧
      (store.root.insert rows path).2 = true := by
  rw [insert] at written ⊢
  rcases inserted : store.root.insert rows path with ⟨root, flag⟩
  rw [inserted] at written
  cases flag with
  | true => exact ⟨rfl, rfl⟩
  | false => simp at written

theorem insert_entries (store : Store) (path : Path) (rows : IdentitySet)
    (written : (store.insert path rows).2 = true) :
    (store.insert path rows).1.entries.Perm ((path, rows) :: store.entries) := by
  obtain ⟨isInserted, treeWritten⟩ := insert_store store path rows written
  rw [isInserted, entries_tree, entries_tree]
  exact tree_insert_entries rows store.root path treeWritten

theorem insert_sound (store : Store) (sound : store.Sound) (path : Path) (rows : IdentitySet)
    (written : (store.insert path rows).2 = true) : (store.insert path rows).1.Sound := by
  have listed := (insert_entries store path rows written).length_eq
  obtain ⟨isInserted, treeWritten⟩ := insert_store store path rows written
  obtain ⟨⟨forest, isForest, forestSound⟩, counted⟩ := sound
  rw [isInserted] at listed ⊢
  refine ⟨?_, by rw [listed, List.length_cons, ← counted]⟩
  rw [isForest] at treeWritten ⊢
  cases path with
  | nil => simp [ResultTree.insert] at treeWritten
  | cons key rest => exact ⟨_, rfl, forest_insert_sound rows forest key rest forestSound⟩

end Store

end FilterPlan
