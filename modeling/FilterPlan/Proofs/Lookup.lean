import FilterPlan.Proofs.Results

set_option autoImplicit false

namespace FilterPlan

theorem mem_strip (key : Segment) (results : List Stored) (below : Stored) :
    below ∈ strip key results ↔ underKeys [key] below ∈ results := by
  rw [strip, List.mem_filterMap]
  constructor
  · rintro ⟨⟨path, rows⟩, inside, stripped⟩
    cases path with
    | nil => simp at stripped
    | cons first rest =>
        by_cases same : first = key
        · subst same
          simp only [if_pos, Option.some.injEq] at stripped
          rw [← stripped]
          exact inside
        · simp [same] at stripped
  · intro inside
    exact ⟨underKeys [key] below, inside, by simp [underKeys]⟩

theorem find_sound (forest : ResultForest) (sound : forest.Sound) (key : Segment) (child : ResultTree)
    (found : forest.find? key = some child) : child.Sound :=
  pairs_sound forest sound key child ((find_pairs forest sound key child).mp found)

theorem entries_below (forest : ResultForest) (sound : forest.Sound) (key : Segment) (rest : Path)
    (rows : IdentitySet) : (key :: rest, rows) ∈ forest.entries [] ↔
      ∃ child, forest.find? key = some child ∧ (rest, rows) ∈ child.entries [] := by
  have stripped := mem_strip key (forest.entries []) (rest, rows)
  rw [find_entries forest sound key] at stripped
  change _ ↔ (key :: rest, rows) ∈ forest.entries [] at stripped
  rw [← stripped]
  cases forest.find? key with
  | none => simp
  | some child => simp

theorem entries_deep (forest : ResultForest) (rows : IdentitySet) : ([], rows) ∉ forest.entries [] := by
  intro inside
  obtain ⟨key, _, rest, start⟩ := entries_keys forest _ inside
  simp at start

theorem rows_step (forest : ResultForest) (sound : forest.Sound) (key : Segment) (rest : Path) (rows : IdentitySet)
    (below : ∀ child : ResultTree, child.Sound →
      (child.get? rest = some (.rows rows) ↔ (rest, rows) ∈ child.entries [])) :
    (ResultTree.branch forest).get? (key :: rest) = some (.rows rows) ↔ (key :: rest, rows) ∈ forest.entries [] := by
  rw [entries_below forest sound]
  simp only [ResultTree.get?, Option.bind_eq_some_iff]
  refine exists_congr fun child => and_congr_right fun found => ?_
  exact below child (find_sound forest sound key child found)

theorem get_rows (path : Path) (rows : IdentitySet) (tree : ResultTree) (sound : tree.Sound) :
    tree.get? path = some (.rows rows) ↔ (path, rows) ∈ tree.entries [] := by
  induction path generalizing tree with
  | nil =>
      cases tree with
      | rows old => simp [ResultTree.get?, ResultTree.entries, eq_comm]
      | branch children => exact iff_of_false (by simp [ResultTree.get?]) (entries_deep children rows)
  | cons key rest ih =>
      cases tree with
      | rows old => simp [ResultTree.get?, ResultTree.entries]
      | branch children => exact rows_step children sound.2 key rest rows ih

theorem root_rows (forest : ResultForest) (sound : forest.Sound) (path : Path) (rows : IdentitySet) :
    (ResultTree.branch forest).get? path = some (.rows rows) ↔ (path, rows) ∈ forest.entries [] := by
  cases path with
  | nil => exact iff_of_false (by simp [ResultTree.get?]) (entries_deep forest rows)
  | cons key rest => exact rows_step forest sound key rest rows fun child => get_rows rest rows child

theorem branch_step (forest : ResultForest) (sound : forest.Sound) (key : Segment) (rest : Path)
    (below : ∀ child : ResultTree, child.Sound → ((∃ children, child.get? rest = some (.branch children)) ↔
      ∃ entry ∈ child.entries [], rest <+: entry.1 ∧ rest ≠ entry.1)) :
    (∃ children, (ResultTree.branch forest).get? (key :: rest) = some (.branch children)) ↔
      ∃ entry ∈ forest.entries [], key :: rest <+: entry.1 ∧ key :: rest ≠ entry.1 := by
  simp only [ResultTree.get?, Option.bind_eq_some_iff]
  constructor
  · rintro ⟨children, child, found, isBranch⟩
    obtain ⟨⟨path, rows⟩, inside, above, different⟩ :=
      (below child (find_sound forest sound key child found)).mp ⟨children, isBranch⟩
    refine ⟨(key :: path, rows), (entries_below forest sound key path rows).mpr ⟨child, found, inside⟩, ?_, ?_⟩
    · exact (List.prefix_cons_inj key).mpr above
    · simpa using different
  · rintro ⟨⟨path, rows⟩, inside, ⟨tail, rfl⟩, different⟩
    rw [List.cons_append] at inside different
    obtain ⟨child, found, listed⟩ := (entries_below forest sound key _ rows).mp inside
    obtain ⟨children, isBranch⟩ := (below child (find_sound forest sound key child found)).mpr
      ⟨(rest ++ tail, rows), listed, List.prefix_append rest tail, by simpa using different⟩
    exact ⟨children, child, found, isBranch⟩

-- No branch below the root is empty, so branches stand exactly above the rows.
theorem get_branch (path : Path) (tree : ResultTree) (sound : tree.Sound) :
    (∃ children, tree.get? path = some (.branch children)) ↔
      ∃ entry ∈ tree.entries [], path <+: entry.1 ∧ path ≠ entry.1 := by
  induction path generalizing tree with
  | nil =>
      cases tree with
      | rows old => simp [ResultTree.get?, ResultTree.entries]
      | branch children =>
          refine iff_of_true ⟨children, rfl⟩ ?_
          obtain ⟨entry, inside⟩ := List.exists_mem_of_ne_nil _ (tree_entries_exist _ sound)
          obtain ⟨key, _, rest, start⟩ := entries_keys children entry inside
          exact ⟨entry, inside, List.nil_prefix, by simp [start]⟩
  | cons key rest ih =>
      cases tree with
      | rows old => simp [ResultTree.get?, ResultTree.entries]
      | branch children => exact branch_step children sound.2 key rest ih

theorem root_branch (forest : ResultForest) (sound : forest.Sound) (path : Path) :
    (∃ children, (ResultTree.branch forest).get? path = some (.branch children)) ↔
      path = [] ∨ ∃ entry ∈ forest.entries [], path <+: entry.1 ∧ path ≠ entry.1 := by
  cases path with
  | nil => simp [ResultTree.get?]
  | cons key rest =>
      rw [branch_step forest sound key rest fun child => get_branch rest child]
      simp

theorem compare_under (key : Segment) (p q : Path) : compare (key :: p) (key :: q) = compare p q := by
  change List.compareLex compare (key :: p) (key :: q) = List.compareLex compare p q
  rw [List.compareLex_cons_cons, compare_self]
  rfl

theorem compare_first (a b : Segment) (p q : Path) (less : compare a b = .lt) :
    compare (a :: p) (b :: q) = .lt := by
  change List.compareLex compare (a :: p) (b :: q) = .lt
  rw [List.compareLex_cons_cons, less]
  rfl

mutual
theorem tree_entries_ascending (tree : ResultTree) (sound : tree.Sound) :
    (tree.entries []).Pairwise fun p q => compare p.1 q.1 = .lt := by
  cases tree with
  | rows rows => simp [ResultTree.entries]
  | branch children => exact forest_entries_ascending children sound.2
theorem forest_entries_ascending (forest : ResultForest) (sound : forest.Sound) :
    (forest.entries []).Pairwise fun p q => compare p.1 q.1 = .lt := by
  cases forest with
  | nil => simp [ResultForest.entries]
  | cons key child forest =>
      rw [entries_cons, List.pairwise_append, List.pairwise_map]
      refine ⟨?_, forest_entries_ascending forest sound.2.1, ?_⟩
      · refine (tree_entries_ascending child sound.1).imp fun {p q} less => ?_
        exact (compare_under key p.1 q.1).trans less
      · simp only [List.forall_mem_map]
        intro p _ q inside
        obtain ⟨other, known, rest, start⟩ := entries_keys forest q inside
        rw [start]
        exact compare_first key other p.1 rest (sound.2.2 other known)
end

theorem find_absent (forest : ResultForest) (key : Segment) (absent : key ∉ forest.keys) : forest.find? key = none :=
  Decidable.byContradiction fun found => absent ((keys_find forest key).mpr found)

-- The first key is the least one, so two sound forests that find the same trees start with the same key.
theorem find_first (first other : Segment) (child tree : ResultTree) (forest rest : ResultForest)
    (sound : (ResultForest.cons other tree rest).Sound)
    (same : ∀ key, (ResultForest.cons first child forest).find? key = (ResultForest.cons other tree rest).find? key) :
    ¬ compare first other = .lt := by
  intro less
  have absent : first ∉ (ResultForest.cons other tree rest).keys := by
    simp only [ResultForest.keys, List.mem_cons, not_or]
    exact ⟨less_ne first other less, key_absent_below first other rest less sound.2.2⟩
  have found := same first
  rw [find_absent _ first absent] at found
  simp [ResultForest.find?] at found

theorem find_same (left right : ResultForest) (soundLeft : left.Sound) (soundRight : right.Sound)
    (same : ∀ key, left.find? key = right.find? key) : left = right := by
  cases left with
  | nil =>
      cases right with
      | nil => rfl
      | cons key child forest =>
          have found := same key
          simp [ResultForest.find?] at found
  | cons first child forest =>
      cases right with
      | nil =>
          have found := same first
          simp [ResultForest.find?] at found
      | cons other tree rest =>
          have isFirst : first = other := by
            cases order : compare first other with
            | lt => exact absurd order (find_first first other child tree forest rest soundRight same)
            | eq => exact Std.LawfulEqCmp.eq_of_compare order
            | gt =>
                have less := Std.OrientedCmp.lt_of_gt order
                exact absurd less (find_first other first tree child rest forest soundLeft fun key => (same key).symm)
          subst isFirst
          have here := same first
          simp only [ResultForest.find?, if_true, Option.some.injEq] at here
          have later : forest = rest := by
            refine find_same forest rest soundLeft.2.1 soundRight.2.1 fun key => ?_
            by_cases isKey : key = first
            · subst isKey
              rw [find_absent forest key fun known => less_ne key key (soundLeft.2.2 key known) rfl,
                find_absent rest key fun known => less_ne key key (soundRight.2.2 key known) rfl]
            · simpa [ResultForest.find?, isKey] using same key
          rw [here, later]

mutual
theorem tree_unique (left right : ResultTree) (results : List Stored) (recordedLeft : left.Records results)
    (recordedRight : right.Records results) : left = right := by
  cases left with
  | rows rows =>
      have single : [([], rows)] = results := List.singleton_perm.mp recordedLeft.listed
      rw [← single] at recordedRight
      exact (records_rows right rows recordedRight).symm
  | branch children =>
      have deep : ∀ entry ∈ results, entry.1 ≠ [] := by
        intro entry inside
        obtain ⟨key, _, rest, start⟩ := entries_keys children entry (recordedLeft.listed.mem_iff.mpr inside)
        simp [start]
      obtain ⟨forest, rfl, recorded⟩ := records_branch right results recordedRight deep
      rw [forest_unique children forest results ⟨recordedLeft.sound.2, recordedLeft.listed⟩ recorded]
termination_by left.weight
decreasing_by
  subst_vars
  simp only [ResultTree.weight]
  omega
theorem forest_unique (left right : ResultForest) (results : List Stored) (recordedLeft : left.Records results)
    (recordedRight : right.Records results) : left = right := by
  refine find_same left right recordedLeft.sound recordedRight.sound fun key => ?_
  cases foundLeft : left.find? key with
  | none =>
      have nothing := (records_missing left results recordedLeft key).mp foundLeft
      exact ((records_missing right results recordedRight key).mpr nothing).symm
  | some child =>
      have below := records_found left results recordedLeft key child foundLeft
      cases foundRight : right.find? key with
      | none =>
          have nothing := (records_missing right results recordedRight key).mp foundRight
          exact absurd nothing (records_exist child _ below)
      | some other =>
          have otherBelow := records_found right results recordedRight key other foundRight
          rw [tree_unique child other _ below otherBelow]
termination_by left.weight
decreasing_by exact ResultForest.find_weight key left child foundLeft
end

namespace Store

theorem records_unique (store other : Store) (results : List Stored) (recorded : store.Records results)
    (otherRecorded : other.Records results) : store = other := by
  obtain ⟨forest, isForest, below⟩ := store_records store results recorded
  obtain ⟨rest, isRest, otherBelow⟩ := store_records other results otherRecorded
  have sameSize : store.size = other.size := by
    rw [recorded.sound.counted, otherRecorded.sound.counted, recorded.listed.length_eq,
      otherRecorded.listed.length_eq]
  have sameRoot : store.root = other.root := by
    rw [isForest, isRest, forest_unique forest rest results below otherBelow]
  cases store
  cases other
  simp_all

theorem entries_ascending (store : Store) (sound : store.Sound) :
    store.entries.Pairwise fun p q => compare p.1 q.1 = .lt := by
  obtain ⟨⟨forest, isForest, forestSound⟩, _⟩ := sound
  rw [entries_tree, isForest]
  exact forest_entries_ascending forest forestSound

theorem rows_at_iff (store : Store) (sound : store.Sound) (path : Path) (rows : IdentitySet) :
    store.rowsAt? path = some rows ↔ (path, rows) ∈ store.entries := by
  have found : store.rowsAt? path = some rows ↔ store.get? path = some (.rows rows) := by
    rw [rowsAt?]
    cases store.get? path with
    | none => simp
    | some tree => cases tree <;> simp
  obtain ⟨⟨forest, isForest, forestSound⟩, _⟩ := sound
  rw [found, entries_tree, get?, isForest]
  exact root_rows forest forestSound path rows

theorem get_branch_iff (store : Store) (sound : store.Sound) (path : Path) :
    (∃ children, store.get? path = some (.branch children)) ↔
      path = [] ∨ ∃ entry ∈ store.entries, path <+: entry.1 ∧ path ≠ entry.1 := by
  obtain ⟨⟨forest, isForest, forestSound⟩, _⟩ := sound
  rw [entries_tree, get?, isForest]
  exact root_branch forest forestSound path

end Store

end FilterPlan
