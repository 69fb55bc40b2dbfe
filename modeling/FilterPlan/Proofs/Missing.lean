import FilterPlan.Proofs.NodeMerge
import FilterPlan.Proofs.Steady

set_option autoImplicit false

namespace FilterPlan

def Side.other : Side → Side
  | .a => .b
  | .b => .a

def Part.Lacks (results : List Stored) (part : Part) (side : Side) : Prop :=
  (∃ a b, part.node = .not a b) ∧ ∀ entry ∈ results, ¬ part.path ++ [.operand side] <+: entry.1

def Part.LacksOnly (results : List Stored) (part : Part) (side : Side) : Prop :=
  part.Lacks results side ∧ ¬ part.Lacks results side.other

theorem strip_outside (key : Segment) (below : Path) (results : List Stored) :
    (∀ entry ∈ results, ¬ key :: below <+: entry.1) ↔ ∀ entry ∈ strip key results, ¬ below <+: entry.1 := by
  induction results with
  | nil => simp [strip]
  | cons entry rest ih =>
      have split : strip key (entry :: rest) = strip key [entry] ++ strip key rest := strip_append key [entry] rest
      rw [split, List.forall_mem_cons, List.forall_mem_append, ih]
      obtain ⟨path, rows⟩ := entry
      cases path with
      | nil => simp [strip]
      | cons first path =>
          by_cases same : first = key
          · simp [strip, same]
          · simp [strip, same, Ne.symm same]

namespace Node

variable (rows : PlacedLeaf → Option IdentitySet)

theorem slot_outside (node : Node) (slot : Slot) (inside : slot ∈ node.slots) (below : Path) :
    (∀ entry ∈ node.results rows, ¬ slot.steps ++ below <+: entry.1) ↔
      ∀ entry ∈ slot.results rows, ¬ below <+: entry.1 := by
  rw [Slot.steps, List.cons_append, strip_outside, results_strip rows node slot inside, List.forall_mem_map]
  simp only [underKeys, List.prefix_append_right_inj]

theorem slot_nothing (node : Node) (slot : Slot) (inside : slot ∈ node.slots) :
    (∀ entry ∈ node.results rows, ¬ [slot.key] <+: entry.1) ↔ slot.results rows = [] := by
  rw [strip_outside, results_strip rows node slot inside, List.forall_mem_map]
  simp [List.eq_nil_iff_forall_not_mem]

theorem lacks_below (node : Node) (slot : Slot) (inside : slot ∈ node.slots) (part : Part) (side : Side) :
    (part.below slot.steps).Lacks (node.results rows) side ↔ part.Lacks (slot.results rows) side := by
  rw [Part.Lacks, Part.Lacks, Part.below, List.append_assoc, slot_outside rows node slot inside]

theorem lacks_only_below (node : Node) (slot : Slot) (inside : slot ∈ node.slots) (part : Part) (side : Side) :
    (part.below slot.steps).LacksOnly (node.results rows) side ↔ part.LacksOnly (slot.results rows) side := by
  rw [Part.LacksOnly, Part.LacksOnly, lacks_below rows node slot inside, lacks_below rows node slot inside]

theorem lacks_only_nothing (part : Part) (side : Side) : ¬ part.LacksOnly [] side := by
  rintro ⟨⟨isNot, _⟩, present⟩
  exact present ⟨isNot, by simp⟩

theorem lacks_top (a b : Node) (slot : Slot) (inside : slot ∈ (Node.not a b).slots) (side : Side)
    (isOperand : slot.key = .operand side) :
    Part.Lacks ((Node.not a b).results rows) ⟨[], .not a b⟩ side ↔ slot.results rows = [] := by
  rw [Part.Lacks, ← slot_nothing rows (.not a b) slot inside, isOperand]
  simp

theorem parts_lack (node : Node) (isOther : ∀ a b, node ≠ .not a b) (side : Side) :
    ¬ Part.LacksOnly (node.results rows) ⟨[], node⟩ side := by
  rintro ⟨⟨⟨a, b, isNot⟩, _⟩, _⟩
  exact isOther a b isNot

-- What the merge that rejects missing operands tells about a node: either every NOT in it has both operands or
-- none, and the result is that of the merge that does not, or the error names a NOT that lacks one operand.
structure Rejects (node : Node) (rows : PlacedLeaf → Option IdentitySet) (here : Path) (tree : ResultTree) : Prop where
  passes : ∀ merged, Merge.entryValue .reject here node.kind tree = .ok merged →
    Merge.entryValue .empty here node.kind tree = .ok merged ∧
      ∀ part ∈ node.parts, ∀ side, ¬ part.LacksOnly (node.results rows) side
  fails : ∀ path side, Merge.entryValue .reject here node.kind tree = .error (.missingOperand path side) →
    ∃ part ∈ node.parts, path = here ++ part.path ∧ part.LacksOnly (node.results rows) side

theorem parts_none (node : Node) (top : ∀ side, ¬ Part.LacksOnly (node.results rows) ⟨[], node⟩ side)
    (below : ∀ slot ∈ node.slots, ∀ part ∈ slot.child.parts, ∀ side, ¬ part.LacksOnly (slot.results rows) side) :
    ∀ part ∈ node.parts, ∀ side, ¬ part.LacksOnly (node.results rows) side := by
  intro part inside side lacks
  rw [parts_slots] at inside
  rcases List.mem_cons.mp inside with same | inside
  · rw [same] at lacks
    exact top side lacks
  · obtain ⟨slot, known, listed⟩ := List.mem_flatMap.mp inside
    obtain ⟨inner, isPart, rfl⟩ := List.mem_map.mp listed
    exact below slot known inner isPart side ((lacks_only_below rows node slot known inner side).mp lacks)

theorem parts_some (node : Node) (slot : Slot) (known : slot ∈ node.slots) (here path : Path) (side : Side)
    (below : ∃ part ∈ slot.child.parts, path = here ++ slot.steps ++ part.path ∧
      part.LacksOnly (slot.results rows) side) :
    ∃ part ∈ node.parts, path = here ++ part.path ∧ part.LacksOnly (node.results rows) side := by
  obtain ⟨part, inside, isPath, lacks⟩ := below
  refine ⟨part.below slot.steps, ?_, ?_, (lacks_only_below rows node slot known part side).mpr lacks⟩
  · rw [parts_slots]
    exact List.mem_cons_of_mem _ (List.mem_flatMap.mpr ⟨slot, known, List.mem_map_of_mem inside⟩)
  · rw [isPath, Part.below, List.append_assoc]

theorem siblings_reject (node : Node) (inner : node.operator? ≠ none) (isOther : ∀ a b, node ≠ .not a b)
    (children : List Node) (isSiblings : node.slots = siblingSlots [] children) (here : Path) (forest : ResultForest)
    (recorded : forest.Records (node.results rows)) (fold : List IdentitySet → IdentitySet)
    (folds : ∀ policy, Merge.entryValue policy here node.kind (.branch forest) =
      (Merge.entryValues policy here forest).map fold)
    (rejects : ∀ slot ∈ node.slots, ∀ below tree, tree.Records (slot.results rows) →
      slot.child.Rejects (fun placed => rows (placed.below slot.steps)) below tree) :
    node.Rejects rows here (.branch forest) := by
  have each : ∀ key child, (key, child) ∈ forest.pairs → ∃ slot ∈ node.slots, slot.steps = [key] ∧
      key.kind = slot.child.kind ∧
        slot.child.Rejects (fun placed => rows (placed.below slot.steps)) (here ++ [key]) child := by
    intro key child inside
    obtain ⟨slot, known, isKey, sameKind, below⟩ :=
      Merge.sibling_slot rows node inner children isSiblings forest recorded key child inside
    exact ⟨slot, known, isKey, sameKind, rejects slot known _ child below⟩
  constructor
  · intro merged isMerged
    rw [folds] at isMerged ⊢
    cases listed : Merge.entryValues .reject here forest with
    | error error => simp [listed, Except.map] at isMerged
    | ok values =>
        have passed := (Merge.entry_values_ok .reject here forest).mp ⟨values, listed⟩
        have agree : Merge.entryValues .reject here forest = Merge.entryValues .empty here forest := by
          refine Merge.entry_values_agree _ _ here forest fun key child inside => ?_
          obtain ⟨value, isValue⟩ := passed key child inside
          obtain ⟨slot, _, _, sameKind, known⟩ := each key child inside
          rw [sameKind] at isValue ⊢
          rw [isValue, (known.passes value isValue).1]
        refine ⟨by rw [← agree]; exact isMerged, parts_none rows node (parts_lack rows node isOther) ?_⟩
        intro slot known part inside side
        rcases Merge.sibling_found rows node children isSiblings forest recorded slot known with
          nothing | ⟨child, stored, below⟩
        · rw [nothing]
          exact lacks_only_nothing part side
        · obtain ⟨value, isValue⟩ := passed slot.key child stored
          rw [(sibling_slot_key [] children slot (isSiblings ▸ known)).2] at isValue
          exact ((rejects slot known _ child below).passes value isValue).2 part inside side
  · intro path side failed
    rw [folds] at failed
    cases listed : Merge.entryValues .reject here forest with
    | ok values => simp [listed, Except.map] at failed
    | error error =>
        have same : error = .missingOperand path side := by simpa [listed, Except.map] using failed
        obtain ⟨key, child, inside, below⟩ := Merge.entry_values_error .reject here forest error listed
        obtain ⟨slot, known, isKey, sameKind, rejected⟩ := each key child inside
        rw [sameKind, same] at below
        refine parts_some rows node slot known here path side ?_
        rw [isKey]
        exact rejected.fails path side below

structure Slot.OperandRejects (slot : Slot) (rows : PlacedLeaf → Option IdentitySet) (here : Path) (side : Side)
    (forest : ResultForest) : Prop where
  passes : ∀ merged, Merge.operandValue .reject here side forest = .ok merged →
    Merge.operandValue .empty here side forest = .ok merged ∧ slot.results rows ≠ [] ∧
      ∀ part ∈ slot.child.parts, ∀ lost, ¬ part.LacksOnly (slot.results rows) lost
  fails : ∀ path lost, Merge.operandValue .reject here side forest = .error (.missingOperand path lost) →
    (slot.results rows = [] ∧ path = here ∧ lost = side) ∨ ∃ part ∈ slot.child.parts,
      path = here ++ slot.steps ++ part.path ∧ part.LacksOnly (slot.results rows) lost

theorem operand_reject (node : Node) (here : Path) (forest : ResultForest)
    (recorded : forest.Records (node.results rows)) (slot : Slot) (known : slot ∈ node.slots) (side : Side)
    (isOperand : slot.key = .operand side) (single : slot.rest = [.first slot.child.kind])
    (rejects : ∀ below tree, tree.Records (slot.results rows) →
      slot.child.Rejects (fun placed => rows (placed.below slot.steps)) below tree) :
    slot.OperandRejects rows here side forest := by
  rcases Merge.operand_found rows node forest recorded slot known side isOperand single with
    ⟨nothing, absent⟩ | ⟨child, below, same⟩
  · constructor
    · intro merged isMerged
      simp [absent, Merge.absentOperand] at isMerged
    · intro path lost failed
      rw [absent, Merge.absentOperand] at failed
      obtain ⟨isHere, isSide⟩ := MergeError.missingOperand.inj (Except.error.inj failed)
      exact Or.inl ⟨nothing, isHere.symm, isSide.symm⟩
  · have rejected := rejects (here ++ slot.steps) child below
    constructor
    · intro merged isMerged
      rw [same] at isMerged ⊢
      obtain ⟨tolerated, none⟩ := rejected.passes merged isMerged
      exact ⟨tolerated, records_exist child _ below, none⟩
    · intro path lost failed
      rw [same] at failed
      exact Or.inr (rejected.fails path lost failed)

theorem not_reject (a b : Node) (here : Path) (forest : ResultForest)
    (recorded : forest.Records ((Node.not a b).results rows)) (some_result : (Node.not a b).results rows ≠ [])
    (rejects : ∀ slot ∈ (Node.not a b).slots, ∀ below tree, tree.Records (slot.results rows) →
      slot.child.Rejects (fun placed => rows (placed.below slot.steps)) below tree) :
    (Node.not a b).Rejects rows here (.branch forest) := by
  let slotA : Slot := ⟨.operand .a, [.first a.kind], a⟩
  let slotB : Slot := ⟨.operand .b, [.first b.kind], b⟩
  have knownA : slotA ∈ (Node.not a b).slots := by simp [slots, slotA]
  have knownB : slotB ∈ (Node.not a b).slots := by simp [slots, slotB]
  have fromA := operand_reject rows _ here forest recorded slotA knownA .a rfl rfl (rejects slotA knownA)
  have fromB := operand_reject rows _ here forest recorded slotB knownB .b rfl rfl (rejects slotB knownB)
  have lacksA := lacks_top rows a b slotA knownA .a rfl
  have lacksB := lacks_top rows a b slotB knownB .b rfl
  have merge (policy : MissingOperandPolicy) : Merge.entryValue policy here (Node.not a b).kind (.branch forest) =
      Merge.operandValue policy here .a forest >>= fun x =>
        Merge.operandValue policy here .b forest >>= fun y => pure (x.diff y) := by
    rw [kind, Merge.entryValue]
  constructor
  · intro merged isMerged
    rw [merge] at isMerged
    cases isA : Merge.operandValue .reject here .a forest with
    | error error => simp [isA, bind, Except.bind] at isMerged
    | ok x =>
        cases isB : Merge.operandValue .reject here .b forest with
        | error error => simp [isA, isB, bind, Except.bind] at isMerged
        | ok y =>
            obtain ⟨sameA, someA, noneA⟩ := fromA.passes x isA
            obtain ⟨sameB, someB, noneB⟩ := fromB.passes y isB
            rw [isA, isB] at isMerged
            refine ⟨by rw [merge, sameA, sameB]; exact isMerged, parts_none rows _ ?_ ?_⟩
            · rintro (_ | _) lacks
              · exact someA (lacksA.mp lacks.1)
              · exact someB (lacksB.mp lacks.1)
            · simp only [slots, List.forall_mem_cons]
              exact ⟨noneA, noneB, by simp⟩
  · intro path side failed
    have top : (⟨[], .not a b⟩ : Part) ∈ (Node.not a b).parts := by simp [parts]
    rw [merge] at failed
    cases isA : Merge.operandValue .reject here .a forest with
    | error error =>
        have same : error = .missingOperand path side := by simpa [isA, bind, Except.bind] using failed
        rcases fromA.fails path side (same ▸ isA) with ⟨noA, isHere, isSide⟩ | below
        · refine ⟨⟨[], .not a b⟩, top, by simp [isHere], ?_⟩
          rw [isSide]
          refine ⟨lacksA.mpr noA, fun lacks => some_result ?_⟩
          rw [results_nothing rows _ (by simp [operator?])]
          simp only [slots, List.forall_mem_cons]
          exact ⟨noA, lacksB.mp lacks, by simp⟩
        · exact parts_some rows _ slotA knownA here path side below
    | ok x =>
        cases isB : Merge.operandValue .reject here .b forest with
        | ok y => simp [isA, isB, bind, Except.bind, pure, Except.pure] at failed
        | error error =>
            have same : error = .missingOperand path side := by simpa [isA, isB, bind, Except.bind] using failed
            rcases fromB.fails path side (same ▸ isB) with ⟨noB, isHere, isSide⟩ | below
            · refine ⟨⟨[], .not a b⟩, top, by simp [isHere], ?_⟩
              rw [isSide]
              exact ⟨lacksB.mpr noB, fun lacks => (fromA.passes x isA).2.1 (lacksA.mp lacks)⟩
            · exact parts_some rows _ slotB knownB here path side below

theorem node_reject (node : Node) : ∀ (rows : PlacedLeaf → Option IdentitySet) (here : Path) (tree : ResultTree),
    tree.Records (node.results rows) → node.Rejects rows here tree := by
  induction node using induct_slots with
  | leaf found =>
      intro rows here tree recorded
      rw [results_leaf] at recorded
      cases answered : rows ⟨[], found⟩ with
      | none => exact absurd (by simp [answered]) (records_exist tree _ recorded)
      | some set =>
          simp only [answered, Option.map_some, Option.toList_some] at recorded
          rw [records_rows tree set recorded]
          constructor
          · intro merged isMerged
            refine ⟨isMerged, parts_none rows _ (parts_lack rows _ (by simp)) (by simp [slots])⟩
          · intro path side failed
            simp [Merge.entryValue] at failed
  | operator node inner ih =>
      intro rows here tree recorded
      have exists_some := records_exist tree _ recorded
      obtain ⟨forest, rfl, stored⟩ := records_branch tree _ recorded (results_deep rows node inner)
      have rejects : ∀ slot ∈ node.slots, ∀ below tree, tree.Records (slot.results rows) →
          slot.child.Rejects (fun placed => rows (placed.below slot.steps)) below tree :=
        fun slot known => ih slot known _
      cases node with
      | leaf found => simp [operator?] at inner
      | and children =>
          refine siblings_reject rows _ inner (by simp) children rfl here forest stored (Merge.combine .and)
            (fun policy => ?_) rejects
          simp only [kind, Merge.entryValue]
          cases Merge.entryValues policy here forest <;> rfl
      | or children =>
          refine siblings_reject rows _ inner (by simp) children rfl here forest stored (Merge.combine .or)
            (fun policy => ?_) rejects
          simp only [kind, Merge.entryValue]
          cases Merge.entryValues policy here forest <;> rfl
      | not a b => exact not_reject rows a b here forest stored exists_some rejects

end Node

def Plan.parts (plan : Plan) : List Part :=
  match plan.root with
  | none => []
  | some root => root.parts.map (.below [.first root.kind])

theorem lacks_stored (store : Store) (results : List Stored) (key : Segment)
    (recorded : store.Records (results.map (underKeys [key]))) (part : Part) (side : Side) :
    (part.below [key]).Lacks store.entries side ↔ part.Lacks results side := by
  have shifted : (∀ entry ∈ store.entries, ¬ [key] ++ part.path ++ [.operand side] <+: entry.1) ↔
      ∀ entry ∈ results, ¬ part.path ++ [.operand side] <+: entry.1 := by
    simp only [recorded.listed.mem_iff, List.forall_mem_map, underKeys, List.append_assoc,
      List.prefix_append_right_inj]
  rw [Part.Lacks, Part.Lacks, Part.below, shifted]

theorem lacks_only_stored (store : Store) (results : List Stored) (key : Segment)
    (recorded : store.Records (results.map (underKeys [key]))) (part : Part) (side : Side) :
    (part.below [key]).LacksOnly store.entries side ↔ part.LacksOnly results side := by
  rw [Part.LacksOnly, Part.LacksOnly, lacks_stored store results key recorded, lacks_stored store results key recorded]

theorem empty_merged (policy : MissingOperandPolicy) : Store.empty.merge policy = .ok .empty := by
  rw [merge_value, Store.empty, Merge.treeValue, Merge.firstValue]

namespace Evaluation

variable {σ : Type}

structure Judged (plan : Plan) (store : Store) : Prop where
  passes : ∀ merged, store.merge .reject = .ok merged →
    store.merge .empty = .ok merged ∧ ∀ part ∈ plan.parts, ∀ side, ¬ part.LacksOnly store.entries side
  fails : ∀ path side, store.merge .reject = .error (.missingOperand path side) →
    ∃ part ∈ plan.parts, part.path = path ∧ part.LacksOnly store.entries side

theorem evaluated_judged (evaluation : Evaluation σ) (world : World σ) (store : Store)
    (stored : (evaluation.evaluate world).result = .ok store) : Judged evaluation.plan store := by
  cases planned : evaluation.plan.root with
  | none =>
      have isEmpty : store = .empty := by
        rw [evaluate, planned] at stored
        exact (Except.ok.inj stored).symm
      subst isEmpty
      constructor
      · intro merged isMerged
        rw [empty_merged] at isMerged ⊢
        exact ⟨isMerged, by simp [Plan.parts, planned]⟩
      · intro path side failed
        simp [empty_merged] at failed
  | some root =>
      rw [evaluate_root evaluation root planned] at stored
      obtain ⟨rows, recorded⟩ := evaluation.stored_results root world store stored
      have isParts : evaluation.plan.parts = root.parts.map (.below [.first root.kind]) := by
        rw [Plan.parts, planned]
      have lacks := lacks_only_stored store _ _ recorded
      rcases store_merged store root rows recorded with ⟨nothing, merged⟩ | ⟨tree, below, merged⟩
      · constructor
        · intro found isMerged
          rw [merged] at isMerged ⊢
          refine ⟨isMerged, ?_⟩
          rw [isParts, List.forall_mem_map]
          intro part _ side
          rw [lacks, nothing]
          exact Node.lacks_only_nothing part side
        · intro path side failed
          simp [merged] at failed
      · have rejected := root.node_reject rows [.first root.kind] tree below
        constructor
        · intro found isMerged
          rw [merged] at isMerged ⊢
          obtain ⟨tolerated, none⟩ := rejected.passes found isMerged
          refine ⟨tolerated, ?_⟩
          rw [isParts, List.forall_mem_map]
          intro part inside side
          rw [lacks]
          exact none part inside side
        · intro path side failed
          rw [merged] at failed
          obtain ⟨part, inside, isPath, only⟩ := rejected.fails path side failed
          exact ⟨part.below [.first root.kind], isParts ▸ List.mem_map_of_mem inside, isPath.symm,
            (lacks part side).mpr only⟩

theorem evaluate_willing (evaluation : Evaluation σ) (skips : evaluation.engine.config.missingFilter = .skip)
    (unlimited : evaluation.engine.deadline.limitMs = none)
    (willing : evaluation.registry.Willing evaluation.engine.serve) (world : World σ) :
    ∃ store, (evaluation.evaluate world).result = .ok store := by
  cases planned : evaluation.plan.root with
  | none =>
      refine ⟨.empty, ?_⟩
      rw [evaluate, planned]
      rfl
  | some root =>
      obtain ⟨results, answered⟩ := evaluation.answered_willing unlimited willing
        ((root.placedLeaves []).filter evaluation.knows) (fun placed inside => (List.mem_filter.mp inside).2) world
      obtain ⟨store, stored, _⟩ := evaluation.evaluate_node_answered root [] world (Or.inl skips) results answered
      rw [← evaluate_root evaluation root planned] at stored
      exact ⟨store, stored⟩

-- The merge that rejects missing operands fails exactly when some NOT has results for one of its operands and none
-- for the other. It does not see a NOT that has no results at all, so it fails for every missing operand exactly
-- if such a NOT never comes without one of the other kind.
theorem reject_half_missing (evaluation : Evaluation σ) (skips : evaluation.engine.config.missingFilter = .skip)
    (willing : evaluation.registry.Willing evaluation.engine.serve) :
    (evaluation.engine.deadline.limitMs = none → ∀ world, ∃ store, (evaluation.evaluate world).result = .ok store) ∧
      ∀ world store, (evaluation.evaluate world).result = .ok store →
        ((∃ path side, store.merge .reject = .error (.missingOperand path side)) ↔
          ∃ part ∈ evaluation.plan.parts, ∃ side, part.LacksOnly store.entries side) ∧
        (∀ merged, store.merge .reject = .ok merged → store.merge .empty = .ok merged) ∧
        (((∃ path side, store.merge .reject = .error (.missingOperand path side)) ↔
            ∃ part ∈ evaluation.plan.parts, ∃ side, part.Lacks store.entries side) ↔
          ((∃ part ∈ evaluation.plan.parts, ∃ side, part.Lacks store.entries side) →
            ∃ part ∈ evaluation.plan.parts, ∃ side, part.LacksOnly store.entries side)) := by
  refine ⟨fun unlimited => evaluation.evaluate_willing skips unlimited willing, fun world store stored => ?_⟩
  have judged := evaluation.evaluated_judged world store stored
  have rejects : (∃ path side, store.merge .reject = .error (.missingOperand path side)) ↔
      ∃ part ∈ evaluation.plan.parts, ∃ side, part.LacksOnly store.entries side := by
    constructor
    · rintro ⟨path, side, failed⟩
      obtain ⟨part, inside, _, only⟩ := judged.fails path side failed
      exact ⟨part, inside, side, only⟩
    · rintro ⟨part, inside, side, only⟩
      cases result : store.merge .reject with
      | ok merged => exact absurd only ((judged.passes merged result).2 part inside side)
      | error error =>
          obtain ⟨path, lost⟩ := error
          exact ⟨path, lost, rfl⟩
  have weaker : (∃ part ∈ evaluation.plan.parts, ∃ side, part.LacksOnly store.entries side) →
      ∃ part ∈ evaluation.plan.parts, ∃ side, part.Lacks store.entries side := by
    rintro ⟨part, inside, side, only⟩
    exact ⟨part, inside, side, only.1⟩
  refine ⟨rejects, fun merged isMerged => (judged.passes merged isMerged).1, ?_⟩
  rw [rejects]
  exact ⟨fun same => same.mpr, fun stronger => ⟨weaker, stronger⟩⟩

def halfNode : Node := .or [.leaf ⟨"f", "x"⟩, .not (.leaf ⟨"f", "y"⟩) (.leaf ⟨"g", "z"⟩)]

theorem reject_half_missing_operand :
    (namedEvaluation halfNode).engine.config.missingFilter = .skip ∧
      (namedEvaluation halfNode).registry.Willing (namedEvaluation halfNode).engine.serve ∧
      (namedEvaluation halfNode).engine.deadline.limitMs = none ∧
      ∃ store, ((namedEvaluation halfNode).evaluate ⟨(), 0⟩).result = .ok store ∧
        ∃ path side, store.merge .reject = .error (.missingOperand path side) := by
  have willing := Registry.steady_willing _ _ _ (named_steady halfNode)
  obtain ⟨succeeds, judges⟩ := (namedEvaluation halfNode).reject_half_missing rfl willing
  obtain ⟨store, stored⟩ := succeeds rfl ⟨(), 0⟩
  obtain ⟨rejects, _⟩ := judges ⟨(), 0⟩ store stored
  refine ⟨rfl, willing, rfl, store, stored, rejects.mpr ?_⟩
  obtain ⟨other, result, recorded⟩ := named_stored halfNode ⟨(), 0⟩
  have same : other = store := Except.ok.inj (result.symm.trans stored)
  subst same
  refine ⟨⟨[⟨.op .or, 0⟩, ⟨.op .not, 0⟩], .not (.leaf ⟨"f", "y"⟩) (.leaf ⟨"g", "z"⟩)⟩, ?_, .b, ?_⟩
  · simp [namedEvaluation, ofPlan, Plan.parts, Plan.ofNode, halfNode, Node.parts, Node.partsAmong, Part.below,
      Node.kind, Segment.first]
  · have listed : namedResults halfNode = [([⟨.op .or, 0⟩, ⟨.filter "f", 0⟩], named "x"),
        ([⟨.op .or, 0⟩, ⟨.op .not, 0⟩, ⟨.operand .a, 0⟩, ⟨.filter "f", 0⟩], named "y")] := rfl
    simp [Part.LacksOnly, Part.Lacks, Side.other, recorded.listed.mem_iff, listed, Segment.operand, Segment.first]

def bothNode : Node := .and [.leaf ⟨"f", "x"⟩, .not (.leaf ⟨"g", "y"⟩) (.leaf ⟨"g", "z"⟩)]

theorem reject_both_missing :
    ∃ store merged, ((namedEvaluation bothNode).evaluate ⟨(), 0⟩).result = .ok store ∧
      store.merge .reject = .ok merged ∧
      ∃ part ∈ (namedEvaluation bothNode).plan.parts, part.Lacks store.entries .a ∧ part.Lacks store.entries .b := by
  obtain ⟨store, stored, recorded⟩ := named_stored bothNode ⟨(), 0⟩
  have listed : namedResults bothNode = [([⟨.op .and, 0⟩, ⟨.filter "f", 0⟩], named "x")] := rfl
  let lost : Part := ⟨[⟨.op .and, 0⟩, ⟨.op .not, 0⟩], .not (.leaf ⟨"g", "y"⟩) (.leaf ⟨"g", "z"⟩)⟩
  have lacks (side : Side) : lost.Lacks store.entries side := by
    simp [lost, Part.Lacks, recorded.listed.mem_iff, listed]
  have inside : lost ∈ (namedEvaluation bothNode).plan.parts := by
    simp [lost, namedEvaluation, ofPlan, Plan.parts, Plan.ofNode, bothNode, Node.parts, Node.partsAmong, Part.below,
      Node.kind, Segment.first]
  cases result : store.merge .reject with
  | ok merged => exact ⟨store, merged, stored, result, lost, inside, lacks .a, lacks .b⟩
  | error error =>
      obtain ⟨path, side⟩ := error
      obtain ⟨part, listedPart, _, ⟨⟨a, b, isNot⟩, _⟩, present⟩ :=
        ((namedEvaluation bothNode).evaluated_judged ⟨(), 0⟩ store stored).fails path side result
      have isLost : part = lost := by
        simp only [namedEvaluation, ofPlan, Plan.parts, Plan.ofNode, bothNode, Node.parts,
          Node.partsAmong] at listedPart
        simp [Part.below, Node.kind, Segment.first, Segment.operand] at listedPart
        rcases listedPart with same | same | same | same | same <;> simp_all [lost]
      exact absurd (isLost ▸ lacks side.other) present

end Evaluation

end FilterPlan
