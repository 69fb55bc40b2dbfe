import FilterPlan.Proofs.Steady
import FilterPlan.Proofs.Value

set_option autoImplicit false

namespace FilterPlan

-- What a store stands for. A branch that is the root or belongs to an operand counts through its first key only, and a
-- NOT looks at nothing but the keys of its two operands.
mutual
def ResultTree.meaning : ResultTree → Set Identity
  | .rows rows => rows.members
  | .branch children => children.firstMeaning
def ResultTree.meaningUnder (kind : SegmentKind) : ResultTree → Set Identity
  | .rows rows => rows.members
  | .branch children =>
      match kind with
      | .op .and => (meet children.meanings).getD ∅
      | .op .or => (join children.meanings).getD ∅
      | .op .not => children.operandMeaning .a \ children.operandMeaning .b
      | .operand _ => children.firstMeaning
      | .filter _ => ∅
def ResultForest.firstMeaning : ResultForest → Set Identity
  | .nil => ∅
  | .cons key child _ => child.meaningUnder key.kind
def ResultForest.meanings : ResultForest → List (Set Identity)
  | .nil => []
  | .cons key child forest => child.meaningUnder key.kind :: forest.meanings
def ResultForest.operandMeaning (side : Side) : ResultForest → Set Identity
  | .nil => ∅
  | .cons key child forest => if key = .operand side then child.meaning else forest.operandMeaning side
end

-- The operands that are missing, in depth-first order: all those below operand A of a NOT, or its own operand A, come
-- before operand B is looked at.
mutual
def ResultTree.gaps (above : Path) : ResultTree → List MergeError
  | .rows _ => []
  | .branch children => children.firstGaps above
def ResultTree.gapsUnder (here : Path) (kind : SegmentKind) : ResultTree → List MergeError
  | .rows _ => []
  | .branch children =>
      match kind with
      | .op .not => children.operandGaps here .a ++ children.operandGaps here .b
      | .op _ => children.allGaps here
      | .operand _ => children.firstGaps here
      | .filter _ => []
def ResultForest.firstGaps (above : Path) : ResultForest → List MergeError
  | .nil => []
  | .cons key child _ => child.gapsUnder (above ++ [key]) key.kind
def ResultForest.allGaps (above : Path) : ResultForest → List MergeError
  | .nil => []
  | .cons key child forest => child.gapsUnder (above ++ [key]) key.kind ++ forest.allGaps above
def ResultForest.operandGaps (here : Path) (side : Side) : ResultForest → List MergeError
  | .nil => [.missingOperand here side]
  | .cons key child forest =>
      if key = .operand side then child.gaps (here ++ [key]) else forest.operandGaps here side
end

namespace Merge

structure Settles {α : Type} (result : MissingOperandPolicy → Except MergeError α) (gaps : List MergeError)
    (value : α) : Prop where
  tolerant : result .empty = .ok value
  strict : result .reject = match gaps.head? with
    | none => .ok value
    | some error => .error error

theorem settles_done {α : Type} (value : α) : Settles (fun _ => .ok value) [] value := ⟨rfl, rfl⟩

theorem settles_bind {α β : Type} (first : MissingOperandPolicy → Except MergeError α)
    (next : MissingOperandPolicy → α → Except MergeError β) (before after : List MergeError) (value : α) (result : β)
    (settled : Settles first before value) (later : Settles (fun policy => next policy value) after result) :
    Settles (fun policy => first policy >>= next policy) (before ++ after) result := by
  constructor
  · rw [settled.tolerant]
    exact later.tolerant
  · rw [settled.strict]
    cases before with
    | nil => exact later.strict
    | cons error rest => rfl

theorem settles_map {α β : Type} (first : MissingOperandPolicy → Except MergeError α) (change : α → β)
    (gaps : List MergeError) (value : α) (settled : Settles first gaps value) :
    Settles (fun policy => first policy >>= fun found => pure (change found)) gaps (change value) := by
  have last := settles_bind first (fun _ found => pure (change found)) gaps [] value _ settled (settles_done _)
  rwa [List.append_nil] at last

theorem absent_settles (here : Path) (side : Side) :
    Settles (fun policy => absentOperand policy here side) [.missingOperand here side] .empty := ⟨rfl, rfl⟩

theorem combine_and_members (values : List IdentitySet) :
    (combine .and values).members = (meet (values.map OrderedSet.members)).getD ∅ := by
  cases values with
  | nil => exact OrderedSet.members_empty
  | cons first rest =>
      rw [combine_meet (first :: rest) (List.cons_ne_nil first rest)]
      rfl

theorem combine_or_members (values : List IdentitySet) :
    (combine .or values).members = (join (values.map OrderedSet.members)).getD ∅ := by
  cases values with
  | nil => exact OrderedSet.members_empty
  | cons first rest =>
      rw [combine_join (first :: rest) (List.cons_ne_nil first rest)]
      rfl

mutual
theorem tree_settles (above : Path) (tree : ResultTree) : ∃ merged,
    Settles (fun policy => treeValue policy above tree) (tree.gaps above) merged ∧ merged.members = tree.meaning := by
  cases tree with
  | rows rows => exact ⟨rows, settles_done rows, rfl⟩
  | branch children => exact first_settles above children
theorem entry_settles (here : Path) (kind : SegmentKind) (tree : ResultTree) : ∃ merged,
    Settles (fun policy => entryValue policy here kind tree) (tree.gapsUnder here kind) merged ∧
      merged.members = tree.meaningUnder kind := by
  cases tree with
  | rows rows => exact ⟨rows, settles_done rows, rfl⟩
  | branch children =>
      cases kind with
      | op operator =>
          cases operator with
          | not =>
              obtain ⟨a, settledA, isA⟩ := operand_settles here .a children
              obtain ⟨b, settledB, isB⟩ := operand_settles here .b children
              refine ⟨a.diff b, settles_bind _ _ _ _ a _ settledA (settles_map _ a.diff _ b settledB), ?_⟩
              rw [OrderedSet.members_diff, isA, isB]
              rfl
          | and =>
              obtain ⟨values, settled, same⟩ := entries_settle here children
              refine ⟨combine .and values, settles_map _ (combine .and) _ values settled, ?_⟩
              rw [combine_and_members, same]
              rfl
          | or =>
              obtain ⟨values, settled, same⟩ := entries_settle here children
              refine ⟨combine .or values, settles_map _ (combine .or) _ values settled, ?_⟩
              rw [combine_or_members, same]
              rfl
      | operand side => exact first_settles here children
      | filter name => exact ⟨.empty, settles_done _, OrderedSet.members_empty⟩
theorem first_settles (above : Path) (forest : ResultForest) : ∃ merged,
    Settles (fun policy => firstValue policy above forest) (forest.firstGaps above) merged ∧
      merged.members = forest.firstMeaning := by
  cases forest with
  | nil => exact ⟨.empty, settles_done _, OrderedSet.members_empty⟩
  | cons key child forest => exact entry_settles (above ++ [key]) key.kind child
theorem entries_settle (above : Path) (forest : ResultForest) : ∃ values,
    Settles (fun policy => entryValues policy above forest) (forest.allGaps above) values ∧
      values.map OrderedSet.members = forest.meanings := by
  cases forest with
  | nil => exact ⟨[], settles_done _, rfl⟩
  | cons key child forest =>
      obtain ⟨value, here, isValue⟩ := entry_settles (above ++ [key]) key.kind child
      obtain ⟨values, later, same⟩ := entries_settle above forest
      refine ⟨value :: values, settles_bind _ _ _ _ value _ here (settles_map _ (value :: ·) _ values later), ?_⟩
      rw [List.map_cons, isValue, same]
      rfl
theorem operand_settles (here : Path) (side : Side) (forest : ResultForest) : ∃ merged,
    Settles (fun policy => operandValue policy here side forest) (forest.operandGaps here side) merged ∧
      merged.members = forest.operandMeaning side := by
  cases forest with
  | nil => exact ⟨.empty, absent_settles here side, OrderedSet.members_empty⟩
  | cons key child forest =>
      by_cases same : key = .operand side
      · simp only [operandValue, ResultForest.operandGaps, ResultForest.operandMeaning, if_pos same]
        exact tree_settles (here ++ [key]) child
      · simp only [operandValue, ResultForest.operandGaps, ResultForest.operandMeaning, if_neg same]
        exact operand_settles here side forest
end

-- Whether `count` values on the stack are enough for every fold to come and leave one value in the end. Every task but
-- a fold adds one value.
def Balanced : Nat → List Task → Prop
  | count, [] => count = 1
  | count, .fold _ arity :: rest => arity ≤ count ∧ Balanced (count - arity + 1) rest
  | count, _ :: rest => Balanced (count + 1) rest

theorem balanced_entries (parent : Option Nat) (forest : ResultForest) (count : Nat) (rest : List Task) :
    Balanced count (entryTasks parent forest ++ rest) ↔ Balanced (count + forest.size) rest := by
  cases forest with
  | nil => rfl
  | cons key child forest =>
      rw [entryTasks, List.cons_append, Balanced, balanced_entries parent forest, ResultForest.size]
      · rw [Nat.add_assoc, Nat.add_comm 1]
      · simp

theorem balanced_fold (operator : Operator) (arity count : Nat) (rest : List Task) (balanced : Balanced (count + 1) rest) :
    Balanced (count + arity) (.fold operator arity :: rest) := by
  rw [Balanced, Nat.add_sub_cancel]
  exact ⟨Nat.le_add_left arity count, balanced⟩

namespace Machine

inductive Reaches (policy : MissingOperandPolicy) : Machine → Machine → Prop where
  | here (machine : Machine) : Reaches policy machine machine
  | step (trail : Trail) (values : List IdentitySet) (task : Task) (rest : List Task) (next final : Machine)
      (done : step policy ⟨trail, values, rest⟩ task = .ok next) (later : Reaches policy next final) :
      Reaches policy ⟨trail, values, task :: rest⟩ final

theorem reaches_keeps (policy : MissingOperandPolicy) (Keeps : Machine → Prop)
    (keeps : ∀ (trail : Trail) (values : List IdentitySet) (task : Task) (rest : List Task) (next : Machine),
      Keeps ⟨trail, values, task :: rest⟩ → step policy ⟨trail, values, rest⟩ task = .ok next → Keeps next)
    (machine final : Machine) (reached : Reaches policy machine final) (kept : Keeps machine) : Keeps final := by
  induction reached with
  | here machine => exact kept
  | step trail values task rest next final done later ih => exact ih (keeps trail values task rest next kept done)

theorem enter_balanced (trail : Trail) (values : List IdentitySet) (rest : List Task) (key : Segment)
    (parent : Option Nat) (value : ResultTree) (balanced : Balanced (values.length + 1) rest) :
    Balanced (enter ⟨trail, values, rest⟩ key parent value).values.length
      (enter ⟨trail, values, rest⟩ key parent value).tasks := by
  cases value with
  | rows rows => exact balanced
  | branch children =>
      cases isKind : key.kind with
      | op operator =>
          cases operator with
          | not =>
              simp only [enter, isKind]
              exact balanced_fold .not 2 values.length rest balanced
          | and | or =>
              simp only [enter, isKind]
              rw [balanced_entries]
              exact balanced_fold _ children.size values.length rest balanced
      | operand side =>
          simp only [enter, isKind]
          exact balanced
      | filter name =>
          simp only [enter, isKind]
          exact balanced

theorem step_balanced (policy : MissingOperandPolicy) (trail : Trail) (values : List IdentitySet) (task : Task)
    (rest : List Task) (next : Machine) (balanced : Balanced values.length (task :: rest))
    (done : step policy ⟨trail, values, rest⟩ task = .ok next) : Balanced next.values.length next.tasks := by
  cases task with
  | tree found parent =>
      cases done
      rcases found with rows | (_ | ⟨key, child, forest⟩) <;> exact balanced
  | entry key value parent =>
      cases done
      exact enter_balanced trail values rest key parent value balanced
  | operand children side place =>
      cases isFound : children.find? (.operand side) with
      | some found =>
          simp only [step, seek, isFound, Except.ok.injEq] at done
          subst done
          exact balanced
      | none =>
          cases policy with
          | reject => simp [step, seek, isFound] at done
          | empty =>
              simp only [step, seek, isFound, Except.ok.injEq] at done
              subst done
              exact balanced
  | fold operator arity =>
      cases done
      simpa [fold] using balanced.2

theorem reaches_balanced (policy : MissingOperandPolicy) (machine final : Machine)
    (reached : Reaches policy machine final) (balanced : Balanced machine.values.length machine.tasks) :
    Balanced final.values.length final.tasks :=
  reaches_keeps policy (fun machine => Balanced machine.values.length machine.tasks) (step_balanced policy) machine final
    reached balanced

theorem run_step (policy : MissingOperandPolicy) (trail : Trail) (values : List IdentitySet) (task : Task)
    (rest : List Task) (next : Machine) (done : step policy ⟨trail, values, rest⟩ task = .ok next) :
    run policy ⟨trail, values, task :: rest⟩ = run policy next := by
  rw [run]
  simp only
  split
  · rename_i error failed
    rw [done] at failed
    cases failed
  · rename_i other same
    rw [done] at same
    rw [Except.ok.inj same]

theorem reaches_run (policy : MissingOperandPolicy) (machine final : Machine)
    (reached : Reaches policy machine final) : machine.run policy = final.run policy := by
  induction reached with
  | here machine => rfl
  | step trail values task rest next final done later ih => exact (run_step policy trail values task rest next done).trans ih

theorem run_reaches (policy : MissingOperandPolicy) (machine : Machine) (merged : IdentitySet)
    (result : machine.run policy = .ok merged) :
    ∃ final, Reaches policy machine final ∧ final.tasks = [] ∧ final.values.headD .empty = merged := by
  fun_induction run policy machine with
  | case1 machine done => exact ⟨machine, .here machine, done, Except.ok.inj result⟩
  | case2 => cases result
  | case3 machine task rest waiting next done ih =>
      obtain ⟨final, reached, last⟩ := ih result
      obtain ⟨trail, values, tasks⟩ := machine
      subst waiting
      exact ⟨final, .step trail values task rest next final done reached, last⟩

end Machine

end Merge

theorem merge_balanced (store : Store) (policy : MissingOperandPolicy) (machine : Merge.Machine)
    (reached : Merge.Machine.Reaches policy (.start store) machine) :
    Merge.Balanced machine.values.length machine.tasks :=
  Merge.Machine.reaches_balanced policy (.start store) machine reached rfl

theorem merge_last (store : Store) (policy : MissingOperandPolicy) (merged : IdentitySet) :
    store.merge policy = .ok merged ↔ ∃ machine, Merge.Machine.Reaches policy (.start store) machine ∧
      machine.tasks = [] ∧ machine.values = [merged] := by
  constructor
  · intro result
    obtain ⟨⟨trail, values, tasks⟩, reached, done, last⟩ := Merge.Machine.run_reaches policy _ merged result
    subst done
    have balanced := merge_balanced store policy _ reached
    obtain ⟨value, rfl⟩ := List.length_eq_one_iff.mp balanced
    exact ⟨_, reached, rfl, by rw [← last]; rfl⟩
  · rintro ⟨⟨trail, values, tasks⟩, reached, rfl, rfl⟩
    rw [Store.merge, Merge.Machine.reaches_run policy _ _ reached, Merge.Machine.run]
    rfl

-- The stack machine merges every store as the recursion over its trees does: no fold lacks an operand, one value is left
-- at the end, and the strict policy fails exactly with the first missing operand.
theorem merge_refines (store : Store) :
    (∀ policy machine, Merge.Machine.Reaches policy (.start store) machine →
      ∀ operator arity rest, machine.tasks = .fold operator arity :: rest → arity ≤ machine.values.length) ∧
    (∀ policy merged, store.merge policy = .ok merged ↔
      ∃ machine, Merge.Machine.Reaches policy (.start store) machine ∧ machine.tasks = [] ∧
        machine.values = [merged]) ∧
    ∃ merged, merged.members = store.root.meaning ∧ store.merge .empty = .ok merged ∧
      store.merge .reject = match (store.root.gaps []).head? with
        | none => .ok merged
        | some error => .error error := by
  refine ⟨fun policy machine reached operator arity rest isFold => ?_, merge_last store, ?_⟩
  · have balanced := merge_balanced store policy machine reached
    rw [isFold] at balanced
    exact balanced.1
  · obtain ⟨merged, settled, same⟩ := Merge.tree_settles [] store.root
    refine ⟨merged, same, ?_, ?_⟩
    · rw [merge_value]
      exact settled.tolerant
    · rw [merge_value]
      exact settled.strict

def oddStore : Store :=
  [([⟨.op .or, 0⟩, ⟨.filter "f", 0⟩], "x"),
    ([⟨.op .or, 0⟩, ⟨.filter "f", 1⟩, ⟨.filter "g", 0⟩], "below a filter"),
    ([⟨.op .or, 0⟩, ⟨.op .not, 0⟩, ⟨.operand .b, 0⟩, ⟨.filter "f", 0⟩], "y"),
    ([⟨.op .or, 0⟩, ⟨.op .not, 0⟩, ⟨.operand .a, 1⟩, ⟨.filter "f", 0⟩], "z"),
    ([⟨.filter "h", 0⟩], "second key")].foldl
      (fun store (write : Path × String) => (store.insert write.1 (named write.2)).1) .empty

theorem merge_refines_odd :
    ∃ merged, merged.members = {⟨"x", none⟩} ∧ oddStore.merge .empty = .ok merged ∧
      oddStore.merge .reject = .error (.missingOperand [⟨.op .or, 0⟩, ⟨.op .not, 0⟩] .a) ∧
      ∃ machine, Merge.Machine.Reaches .empty (.start oddStore) machine ∧ machine.tasks = [] ∧
        machine.values = [merged] := by
  obtain ⟨_, ends, merged, same, tolerant, strict⟩ := merge_refines oddStore
  have gaps : oddStore.root.gaps [] = [.missingOperand [⟨.op .or, 0⟩, ⟨.op .not, 0⟩] .a] := by decide
  rw [gaps] at strict
  refine ⟨merged, ?_, tolerant, strict, (ends .empty merged).mp tolerant⟩
  have shape : oddStore.root.meaning = (join [∅ \ (named "y").members, (named "x").members, ∅]).getD ∅ := rfl
  rw [same, shape, named_members, named_members]
  ext identity
  simp [mem_join]

end FilterPlan
