import FilterPlan.Store.Merge
import FilterPlan.Proofs.Trail

set_option autoImplicit false

namespace FilterPlan

namespace Merge

def absentOperand (policy : MissingOperandPolicy) (here : Path) (side : Side) : Except MergeError IdentitySet :=
  match policy with
  | .empty => .ok .empty
  | .reject => .error (.missingOperand here side)

-- The merge of a store as a recursion over its trees. A branch that stands for no operator is merged through
-- its first key; `above` is the position of the branch at hand and `here` that of the entry at hand.
mutual
def treeValue (policy : MissingOperandPolicy) (above : Path) : ResultTree → Except MergeError IdentitySet
  | .rows rows => .ok rows
  | .branch children => firstValue policy above children

def entryValue (policy : MissingOperandPolicy) (here : Path) (kind : SegmentKind) :
    ResultTree → Except MergeError IdentitySet
  | .rows rows => .ok rows
  | .branch children =>
      match kind with
      | .op .not => do
          let a ← operandValue policy here .a children
          let b ← operandValue policy here .b children
          return a.diff b
      | .op operator => do
          let values ← entryValues policy here children
          return combine operator values
      | .operand _ => firstValue policy here children
      | .filter _ => .ok .empty

def firstValue (policy : MissingOperandPolicy) (above : Path) : ResultForest → Except MergeError IdentitySet
  | .nil => .ok .empty
  | .cons key child _ => entryValue policy (above ++ [key]) key.kind child

def entryValues (policy : MissingOperandPolicy) (above : Path) :
    ResultForest → Except MergeError (List IdentitySet)
  | .nil => .ok []
  | .cons key child forest => do
      let value ← entryValue policy (above ++ [key]) key.kind child
      let values ← entryValues policy above forest
      return value :: values

def operandValue (policy : MissingOperandPolicy) (here : Path) (side : Side) :
    ResultForest → Except MergeError IdentitySet
  | .nil => absentOperand policy here side
  | .cons key child forest =>
      if key = .operand side then treeValue policy (here ++ [key]) child
      else operandValue policy here side forest
end

def Task.value (policy : MissingOperandPolicy) (trail : Trail) : Task → Except MergeError IdentitySet
  | .tree found parent => treeValue policy (trail.spot parent) found
  | .entry key value parent => entryValue policy (trail.spot parent ++ [key]) key.kind value
  | .operand children side place => operandValue policy (trail.spot (some place)) side children
  | .fold _ _ => .ok .empty

def finish (policy : MissingOperandPolicy) (trail : Trail) :
    List IdentitySet → List Task → Except MergeError IdentitySet
  | values, [] => .ok (values.headD .empty)
  | values, .fold operator arity :: rest =>
      finish policy trail (combine operator (values.take arity).reverse :: values.drop arity) rest
  | values, task :: rest => do
      let value ← task.value policy trail
      finish policy trail (value :: values) rest

def Task.Held (trail : Trail) : Task → Prop
  | .tree _ parent | .entry _ _ parent => trail.Holds parent
  | .operand _ _ place => trail.Holds (some place)
  | .fold _ _ => True

theorem held_extended (older newer : Trail) (extended : older.Extends newer) (task : Task)
    (held : task.Held older) : task.Held newer := by
  cases task with
  | tree tree parent => exact extended.holds parent held
  | entry key value parent => exact extended.holds parent held
  | operand children side place => exact extended.holds (some place) held
  | fold operator arity => trivial

theorem value_extended (policy : MissingOperandPolicy) (older newer : Trail) (extended : older.Extends newer)
    (task : Task) (held : task.Held older) : task.value policy newer = task.value policy older := by
  cases task with
  | tree tree parent => rw [Task.value, Task.value, extended.same parent held]
  | entry key value parent => rw [Task.value, Task.value, extended.same parent held]
  | operand children side place => rw [Task.value, Task.value, extended.same (some place) held]
  | fold operator arity => rfl

theorem finish_extended (policy : MissingOperandPolicy) (older newer : Trail) (extended : older.Extends newer)
    (values : List IdentitySet) (tasks : List Task) (held : ∀ task ∈ tasks, task.Held older) :
    finish policy newer values tasks = finish policy older values tasks := by
  fun_induction finish policy newer values tasks with
  | case1 values => rfl
  | case2 values operator arity rest ih =>
      rw [finish]
      exact ih fun task inside => held task (by simp [inside])
  | case3 values task rest inner ih =>
      have later : ∀ other ∈ rest, other.Held older := fun other inside => held other (by simp [inside])
      rw [value_extended policy older newer extended task (held task (by simp)), finish]
      · exact bind_congr fun value => ih value later
      · exact inner

theorem entry_values_cons (policy : MissingOperandPolicy) (above : Path) (key : Segment) (child : ResultTree)
    (forest : ResultForest) (values : List IdentitySet) :
    entryValues policy above (.cons key child forest) = .ok values ↔
      ∃ value rest, entryValue policy (above ++ [key]) key.kind child = .ok value ∧
        entryValues policy above forest = .ok rest ∧ values = value :: rest := by
  rw [entryValues]
  cases entryValue policy (above ++ [key]) key.kind child with
  | error error => simp [bind, Except.bind]
  | ok value =>
      cases entryValues policy above forest with
      | error error => simp [bind, Except.bind]
      | ok rest => simp [bind, Except.bind, pure, Except.pure, eq_comm]

theorem entry_values_length (policy : MissingOperandPolicy) (above : Path) (forest : ResultForest)
    (values : List IdentitySet) (merged : entryValues policy above forest = .ok values) :
    values.length = forest.size := by
  cases forest with
  | nil =>
      simp only [entryValues, Except.ok.injEq] at merged
      simp [← merged, ResultForest.size]
  | cons key child forest =>
      obtain ⟨value, rest, _, others, rfl⟩ := (entry_values_cons policy above key child forest values).mp merged
      rw [List.length_cons, entry_values_length policy above forest rest others, ResultForest.size]

theorem operand_value_find (policy : MissingOperandPolicy) (here : Path) (side : Side) (forest : ResultForest) :
    operandValue policy here side forest =
      match forest.find? (.operand side) with
      | some found => treeValue policy (here ++ [.operand side]) found
      | none => absentOperand policy here side := by
  cases forest with
  | nil => simp [operandValue, ResultForest.find?]
  | cons key child forest =>
      by_cases same : key = .operand side
      · simp [operandValue, ResultForest.find?, same]
      · rw [operandValue, if_neg same, ResultForest.find?, if_neg (Ne.symm same)]
        exact operand_value_find policy here side forest

theorem entry_tasks_finish (policy : MissingOperandPolicy) (trail : Trail) (parent : Option Nat)
    (values : List IdentitySet) (forest : ResultForest) (rest : List Task) :
    finish policy trail values (entryTasks parent forest ++ rest) =
      entryValues policy (trail.spot parent) forest >>= fun found =>
        finish policy trail (found.reverse ++ values) rest := by
  cases forest with
  | nil => rfl
  | cons key child forest =>
      rw [entryTasks, List.cons_append, finish, Task.value, entryValues]
      · simp only [bind_assoc, pure_bind]
        refine bind_congr fun value => ?_
        rw [entry_tasks_finish policy trail parent (value :: values) forest rest]
        simp
      · simp

theorem entry_tasks_held (trail : Trail) (parent : Option Nat) (forest : ResultForest)
    (held : trail.Holds parent) : ∀ task ∈ entryTasks parent forest, task.Held trail := by
  cases forest with
  | nil => simp [entryTasks]
  | cons key child forest =>
      intro task inside
      rcases List.mem_cons.mp inside with same | later
      · rw [same]
        exact held
      · exact entry_tasks_held trail parent forest held task later

theorem fold_finish (policy : MissingOperandPolicy) (trail : Trail) (operator : Operator)
    (found values : List IdentitySet) (rest : List Task) :
    finish policy trail (found.reverse ++ values) (.fold operator found.length :: rest) =
      finish policy trail (combine operator found :: values) rest := by
  rw [finish, List.take_left' (by simp), List.drop_left' (by simp), List.reverse_reverse]

theorem finish_tree (policy : MissingOperandPolicy) (trail : Trail) (values : List IdentitySet)
    (tree : ResultTree) (parent : Option Nat) (rest : List Task) :
    finish policy trail values (.tree tree parent :: rest) =
      treeValue policy (trail.spot parent) tree >>= fun value => finish policy trail (value :: values) rest := rfl

theorem finish_entry (policy : MissingOperandPolicy) (trail : Trail) (values : List IdentitySet) (key : Segment)
    (value : ResultTree) (parent : Option Nat) (rest : List Task) :
    finish policy trail values (.entry key value parent :: rest) =
      entryValue policy (trail.spot parent ++ [key]) key.kind value >>= fun value =>
        finish policy trail (value :: values) rest := rfl

theorem finish_operand (policy : MissingOperandPolicy) (trail : Trail) (values : List IdentitySet)
    (children : ResultForest) (side : Side) (place : Nat) (rest : List Task) :
    finish policy trail values (.operand children side place :: rest) =
      operandValue policy (trail.spot (some place)) side children >>= fun value =>
        finish policy trail (value :: values) rest := rfl

structure Pushed (policy : MissingOperandPolicy) (trail : Trail) (parent : Option Nat) (key : Segment)
    (rest : List Task) : Prop where
  grounded : (trail.push parent key).1.Grounded
  spotted : (trail.push parent key).1.spot (some (trail.push parent key).2) = trail.spot parent ++ [key]
  inside : (trail.push parent key).1.Holds (some (trail.push parent key).2)
  later : ∀ task ∈ rest, task.Held (trail.push parent key).1
  kept : ∀ values, finish policy (trail.push parent key).1 values rest = finish policy trail values rest

theorem push_pushed (policy : MissingOperandPolicy) (trail : Trail) (parent : Option Nat) (key : Segment)
    (task : Task) (rest : List Task) (grounded : trail.Grounded) (parentHeld : trail.Holds parent)
    (held : ∀ other ∈ task :: rest, other.Held trail) : Pushed policy trail parent key rest := by
  have extended := Trail.push_extends trail parent key grounded parentHeld
  have later : ∀ other ∈ rest, other.Held trail := fun other inside => held other (by simp [inside])
  exact ⟨extended.grounded, Trail.push_spot trail parent key grounded parentHeld, Trail.push_holds trail parent key,
    fun other inside => held_extended _ _ extended other (later other inside),
    fun values => finish_extended policy _ _ extended values rest later⟩

namespace Machine

structure Ready (machine : Machine) : Prop where
  grounded : machine.trail.Grounded
  held : ∀ task ∈ machine.tasks, task.Held machine.trail

structure Follows (policy : MissingOperandPolicy) (machine next : Machine) : Prop where
  ready : next.Ready
  same : finish policy next.trail next.values next.tasks = finish policy machine.trail machine.values machine.tasks

theorem later_held (task : Task) (trail : Trail) (values : List IdentitySet) (rest : List Task)
    (ready : Ready ⟨trail, values, task :: rest⟩) : ∀ other ∈ rest, other.Held trail := by
  intro other inside
  exact ready.held other (List.mem_cons_of_mem task inside)

theorem visit_follows (policy : MissingOperandPolicy) (trail : Trail) (values : List IdentitySet) (rest : List Task)
    (parent : Option Nat) (tree : ResultTree) (ready : Ready ⟨trail, values, .tree tree parent :: rest⟩) :
    Follows policy ⟨trail, values, .tree tree parent :: rest⟩ (visit ⟨trail, values, rest⟩ parent tree) := by
  have later := later_held _ trail values rest ready
  have parentHeld : trail.Holds parent := ready.held (.tree tree parent) (by simp)
  rcases tree with rows | (_ | ⟨key, child, forest⟩)
  · exact ⟨⟨ready.grounded, later⟩, rfl⟩
  · exact ⟨⟨ready.grounded, later⟩, rfl⟩
  · refine ⟨⟨ready.grounded, ?_⟩, rfl⟩
    simp only [visit, List.forall_mem_cons]
    exact ⟨parentHeld, later⟩

theorem enter_follows (policy : MissingOperandPolicy) (trail : Trail) (values : List IdentitySet) (rest : List Task)
    (key : Segment) (parent : Option Nat) (value : ResultTree)
    (ready : Ready ⟨trail, values, .entry key value parent :: rest⟩) :
    Follows policy ⟨trail, values, .entry key value parent :: rest⟩ (enter ⟨trail, values, rest⟩ key parent value) := by
  have known := push_pushed policy trail parent key _ rest ready.grounded (ready.held _ List.mem_cons_self) ready.held
  cases value with
  | rows rows => exact ⟨⟨known.grounded, known.later⟩, known.kept _⟩
  | branch children =>
      cases isKind : key.kind with
      | op operator =>
          cases operator with
          | not =>
              simp only [enter, isKind]
              refine ⟨⟨known.grounded, ?_⟩, ?_⟩
              · simp only [List.forall_mem_cons]
                exact ⟨known.inside, known.inside, trivial, known.later⟩
              · rw [finish_entry, finish_operand, known.spotted]
                simp only [entryValue, isKind, bind_assoc, pure_bind]
                refine bind_congr fun a => ?_
                rw [finish_operand, known.spotted]
                refine bind_congr fun b => ?_
                rw [← known.kept]
                rfl
          | and | or =>
              simp only [enter, isKind]
              refine ⟨⟨known.grounded, ?_⟩, ?_⟩
              · simp only [List.forall_mem_append, List.forall_mem_cons]
                exact ⟨entry_tasks_held _ _ children known.inside, trivial, known.later⟩
              · rw [entry_tasks_finish, known.spotted, finish_entry]
                simp only [entryValue, isKind, bind_assoc, pure_bind]
                cases found : entryValues policy (trail.spot parent ++ [key]) children with
                | error error => rfl
                | ok listed =>
                    simp only [← entry_values_length policy _ children listed found]
                    exact (fold_finish policy _ _ listed values rest).trans (known.kept _)
      | operand side =>
          simp only [enter, isKind]
          refine ⟨⟨known.grounded, ?_⟩, ?_⟩
          · simp only [List.forall_mem_cons]
            exact ⟨known.inside, known.later⟩
          · rw [finish_tree, known.spotted, finish_entry]
            simp only [entryValue, isKind, treeValue]
            exact bind_congr fun value => known.kept _
      | filter name =>
          simp only [enter, isKind]
          refine ⟨⟨known.grounded, known.later⟩, ?_⟩
          rw [known.kept, finish_entry]
          simp only [entryValue, isKind]
          rfl

theorem seek_follows (policy : MissingOperandPolicy) (trail : Trail) (values : List IdentitySet) (rest : List Task)
    (children : ResultForest) (side : Side) (place : Nat) (next : Machine)
    (ready : Ready ⟨trail, values, .operand children side place :: rest⟩)
    (done : seek policy ⟨trail, values, rest⟩ children side place = .ok next) :
    Follows policy ⟨trail, values, .operand children side place :: rest⟩ next := by
  have known := push_pushed policy trail (some place) (.operand side) _ rest ready.grounded
    (ready.held _ List.mem_cons_self) ready.held
  cases isFound : children.find? (.operand side) with
  | some found =>
      simp only [seek, isFound, Except.ok.injEq] at done
      subst done
      refine ⟨⟨known.grounded, ?_⟩, ?_⟩
      · simp only [List.forall_mem_cons]
        exact ⟨known.inside, known.later⟩
      · rw [finish_tree, known.spotted, finish_operand, operand_value_find]
        simp only [isFound]
        exact bind_congr fun value => known.kept _
  | none =>
      cases policy with
      | reject => simp [seek, isFound] at done
      | empty =>
          simp only [seek, isFound, Except.ok.injEq] at done
          subst done
          refine ⟨⟨ready.grounded, later_held _ trail values rest ready⟩, ?_⟩
          rw [finish_operand, operand_value_find]
          simp only [isFound]
          rfl

theorem step_follows (policy : MissingOperandPolicy) (trail : Trail) (values : List IdentitySet) (task : Task)
    (rest : List Task) (next : Machine) (ready : Ready ⟨trail, values, task :: rest⟩)
    (done : step policy ⟨trail, values, rest⟩ task = .ok next) :
    Follows policy ⟨trail, values, task :: rest⟩ next := by
  cases task with
  | tree found parent =>
      cases done
      exact visit_follows policy trail values rest parent found ready
  | entry key value parent =>
      cases done
      exact enter_follows policy trail values rest key parent value ready
  | operand children side place => exact seek_follows policy trail values rest children side place next ready done
  | fold operator arity =>
      cases done
      exact ⟨⟨ready.grounded, later_held _ trail values rest ready⟩, rfl⟩

theorem step_fails (policy : MissingOperandPolicy) (trail : Trail) (values : List IdentitySet) (task : Task)
    (rest : List Task) (error : MergeError) (failed : step policy ⟨trail, values, rest⟩ task = .error error) :
    finish policy trail values (task :: rest) = .error error := by
  cases task with
  | tree found parent => cases failed
  | entry key value parent => cases failed
  | fold operator arity => cases failed
  | operand children side place =>
      rw [finish_operand, operand_value_find]
      cases isFound : children.find? (.operand side) with
      | some found => simp [step, seek, isFound] at failed
      | none =>
          cases policy with
          | empty => simp [step, seek, isFound] at failed
          | reject =>
              simp only [step, seek, isFound] at failed
              cases failed
              rfl

-- Doing a task and its subtasks in turn is the same as taking its value at once.
theorem run_finish (policy : MissingOperandPolicy) (machine : Machine) (ready : machine.Ready) :
    machine.run policy = finish policy machine.trail machine.values machine.tasks := by
  fun_induction run policy machine with
  | case1 machine done => rw [done, finish]
  | case2 machine task rest waiting error failed =>
      rw [waiting]
      exact (step_fails policy machine.trail machine.values task rest error failed).symm
  | case3 machine task rest waiting next done ih =>
      obtain ⟨trail, values, tasks⟩ := machine
      subst waiting
      have follows := step_follows policy trail values task rest next ready done
      rw [ih follows.ready, follows.same]

theorem start_ready (store : Store) : (start store).Ready :=
  ⟨Trail.empty_grounded, by simp [start, Task.Held, Trail.holds_top]⟩

end Machine

end Merge

theorem merge_value (store : Store) (policy : MissingOperandPolicy) :
    store.merge policy = Merge.treeValue policy [] store.root := by
  rw [Store.merge, Merge.Machine.run_finish policy _ (Merge.Machine.start_ready store)]
  exact bind_pure (Merge.treeValue policy [] store.root)

end FilterPlan
