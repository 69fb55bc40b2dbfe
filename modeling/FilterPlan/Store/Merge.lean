import FilterPlan.Failure
import FilterPlan.Plan.Trail
import FilterPlan.Policy
import FilterPlan.Store

set_option autoImplicit false

namespace FilterPlan

inductive MergeError where
  | missingOperand (path : Path) (side : Side)
deriving DecidableEq, Repr

namespace MergeError

def message : MergeError → String
  | .missingOperand path side => "NOT at '" ++ path.text ++ "' has no result for operand " ++ side.label

def failureClass : MergeError → FailureClass
  | .missingOperand _ _ => .unsupportedPlanShape

def failure (error : MergeError) : Failure := ⟨error.failureClass, .merge, error.message⟩

end MergeError

namespace Merge

-- One unit of the fold over a store. An operator leaves a `fold` below the tasks of its operands, so their
-- values are on top of the value stack when the fold is reached.
inductive Task where
  | tree (tree : ResultTree) (parent : Option Nat)
  | entry (key : Segment) (value : ResultTree) (parent : Option Nat)
  | operand (children : ResultForest) (side : Side) (place : Nat)
  | fold (operator : Operator) (arity : Nat)

def entryTasks (parent : Option Nat) : ResultForest → List Task
  | .nil => []
  | .cons key child forest => .entry key child parent :: entryTasks parent forest

def combine : Operator → List IdentitySet → IdentitySet
  | .and, [] => .empty
  | .and, first :: rest => rest.foldl OrderedSet.inter first
  | .or, operands => operands.foldl OrderedSet.union .empty
  | .not, a :: b :: _ => a.diff b
  | .not, [a] => a
  | .not, [] => .empty

def Task.weight : Task → Nat
  | .tree found _ => found.weight
  | .entry _ value _ => 3 + 2 * value.weight
  | .operand children _ _ => 1 + children.weight
  | .fold _ _ => 1

def weights : List Task → Nat
  | [] => 0
  | task :: rest => task.weight + weights rest

theorem weights_append (before after : List Task) : weights (before ++ after) = weights before + weights after := by
  induction before with
  | nil => simp [weights]
  | cons task rest hypothesis =>
      rw [List.cons_append, weights, weights, hypothesis, Nat.add_assoc]

theorem entry_tasks_weights (parent : Option Nat) (forest : ResultForest) :
    weights (entryTasks parent forest) = forest.weight := by
  fun_induction entryTasks parent forest with
  | case1 => rfl
  | case2 key child forest hypothesis => rw [weights, Task.weight, hypothesis, ResultForest.weight]

-- What a merge holds between two tasks. The newest value is the first of `values`.
structure Machine where
  trail : Trail
  values : List IdentitySet
  tasks : List Task

namespace Machine

def give (machine : Machine) (value : IdentitySet) : Machine :=
  ⟨machine.trail, value :: machine.values, machine.tasks⟩

def visit (machine : Machine) (parent : Option Nat) : ResultTree → Machine
  | .rows rows => machine.give rows
  | .branch .nil => machine.give .empty
  | .branch (.cons key child _) =>
      ⟨machine.trail, machine.values, .entry key child parent :: machine.tasks⟩

def enter (machine : Machine) (key : Segment) (parent : Option Nat) (value : ResultTree) : Machine :=
  let pushed := machine.trail.push parent key
  match value with
  | .rows rows => ⟨pushed.1, rows :: machine.values, machine.tasks⟩
  | .branch children =>
      match key.kind with
      | .op .not =>
          ⟨pushed.1, machine.values,
            .operand children .a pushed.2 :: .operand children .b pushed.2 :: .fold .not 2 :: machine.tasks⟩
      | .op operator =>
          ⟨pushed.1, machine.values,
            entryTasks (some pushed.2) children ++ .fold operator children.size :: machine.tasks⟩
      | .operand _ => ⟨pushed.1, machine.values, .tree (.branch children) (some pushed.2) :: machine.tasks⟩
      | .filter _ => ⟨pushed.1, .empty :: machine.values, machine.tasks⟩

def seek (policy : MissingOperandPolicy) (machine : Machine) (children : ResultForest) (side : Side)
    (place : Nat) : Except MergeError Machine :=
  match children.find? (.operand side) with
  | some found =>
      let pushed := machine.trail.push (some place) (.operand side)
      .ok ⟨pushed.1, machine.values, .tree found (some pushed.2) :: machine.tasks⟩
  | none =>
      match policy with
      | .empty => .ok (machine.give .empty)
      | .reject => .error (.missingOperand (machine.trail.path [] place) side)

def fold (machine : Machine) (operator : Operator) (arity : Nat) : Machine :=
  ⟨machine.trail, combine operator (machine.values.take arity).reverse :: machine.values.drop arity,
    machine.tasks⟩

-- Does one task; the machine holds the other ones.
def step (policy : MissingOperandPolicy) (machine : Machine) : Task → Except MergeError Machine
  | .tree found parent => .ok (machine.visit parent found)
  | .entry key value parent => .ok (machine.enter key parent value)
  | .operand children side place => machine.seek policy children side place
  | .fold operator arity => .ok (machine.fold operator arity)

theorem visit_weight (machine : Machine) (parent : Option Nat) (tree : ResultTree) :
    weights (machine.visit parent tree).tasks < tree.weight + weights machine.tasks := by
  rcases tree with rows | (_ | ⟨key, child, forest⟩)
  all_goals simp only [visit, give, weights, Task.weight, ResultTree.weight, ResultForest.weight]
  all_goals omega

theorem enter_weight (machine : Machine) (key : Segment) (parent : Option Nat) (value : ResultTree) :
    weights (machine.enter key parent value).tasks < 3 + 2 * value.weight + weights machine.tasks := by
  obtain ⟨kind, ordinal⟩ := key
  rcases value with rows | children
  · simp only [enter]
    omega
  · rcases kind with (_ | _ | _) | side | name
    all_goals simp only [enter, weights, weights_append, Task.weight, ResultTree.weight, entry_tasks_weights]
    all_goals omega

theorem step_weight (policy : MissingOperandPolicy) (machine next : Machine) (task : Task)
    (done : step policy machine task = .ok next) : weights next.tasks < task.weight + weights machine.tasks := by
  cases task with
  | tree found parent =>
      cases done
      exact machine.visit_weight parent found
  | entry key value parent =>
      cases done
      exact machine.enter_weight key parent value
  | operand children side place =>
      simp only [step, seek] at done
      split at done
      · rename_i found isFound
        have := ResultForest.find_weight _ _ _ isFound
        cases done
        simp only [weights, Task.weight]
        omega
      · cases policy with
        | empty =>
            cases done
            simp only [give, Task.weight]
            omega
        | reject => cases done
  | fold operator arity =>
      cases done
      simp only [fold, Task.weight]
      omega

-- Does the tasks in turn. The result is the newest value that is left at the end.
def run (policy : MissingOperandPolicy) (machine : Machine) : Except MergeError IdentitySet :=
  match _waiting : machine.tasks with
  | [] => .ok (machine.values.headD .empty)
  | task :: rest =>
      match _done : step policy ⟨machine.trail, machine.values, rest⟩ task with
      | .error error => .error error
      | .ok next => run policy next
termination_by weights machine.tasks
decreasing_by
  rw [_waiting]
  exact step_weight policy _ next task _done

def start (store : Store) : Machine := ⟨.empty, [], [.tree store.root none]⟩

end Machine

end Merge

/-- Folds a store into one set. Rows stand for themselves; a branch without an operator is merged through its
first key; `AND` intersects and `OR` unites the values of all keys, in the order of the keys; `NOT` takes
operand B away from operand A. -/
def Store.merge (store : Store) (policy : MissingOperandPolicy) : Except MergeError IdentitySet :=
  (Merge.Machine.start store).run policy

end FilterPlan
