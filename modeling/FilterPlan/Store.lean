import FilterPlan.Identity
import FilterPlan.Plan.Trail

set_option autoImplicit false

namespace FilterPlan

-- A tree holds the rows of one leaf or branches by the next step of the position. The keys of a
-- forest are kept in ascending order.
mutual
inductive ResultTree where
  | rows (rows : IdentitySet)
  | branch (children : ResultForest)

inductive ResultForest where
  | nil
  | cons (key : Segment) (child : ResultTree) (rest : ResultForest)
end

def ResultTree.chain (rows : IdentitySet) : Path → ResultTree
  | [] => .rows rows
  | key :: rest => .branch (.cons key (chain rows rest) .nil)

-- Each insertion tells whether the rows were written: nothing is written over or below older rows, nor at
-- a position that has branches.
mutual
def ResultTree.insert (rows : IdentitySet) : ResultTree → Path → ResultTree × Bool
  | .branch children, key :: rest =>
      let result := children.insert rows key rest
      (.branch result.1, result.2)
  | tree, _ => (tree, false)

def ResultForest.insert (rows : IdentitySet) (key : Segment) (rest : Path) :
    ResultForest → ResultForest × Bool
  | .nil => (.cons key (ResultTree.chain rows rest) .nil, true)
  | .cons other child forest =>
      match compare key other with
      | .lt => (.cons key (ResultTree.chain rows rest) (.cons other child forest), true)
      | .eq =>
          let result := child.insert rows rest
          (.cons other result.1 forest, result.2)
      | .gt =>
          let result := forest.insert rows key rest
          (.cons other child result.1, result.2)
end

def ResultForest.find? (key : Segment) : ResultForest → Option ResultTree
  | .nil => none
  | .cons other child forest => if key = other then some child else forest.find? key

def ResultForest.keys : ResultForest → List Segment
  | .nil => []
  | .cons key _ forest => key :: forest.keys

def ResultForest.size : ResultForest → Nat
  | .nil => 0
  | .cons _ _ forest => forest.size + 1

def ResultTree.get? (tree : ResultTree) : Path → Option ResultTree
  | [] => some tree
  | key :: rest =>
      match tree with
      | .rows _ => none
      | .branch children => (children.find? key).bind fun child => child.get? rest

-- The subtrees of a branch, each with the entry of the trail that stands for its key. The last key is added first.
def ResultForest.enter (parent : Option Nat) (trail : Trail) :
    ResultForest → Trail × List (Option Nat × ResultTree)
  | .nil => (trail, [])
  | .cons key child forest =>
      let later := forest.enter parent trail
      let pushed := later.1.push parent key
      (pushed.1, (some pushed.2, child) :: later.2)

mutual
def ResultTree.weight : ResultTree → Nat
  | .rows _ => 1
  | .branch children => 2 + children.weight

def ResultForest.weight : ResultForest → Nat
  | .nil => 0
  | .cons _ child forest => 3 + 2 * child.weight + forest.weight
end

theorem ResultForest.find_weight (key : Segment) (forest : ResultForest) (tree : ResultTree)
    (found : forest.find? key = some tree) : tree.weight < forest.weight := by
  fun_induction find? key forest with
  | case1 => simp at found
  | case2 child forest =>
      cases found
      simp only [weight]
      omega
  | case3 other child forest different hypothesis =>
      have := hypothesis found
      simp only [weight]
      omega

namespace ResultTree

def weights : List (Option Nat × ResultTree) → Nat
  | [] => 0
  | (_, tree) :: rest => tree.weight + weights rest

theorem weights_append (before after : List (Option Nat × ResultTree)) :
    weights (before ++ after) = weights before + weights after := by
  induction before with
  | nil => simp [weights]
  | cons first rest hypothesis =>
      obtain ⟨place, tree⟩ := first
      rw [List.cons_append, weights, weights, hypothesis, Nat.add_assoc]

theorem enter_weights (parent : Option Nat) (trail : Trail) (forest : ResultForest) :
    weights (forest.enter parent trail).2 ≤ forest.weight := by
  cases forest with
  | nil => simp [ResultForest.enter, weights]
  | cons key child forest =>
      have later := enter_weights parent trail forest
      simp only [ResultForest.enter, weights, ResultForest.weight]
      omega

-- The rows in the pending subtrees, each at its position. The walk knows a position only through the trail.
def list (trail : Trail) (pending : List (Option Nat × ResultTree)) : List (Path × IdentitySet) :=
  match pending with
  | [] => []
  | (place, .rows found) :: rest => (trail.spot place, found) :: list trail rest
  | (place, .branch children) :: rest =>
      let entered := children.enter place trail
      list entered.1 (entered.2 ++ rest)
termination_by weights pending
decreasing_by
  · simp only [weights, weight]
    omega
  · have := enter_weights place trail children
    simp only [weights, weights_append, weight]
    omega

end ResultTree

/-- The results of one evaluation by position. Every position is written at most once. -/
structure Store where
  root : ResultTree
  size : Nat

namespace Store

def empty : Store := ⟨.branch .nil, 0⟩

def insert (store : Store) (path : Path) (rows : IdentitySet) : Store × Bool :=
  match store.root.insert rows path with
  | (root, true) => (⟨root, store.size + 1⟩, true)
  | (root, false) => (⟨root, store.size⟩, false)

def get? (store : Store) (path : Path) : Option ResultTree := store.root.get? path

def rowsAt? (store : Store) (path : Path) : Option IdentitySet :=
  match store.get? path with
  | some (.rows rows) => some rows
  | _ => none

def entries (store : Store) : List (Path × IdentitySet) := ResultTree.list .empty [(none, store.root)]

end Store

end FilterPlan
