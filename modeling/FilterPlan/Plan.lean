import FilterPlan.OrderedSet

set_option autoImplicit false

namespace FilterPlan

inductive Operator where
  | and
  | or
  | not
deriving DecidableEq, Repr

def Operator.tag : Operator → String
  | .and => "AND"
  | .or => "OR"
  | .not => "NOT"

def Operator.ofTag? (tag : String) : Option Operator :=
  if tag = "AND" then some .and
  else if tag = "OR" then some .or
  else if tag = "NOT" then some .not
  else none

structure Leaf where
  filter : String
  instruction : String
deriving DecidableEq, Repr

/-- An expression over filters. `not a b` takes the entities of `b` away from those of `a`. -/
inductive Node where
  | leaf (leaf : Leaf)
  | and (children : List Node)
  | or (children : List Node)
  | not (a b : Node)

namespace Node

mutual
def decEq : (m n : Node) → Decidable (m = n)
  | .leaf m, .leaf n => decidable_of_iff (m = n) (by simp)
  | .and ms, .and ns => match decEqAll ms ns with
      | isTrue same => isTrue (by rw [same])
      | isFalse different => isFalse (by simpa using different)
  | .or ms, .or ns => match decEqAll ms ns with
      | isTrue same => isTrue (by rw [same])
      | isFalse different => isFalse (by simpa using different)
  | .not a b, .not c d => match decEq a c, decEq b d with
      | isTrue sameA, isTrue sameB => isTrue (by rw [sameA, sameB])
      | isFalse different, _ => isFalse (by simp [different])
      | _, isFalse different => isFalse (by simp [different])
  | .leaf _, .and _ | .leaf _, .or _ | .leaf _, .not _ _
  | .and _, .leaf _ | .and _, .or _ | .and _, .not _ _
  | .or _, .leaf _ | .or _, .and _ | .or _, .not _ _
  | .not _ _, .leaf _ | .not _ _, .and _ | .not _ _, .or _ => isFalse (by simp)

def decEqAll : (ms ns : List Node) → Decidable (ms = ns)
  | [], [] => isTrue rfl
  | m :: ms, n :: ns => match decEq m n, decEqAll ms ns with
      | isTrue same, isTrue sameRest => isTrue (by rw [same, sameRest])
      | isFalse different, _ => isFalse (by simp [different])
      | _, isFalse different => isFalse (by simp [different])
  | [], _ :: _ | _ :: _, [] => isFalse (by simp)
end

instance : DecidableEq Node := decEq

mutual
def weight : Node → Nat
  | .leaf _ => 1
  | .and children => 1 + weights children
  | .or children => 1 + weights children
  | .not a b => 1 + weight a + weight b

def weights : List Node → Nat
  | [] => 0
  | node :: rest => weight node + weights rest
end

theorem weight_pos (node : Node) : 0 < node.weight := by
  cases node <;> simp only [weight] <;> omega

theorem weights_append (before after : List Node) :
    weights (before ++ after) = weights before + weights after := by
  induction before with
  | nil => simp [weights]
  | cons node rest hypothesis =>
      rw [List.cons_append, weights, weights, hypothesis]
      omega

def operator? : Node → Option Operator
  | .leaf _ => none
  | .and _ => some .and
  | .or _ => some .or
  | .not _ _ => some .not

-- The leaves of the nodes still to be visited, in document order. The pending nodes are kept in a list, so a
-- walk needs no room for the depth of the tree.
def leavesOf (pending : List Node) : List Leaf :=
  match pending with
  | [] => []
  | .leaf found :: rest => found :: leavesOf rest
  | .and children :: rest => leavesOf (children ++ rest)
  | .or children :: rest => leavesOf (children ++ rest)
  | .not a b :: rest => leavesOf (a :: b :: rest)
termination_by weights pending
decreasing_by all_goals simp only [weights, weight, weights_append]; omega

def leaves (node : Node) : List Leaf := leavesOf [node]

def descend? : Node → List Nat → Option Node
  | node, [] => some node
  | .leaf _, _ :: _ => none
  | .and children, i :: rest => (children[i]?).bind fun child => child.descend? rest
  | .or children, i :: rest => (children[i]?).bind fun child => child.descend? rest
  | .not a _, 0 :: rest => a.descend? rest
  | .not _ b, 1 :: rest => b.descend? rest
  | .not _ _, _ :: _ => none
termination_by _ steps => steps.length

end Node

structure Plan where
  root : Option Node
deriving DecidableEq

namespace Plan

def unfiltered : Plan := ⟨none⟩

def ofNode (root : Node) : Plan := ⟨some root⟩

def isUnfiltered (plan : Plan) : Bool := plan.root.isNone

def leaves (plan : Plan) : List Leaf :=
  match plan.root with
  | none => []
  | some root => root.leaves

def leafCount (plan : Plan) : Nat := plan.leaves.length

def filterNames (plan : Plan) : OrderedSet String :=
  OrderedSet.ofList (plan.leaves.map Leaf.filter)

end Plan

end FilterPlan
