import FilterPlan.Plan.Path

set_option autoImplicit false

namespace FilterPlan

-- The steps that a walk has taken, each with the entry it was taken from. A walk adds one entry for a node
-- and spells out a position only where one is needed.
structure Trail where
  links : Array (Option Nat × Segment)

namespace Trail

def empty : Trail := ⟨#[]⟩

def push (trail : Trail) (parent : Option Nat) (segment : Segment) : Trail × Nat :=
  let place := trail.links.size
  (⟨trail.links.push (parent, segment)⟩, place)

-- Follows the links up from `place`, putting each step in front of `below`. There is no answer when the links
-- go on for more than `moves` moves.
def climb (trail : Trail) : Nat → Option Nat → Path → Option Path
  | _, none, below => some below
  | 0, some _, _ => none
  | moves + 1, some place, below =>
      match trail.links[place]? with
      | none => some below
      | some (parent, segment) => climb trail moves parent (segment :: below)

-- The position below `base` that an entry stands for. A link leads to an earlier entry, so the climb takes no
-- more moves than there are entries.
def path (trail : Trail) (base : Path) (place : Nat) : Path :=
  base ++ (trail.climb (trail.links.size + 1) (some place) []).getD []

def spot (trail : Trail) : Option Nat → Path
  | none => []
  | some place => trail.path [] place

end Trail

structure Visit where
  node : Node
  segment : Segment
  parent : Option Nat

namespace Visit

def weights (visits : List Visit) : Nat := Node.weights (visits.map Visit.node)

-- Enters a node: adds its step to the trail and lists the visits of its children in document order. The
-- operands of a `NOT` lie below entries of their own.
def enter (visit : Visit) (trail : Trail) : Trail × Nat × List Visit :=
  let (trail, here) := trail.push visit.parent visit.segment
  match visit.node with
  | .leaf _ => (trail, here, [])
  | .and children | .or children =>
      (trail, here, List.zipWith (fun child segment => ⟨child, segment, some here⟩)
        children (siblingSegments children))
  | .not a b =>
      let (trail, sideB) := trail.push (some here) (.operand .b)
      let (trail, sideA) := trail.push (some here) (.operand .a)
      (trail, here, [⟨a, .first a.kind, some sideA⟩, ⟨b, .first b.kind, some sideB⟩])

theorem weights_append (before after : List Visit) :
    weights (before ++ after) = weights before + weights after := by
  simp [weights, Node.weights_append]

theorem zip_nodes (here : Option Nat) (children : List Node) (segments : List Segment)
    (enough : segments.length = children.length) :
    (List.zipWith (fun child segment => (⟨child, segment, here⟩ : Visit)) children segments).map Visit.node
      = children := by
  induction children generalizing segments with
  | nil => simp
  | cons child rest hypothesis =>
      cases segments with
      | nil => simp at enough
      | cons segment segments =>
          simp only [List.length_cons, Nat.add_right_cancel_iff] at enough
          simp [hypothesis segments enough]

theorem enter_weights (visit : Visit) (trail : Trail) :
    weights (visit.enter trail).2.2 < visit.node.weight := by
  obtain ⟨node, segment, parent⟩ := visit
  cases node with
  | leaf leaf => simp [enter, weights, Node.weights, Node.weight]
  | and children =>
      simp only [enter, weights, Node.weight]
      rw [zip_nodes _ _ (siblingSegments children) (number_siblings_length [] children)]
      omega
  | or children =>
      simp only [enter, weights, Node.weight]
      rw [zip_nodes _ _ (siblingSegments children) (number_siblings_length [] children)]
      omega
  | not a b =>
      simp only [enter, weights, Node.weight, List.map_cons, List.map_nil, Node.weights]
      omega

end Visit

structure PlacedLeaf where
  path : Path
  leaf : Leaf
deriving DecidableEq

namespace Node

def placeLeaves (base : Path) (trail : Trail) (pending : List Visit) : List PlacedLeaf :=
  match pending with
  | [] => []
  | visit :: rest =>
      let entered := visit.enter trail
      match visit.node with
      | .leaf found => ⟨entered.1.path base entered.2.1, found⟩ :: placeLeaves base entered.1 rest
      | _ => placeLeaves base entered.1 (entered.2.2 ++ rest)
termination_by Visit.weights pending
decreasing_by
  · simp only [Visit.weights, List.map_cons, weights]
    have := visit.node.weight_pos
    omega
  · simp only [Visit.weights_append]
    simp only [Visit.weights, List.map_cons, weights]
    have := Visit.enter_weights visit trail
    simp only [Visit.weights] at this
    omega

def placedLeaves (base : Path) (node : Node) : List PlacedLeaf :=
  placeLeaves base .empty [⟨node, .first node.kind, none⟩]

def firstUnknown (known : String → Bool) (trail : Trail) (pending : List Visit) : Option PlacedLeaf :=
  match pending with
  | [] => none
  | visit :: rest =>
      let entered := visit.enter trail
      match visit.node with
      | .leaf found =>
          if known found.filter then firstUnknown known entered.1 rest
          else some ⟨entered.1.path [] entered.2.1, found⟩
      | _ => firstUnknown known entered.1 (entered.2.2 ++ rest)
termination_by Visit.weights pending
decreasing_by
  · simp only [Visit.weights, List.map_cons, weights]
    have := visit.node.weight_pos
    omega
  · simp only [Visit.weights_append]
    simp only [Visit.weights, List.map_cons, weights]
    have := Visit.enter_weights visit trail
    simp only [Visit.weights] at this
    omega

end Node

end FilterPlan
