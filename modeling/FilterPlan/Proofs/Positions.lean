import FilterPlan.Proofs.Trail

set_option autoImplicit false

namespace FilterPlan

structure Part where
  path : Path
  node : Node

def Part.below (steps : Path) (part : Part) : Part := ⟨steps ++ part.path, part.node⟩

def Part.leaf? (part : Part) : Option PlacedLeaf :=
  match part.node with
  | .leaf found => some ⟨part.path, found⟩
  | _ => none

def PlacedLeaf.below (steps : Path) (placed : PlacedLeaf) : PlacedLeaf := ⟨steps ++ placed.path, placed.leaf⟩

theorem PlacedLeaf.below_below (outer inner : Path) : below outer ∘ below inner = below (outer ++ inner) := by
  funext placed
  simp [below]

namespace Node

-- The steps start at the root of the tree and leave its own step out. A child of AND or OR is told apart
-- from earlier siblings of its kind by their number; an operand stands below the step of its side.
mutual
def parts : Node → List Part
  | .leaf found => [⟨[], .leaf found⟩]
  | .and children => ⟨[], .and children⟩ :: partsAmong [] children
  | .or children => ⟨[], .or children⟩ :: partsAmong [] children
  | .not a b => ⟨[], .not a b⟩ ::
      (a.parts.map (.below [.operand .a, .first a.kind]) ++ b.parts.map (.below [.operand .b, .first b.kind]))
def partsAmong (earlier : List Node) : List Node → List Part
  | [] => []
  | child :: rest =>
      child.parts.map (.below [⟨child.kind, earlier.countP fun sibling => sibling.kind = child.kind⟩])
        ++ partsAmong (earlier ++ [child]) rest
end

def positions (node : Node) : List PlacedLeaf := node.parts.filterMap Part.leaf?

-- The way from an operator to one of its children: the first step, and the steps after it.
structure Slot where
  key : Segment
  rest : Path
  child : Node

def Slot.steps (slot : Slot) : Path := slot.key :: slot.rest

def siblingSlots (seen : List SegmentKind) (children : List Node) : List Slot :=
  List.zipWith (fun child segment => ⟨segment, [], child⟩) children (numberSiblings seen children)

def slots : Node → List Slot
  | .leaf _ => []
  | .and children | .or children => siblingSlots [] children
  | .not a b => [⟨.operand .a, [.first a.kind], a⟩, ⟨.operand .b, [.first b.kind], b⟩]

theorem parts_among_slots (children earlier : List Node) (seen : List SegmentKind)
    (counted : ∀ kind, seen.count kind = earlier.countP fun sibling => sibling.kind = kind) :
    partsAmong earlier children =
      (siblingSlots seen children).flatMap fun slot => slot.child.parts.map (.below slot.steps) := by
  induction children generalizing earlier seen with
  | nil => rfl
  | cons child rest ih =>
      have next : ∀ kind, (child.kind :: seen).count kind =
          (earlier ++ [child]).countP fun sibling => sibling.kind = kind := by
        intro kind
        by_cases same : child.kind = kind <;> simp [counted kind, same]
      rw [partsAmong, ih _ _ next, ← counted child.kind]
      rfl

theorem parts_slots (node : Node) :
    node.parts = ⟨[], node⟩ :: node.slots.flatMap fun slot => slot.child.parts.map (.below slot.steps) := by
  cases node with
  | leaf found => rfl
  | and children => rw [parts, parts_among_slots children [] [] (by simp)]; rfl
  | or children => rw [parts, parts_among_slots children [] [] (by simp)]; rfl
  | not a b => simp [parts, slots, Slot.steps]

theorem leaf_below (steps : Path) (part : Part) : (part.below steps).leaf? = part.leaf?.map (.below steps) := by
  obtain ⟨path, node⟩ := part
  cases node <;> rfl

theorem positions_leaf (found : Leaf) : (leaf found).positions = [⟨[], found⟩] := rfl

theorem positions_slots (node : Node) (inner : node.operator? ≠ none) :
    node.positions = node.slots.flatMap fun slot => slot.child.positions.map (.below slot.steps) := by
  have top : Part.leaf? ⟨[], node⟩ = none := by
    cases node <;> simp_all [Part.leaf?, operator?]
  rw [positions, parts_slots, List.filterMap_cons, top]
  simp only [List.filterMap_flatMap, List.filterMap_map, positions, List.map_filterMap, Function.comp_def,
    leaf_below]

theorem weights_mem (node : Node) (nodes : List Node) (inside : node ∈ nodes) : node.weight ≤ weights nodes := by
  induction nodes with
  | nil => simp at inside
  | cons first rest ih =>
      rw [weights]
      rcases List.mem_cons.mp inside with same | later
      · subst same
        omega
      · have := ih later
        omega

theorem sibling_slots_keys (seen : List SegmentKind) (children : List Node) :
    (siblingSlots seen children).map Slot.key = numberSiblings seen children := by
  induction children generalizing seen with
  | nil => rfl
  | cons child rest ih =>
      have later := ih (child.kind :: seen)
      simp_all [siblingSlots, numberSiblings]

theorem sibling_slots_children (seen : List SegmentKind) (children : List Node) :
    (siblingSlots seen children).map Slot.child = children := by
  induction children generalizing seen with
  | nil => rfl
  | cons child rest ih =>
      have later := ih (child.kind :: seen)
      simp_all [siblingSlots, numberSiblings]

theorem sibling_slot_child (seen : List SegmentKind) (children : List Node) (slot : Slot)
    (inside : slot ∈ siblingSlots seen children) : slot.child ∈ children := by
  have member := List.mem_map_of_mem (f := Slot.child) inside
  rwa [sibling_slots_children] at member

theorem slot_weight (node : Node) (slot : Slot) (inside : slot ∈ node.slots) :
    slot.child.weight < node.weight := by
  cases node with
  | leaf found => simp [slots] at inside
  | and children =>
      have := weights_mem _ _ (sibling_slot_child [] children slot inside)
      rw [weight]
      omega
  | or children =>
      have := weights_mem _ _ (sibling_slot_child [] children slot inside)
      rw [weight]
      omega
  | not a b =>
      simp only [slots, List.mem_cons, List.not_mem_nil, or_false] at inside
      rw [weight]
      rcases inside with same | same <;> rw [same] <;> simp only <;> omega

@[elab_as_elim]
theorem induct_slots {motive : Node → Prop} (leaf : ∀ found, motive (.leaf found))
    (operator : ∀ node, node.operator? ≠ none → (∀ slot ∈ node.slots, motive slot.child) → motive node)
    (node : Node) : motive node := by
  by_cases inner : node.operator? = none
  · cases node with
    | leaf found => exact leaf found
    | and | or | not => simp [operator?] at inner
  · exact operator node inner fun slot inside => induct_slots leaf operator slot.child
termination_by node.weight
decreasing_by exact slot_weight node slot inside

theorem number_siblings_fresh (seen : List SegmentKind) (nodes : List Node) (segment : Segment)
    (inside : segment ∈ numberSiblings seen nodes) : seen.count segment.kind ≤ segment.ordinal := by
  induction nodes generalizing seen with
  | nil => simp [numberSiblings] at inside
  | cons node rest ih =>
      rcases List.mem_cons.mp inside with same | later
      · simp [same]
      · have := ih (node.kind :: seen) later
        have := List.count_le_count_cons (a := segment.kind) (b := node.kind) (l := seen)
        omega

theorem number_siblings_nodup (seen : List SegmentKind) (nodes : List Node) :
    (numberSiblings seen nodes).Nodup := by
  induction nodes generalizing seen with
  | nil => simp [numberSiblings]
  | cons node rest ih =>
      refine List.nodup_cons.mpr ⟨fun again => ?_, ih _⟩
      have := number_siblings_fresh (node.kind :: seen) rest _ again
      simp only [List.count_cons_self] at this
      omega

theorem slot_keys_nodup (node : Node) : (node.slots.map Slot.key).Nodup := by
  cases node with
  | leaf found => simp [slots]
  | and children =>
      rw [slots, sibling_slots_keys]
      exact number_siblings_nodup [] children
  | or children =>
      rw [slots, sibling_slots_keys]
      exact number_siblings_nodup [] children
  | not a b => simp [slots, Segment.operand, Segment.first]

end Node

def Apart (p q : Path) : Prop := ¬ p <+: q ∧ ¬ q <+: p

theorem apart_symm (p q : Path) (apart : Apart p q) : Apart q p := ⟨apart.2, apart.1⟩

theorem apart_ne (p q : Path) (apart : Apart p q) : p ≠ q := by
  intro same
  exact apart.1 (same ▸ List.prefix_refl p)

theorem apart_below (steps p q : Path) : Apart (steps ++ p) (steps ++ q) ↔ Apart p q := by
  simp [Apart, List.prefix_append_right_inj]

theorem apart_keys (a b : Segment) (p q : Path) (different : a ≠ b) : Apart (a :: p) (b :: q) := by
  simp [Apart, different, Ne.symm different]

namespace Node

theorem positions_apart (node : Node) : node.positions.Pairwise fun p q => Apart p.path q.path := by
  induction node using induct_slots with
  | leaf found => simp [positions_leaf]
  | operator node inner ih =>
      rw [positions_slots node inner, List.pairwise_flatMap]
      constructor
      · intro slot inside
        rw [List.pairwise_map]
        exact (ih slot inside).imp fun {p q} apart => (apart_below slot.steps p.path q.path).mpr apart
      · have keys : node.slots.Pairwise fun s t => s.key ≠ t.key := List.pairwise_map.mp (slot_keys_nodup node)
        refine keys.imp fun {s t} different p fromS q fromT => ?_
        obtain ⟨p, _, rfl⟩ := List.mem_map.mp fromS
        obtain ⟨q, _, rfl⟩ := List.mem_map.mp fromT
        exact apart_keys s.key t.key _ _ different

theorem leaves_of_slots (node : Node) (inner : node.operator? ≠ none) :
    node.positions.map PlacedLeaf.leaf =
      (node.slots.map Slot.child).flatMap fun child => child.positions.map PlacedLeaf.leaf := by
  rw [positions_slots node inner]
  simp [List.map_flatMap, List.flatMap_map, Function.comp_def, PlacedLeaf.below]

theorem leaves_of_positions (pending : List Node) :
    leavesOf pending = pending.flatMap fun node => node.positions.map PlacedLeaf.leaf := by
  fun_induction leavesOf pending with
  | case1 => rfl
  | case2 found rest ih => simp [positions_leaf, ih]
  | case3 children rest ih =>
      rw [ih, List.flatMap_append, List.flatMap_cons, leaves_of_slots (.and children) (by simp [operator?]), slots,
        sibling_slots_children]
  | case4 children rest ih =>
      rw [ih, List.flatMap_append, List.flatMap_cons, leaves_of_slots (.or children) (by simp [operator?]), slots,
        sibling_slots_children]
  | case5 a b rest ih =>
      have operands := leaves_of_slots (.not a b) (by simp [operator?])
      simp only [ih, List.flatMap_cons, operands, slots, List.map_cons, List.map_nil, List.flatMap_nil,
        List.append_nil, List.append_assoc]

theorem leaves_positions (node : Node) : node.positions.map PlacedLeaf.leaf = node.leaves := by
  simp [leaves, leaves_of_positions]

end Node

end FilterPlan
