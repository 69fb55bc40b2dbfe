import FilterPlan.Proofs.Positions

set_option autoImplicit false

namespace FilterPlan

namespace Visit

def spot (trail : Trail) (visit : Visit) : Path := trail.spot visit.parent ++ [visit.segment]

theorem spot_extended (older newer : Trail) (extended : older.Extends newer) (visit : Visit)
    (held : older.Holds visit.parent) : visit.spot newer = visit.spot older := by
  rw [spot, spot, extended.same visit.parent held]

-- What a walk knows once it has entered a node: old positions stand, and the children are listed
-- in document order with the steps of their slots.
structure Entered (visit : Visit) (trail : Trail) : Prop where
  extends_trail : trail.Extends (visit.enter trail).1
  here : (visit.enter trail).1.spot (some (visit.enter trail).2.1) = visit.spot trail
  held : ∀ child ∈ (visit.enter trail).2.2, (visit.enter trail).1.Holds child.parent
  children : (visit.enter trail).2.2.map (fun child => (child.spot (visit.enter trail).1, child.node)) =
    visit.node.slots.map fun slot => (visit.spot trail ++ slot.steps, slot.child)

theorem sibling_visits_held (trail : Trail) (here : Nat) (children : List Node) (segments : List Segment)
    (held : trail.Holds (some here)) :
    ∀ child ∈ List.zipWith (fun child segment => (⟨child, segment, some here⟩ : Visit)) children segments,
      trail.Holds child.parent := by
  induction children generalizing segments with
  | nil => simp
  | cons child rest ih =>
      cases segments with
      | nil => simp
      | cons segment segments =>
          intro visit inside
          rcases List.mem_cons.mp inside with same | later
          · simpa [same] using held
          · exact ih segments visit later

theorem sibling_visits_slots (trail : Trail) (here : Nat) (spotted : Path) (seen : List SegmentKind)
    (children : List Node) (isHere : trail.spot (some here) = spotted) :
    (List.zipWith (fun child segment => (⟨child, segment, some here⟩ : Visit)) children
      (numberSiblings seen children)).map (fun child => (child.spot trail, child.node)) =
    (Node.siblingSlots seen children).map fun slot => (spotted ++ slot.steps, slot.child) := by
  simp [Node.siblingSlots, List.map_zipWith, spot, isHere, Node.Slot.steps]

theorem enter_siblings (visit : Visit) (trail : Trail) (children : List Node) (grounded : trail.Grounded)
    (held : trail.Holds visit.parent) (isSiblings : visit.node.slots = Node.siblingSlots [] children)
    (entered : visit.enter trail =
      ((trail.push visit.parent visit.segment).1, (trail.push visit.parent visit.segment).2,
        List.zipWith (fun child segment => ⟨child, segment, some (trail.push visit.parent visit.segment).2⟩)
          children (siblingSegments children))) : visit.Entered trail := by
  have extended := Trail.push_extends trail visit.parent visit.segment grounded held
  have spotted := Trail.push_spot trail visit.parent visit.segment grounded held
  have inside := Trail.push_holds trail visit.parent visit.segment
  constructor
  · rw [entered]
    exact extended
  · rw [entered]
    exact spotted
  · rw [entered]
    exact sibling_visits_held _ _ children (siblingSegments children) inside
  · rw [entered, isSiblings]
    exact sibling_visits_slots _ _ _ [] children spotted

theorem enter_entered (visit : Visit) (trail : Trail) (grounded : trail.Grounded)
    (held : trail.Holds visit.parent) : visit.Entered trail := by
  obtain ⟨node, segment, parent⟩ := visit
  have extended := Trail.push_extends trail parent segment grounded held
  have spotted := Trail.push_spot trail parent segment grounded held
  have inside := Trail.push_holds trail parent segment
  cases node with
  | leaf found => exact ⟨extended, spotted, by simp [enter], rfl⟩
  | and children => exact enter_siblings _ trail children grounded held rfl rfl
  | or children => exact enter_siblings _ trail children grounded held rfl rfl
  | not a b =>
      -- The entry of side B is pushed before that of side A.
      let afterHere := (trail.push parent segment).1
      let here := (trail.push parent segment).2
      let afterB := (afterHere.push (some here) (.operand .b)).1
      let sideB := (afterHere.push (some here) (.operand .b)).2
      let afterA := (afterB.push (some here) (.operand .a)).1
      let sideA := (afterB.push (some here) (.operand .a)).2
      have extendedB : afterHere.Extends afterB := Trail.push_extends _ _ _ extended.grounded inside
      have insideB : afterB.Holds (some here) := extendedB.holds _ inside
      have extendedA : afterB.Extends afterA := Trail.push_extends _ _ _ extendedB.grounded insideB
      have spottedB : afterB.spot (some sideB) = trail.spot parent ++ [segment] ++ [.operand .b] := by
        rw [← spotted]
        exact Trail.push_spot _ _ _ extended.grounded inside
      have spottedA : afterA.spot (some sideA) = trail.spot parent ++ [segment] ++ [.operand .a] := by
        rw [← spotted, ← extendedB.same _ inside]
        exact Trail.push_spot _ _ _ extendedB.grounded insideB
      have heldB : afterB.Holds (some sideB) := Trail.push_holds _ _ _
      have heldA : afterA.Holds (some sideA) := Trail.push_holds _ _ _
      have result : enter ⟨.not a b, segment, parent⟩ trail =
          (afterA, here, [⟨a, .first a.kind, some sideA⟩, ⟨b, .first b.kind, some sideB⟩]) := rfl
      constructor
      · rw [result]
        exact Trail.extends_trans _ _ _ (Trail.extends_trans _ _ _ extended extendedB) extendedA
      · rw [result]
        simp only
        rw [extendedA.same _ insideB, extendedB.same _ inside]
        exact spotted
      · rw [result]
        intro child listed
        simp only [List.mem_cons, List.not_mem_nil, or_false] at listed
        rcases listed with same | same
        · simpa only [same] using heldA
        · simpa only [same] using extendedA.holds _ heldB
      · rw [result]
        simp only [List.map_cons, List.map_nil, Node.slots, spot, spottedA, extendedA.same _ heldB, spottedB,
          Node.Slot.steps]
        simp

theorem waiting_held (visit : Visit) (trail : Trail) (known : visit.Entered trail) (rest : List Visit)
    (held : ∀ other ∈ rest, trail.Holds other.parent) :
    ∀ other ∈ (visit.enter trail).2.2 ++ rest, (visit.enter trail).1.Holds other.parent :=
  List.forall_mem_append.mpr ⟨known.held, fun other waiting => known.extends_trail.holds _ (held other waiting)⟩

end Visit

namespace Node

def placements (base : Path) (trail : Trail) (pending : List Visit) : List PlacedLeaf :=
  pending.flatMap fun visit => visit.node.positions.map (.below (base ++ visit.spot trail))

theorem placements_extended (base : Path) (older newer : Trail) (pending : List Visit)
    (extended : older.Extends newer) (held : ∀ visit ∈ pending, older.Holds visit.parent) :
    placements base newer pending = placements base older pending := by
  rw [placements, placements, List.flatMap_def, List.flatMap_def]
  congr 1
  refine List.map_congr_left fun visit inside => ?_
  rw [Visit.spot_extended older newer extended visit (held visit inside)]

theorem placements_entered (base : Path) (trail : Trail) (visit : Visit) (inner : visit.node.operator? ≠ none)
    (known : visit.Entered trail) :
    placements base (visit.enter trail).1 (visit.enter trail).2.2 =
      visit.node.positions.map (.below (base ++ visit.spot trail)) := by
  have listed := congrArg (List.flatMap fun child : Path × Node =>
    child.2.positions.map (PlacedLeaf.below (base ++ child.1))) known.children
  rw [List.flatMap_map, List.flatMap_map] at listed
  rw [placements, listed, positions_slots visit.node inner, List.map_flatMap]
  simp only [List.map_map, PlacedLeaf.below_below, List.append_assoc]

theorem place_leaves_positions (base : Path) (trail : Trail) (pending : List Visit) (grounded : trail.Grounded)
    (held : ∀ visit ∈ pending, trail.Holds visit.parent) :
    placeLeaves base trail pending = placements base trail pending := by
  fun_induction placeLeaves base trail pending with
  | case1 => rfl
  | case2 trail visit rest entered found isLeaf ih =>
      have known := visit.enter_entered trail grounded (held visit (by simp))
      have later : ∀ other ∈ rest, trail.Holds other.parent := fun other inside => held other (by simp [inside])
      rw [ih known.extends_trail.grounded fun other inside => known.extends_trail.holds _ (later other inside),
        placements_extended base trail _ rest known.extends_trail later, placements, placements, List.flatMap_cons,
        isLeaf, positions_leaf, Trail.path_base, known.here]
      simp [PlacedLeaf.below]
  | case3 trail visit rest entered inner ih =>
      have known := visit.enter_entered trail grounded (held visit (by simp))
      have later : ∀ other ∈ rest, trail.Holds other.parent := fun other inside => held other (by simp [inside])
      have isInner : visit.node.operator? ≠ none := by
        cases isNode : visit.node with
        | leaf found => exact absurd isNode (inner found)
        | and | or | not => simp [operator?]
      rw [ih known.extends_trail.grounded (visit.waiting_held trail known rest later), placements, List.flatMap_append]
      change placements base entered.1 entered.2.2 ++ placements base entered.1 rest = _
      rw [placements_entered base trail visit isInner known,
        placements_extended base trail _ rest known.extends_trail later]
      rfl

theorem placed_leaves_positions (base : Path) (node : Node) :
    node.placedLeaves base = node.positions.map (.below (base ++ [.first node.kind])) := by
  rw [placedLeaves, place_leaves_positions base .empty _ Trail.empty_grounded (by simp [Trail.holds_top])]
  simp [placements, Visit.spot, Trail.spot]

theorem placed_leaves_order (base : Path) (node : Node) :
    (node.placedLeaves base).map PlacedLeaf.leaf = node.leaves := by
  rw [placed_leaves_positions, ← leaves_positions]
  simp [PlacedLeaf.below]

theorem placed_leaves_apart (base : Path) (node : Node) :
    (node.placedLeaves base).Pairwise fun p q => Apart p.path q.path := by
  rw [placed_leaves_positions, List.pairwise_map]
  exact node.positions_apart.imp fun {p q} apart => (apart_below _ p.path q.path).mpr apart

end Node

end FilterPlan
