import FilterPlan.Proofs.Blame
import Mathlib.Data.List.Nodup

set_option autoImplicit false

namespace FilterPlan

def Plain (name : String) : Prop := '/' ∉ name.toList ∧ '#' ∉ name.toList

instance (name : String) : Decidable (Plain name) := inferInstanceAs (Decidable (_ ∧ _))

namespace SegmentKind

def isFilter : SegmentKind → Bool
  | .filter _ => true
  | _ => false

theorem inner_plain (kind : SegmentKind) (inner : kind.isFilter = false) : Plain kind.label := by
  cases kind with
  | op operator => cases operator <;> decide
  | operand side => cases side <;> decide
  | filter name => cases inner

-- A filter may be named like an operator or a side, but these have names of their own.
theorem label_same (kind other : SegmentKind) (alike : kind.isFilter = other.isFilter)
    (same : kind.label = other.label) : kind = other := by
  cases kind with
  | filter name =>
      cases other with
      | filter otherName =>
          have sameName : name = otherName := same
          rw [sameName]
      | op _ => cases alike
      | operand _ => cases alike
  | op operator =>
      cases other with
      | op otherOperator => cases operator <;> cases otherOperator <;> first | rfl | simp [label, Operator.tag] at same
      | operand side => cases operator <;> cases side <;> simp [label, Operator.tag, Side.label] at same
      | filter _ => cases alike
  | operand side =>
      cases other with
      | op operator => cases operator <;> cases side <;> simp [label, Operator.tag, Side.label] at same
      | operand otherSide => cases side <;> cases otherSide <;> first | rfl | simp [label, Side.label] at same
      | filter _ => cases alike

end SegmentKind

namespace Segment

def mark : Nat → List Char
  | 0 => []
  | ordinal + 1 => '#' :: Nat.toDigits 10 (ordinal + 1)

theorem text_mark (segment : Segment) :
    segment.text.toList = segment.kind.label.toList ++ mark segment.ordinal := by
  obtain ⟨kind, ordinal⟩ := segment
  cases ordinal with
  | zero => simp [text, mark]
  | succ ordinal => simp [text, mark]

theorem mark_same (ordinal other : Nat) (same : mark ordinal = mark other) : ordinal = other := by
  cases ordinal with
  | zero =>
      cases other with
      | zero => rfl
      | succ other => cases same
  | succ ordinal =>
      cases other with
      | zero => cases same
      | succ other =>
          have digits := (List.cons.inj same).2
          calc
            ordinal + 1 = Nat.ofDigitChars 10 (Nat.toDigits 10 (ordinal + 1)) 0 := Nat.ofDigitChars_ten_toDigits.symm
            _ = Nat.ofDigitChars 10 (Nat.toDigits 10 (other + 1)) 0 := by rw [digits]
            _ = other + 1 := Nat.ofDigitChars_ten_toDigits

theorem mark_slashless (ordinal : Nat) : '/' ∉ mark ordinal := by
  cases ordinal with
  | zero => exact List.not_mem_nil
  | succ ordinal =>
      intro inside
      rcases List.mem_cons.mp inside with hash | digit
      · cases hash
      · cases Nat.isDigit_of_mem_toDigits (by decide) (by decide) digit

theorem label_word (segment : Segment) (plain : Plain segment.kind.label) :
    segment.text.toList.takeWhile (· != '#') = segment.kind.label.toList := by
  have free : ∀ char ∈ segment.kind.label.toList, (char != '#') = true := by
    intro char inside
    by_cases hash : char = '#'
    · rw [hash] at inside
      exact absurd inside plain.2
    · simpa using hash
  have stops : (mark segment.ordinal).takeWhile (· != '#') = [] := by cases segment.ordinal <;> rfl
  rw [text_mark, List.takeWhile_append_of_pos free, stops, List.append_nil]

theorem text_same (segment other : Segment) (plain : Plain segment.kind.label) (otherPlain : Plain other.kind.label)
    (alike : segment.kind.isFilter = other.kind.isFilter) (same : segment.text = other.text) : segment = other := by
  have letters := congrArg String.toList same
  have words := congrArg (List.takeWhile (· != '#')) letters
  rw [label_word segment plain, label_word other otherPlain] at words
  rw [text_mark, text_mark, words] at letters
  have sameOrdinal := mark_same _ _ (List.append_cancel_left letters)
  have sameKind := SegmentKind.label_same _ _ alike (String.toList_inj.mp words)
  cases segment
  cases other
  simp_all

theorem text_slashless (segment : Segment) (plain : Plain segment.kind.label) : '/' ∉ segment.text.toList := by
  rw [text_mark, List.mem_append]
  intro inside
  rcases inside with label | mark
  · exact plain.1 label
  · exact mark_slashless _ mark

end Segment

namespace Path

inductive Leafward : Path → Prop where
  | filter (name : String) (ordinal : Nat) (plain : Plain name) : Leafward [⟨.filter name, ordinal⟩]
  | step (step : Segment) (inner : step.kind.isFilter = false) (rest : Path) (leafward : Leafward rest) :
      Leafward (step :: rest)

theorem leafward_exist (path : Path) (leafward : path.Leafward) : path ≠ [] := by
  cases leafward <;> exact List.cons_ne_nil _ _

theorem leafward_plain (path : Path) (leafward : path.Leafward) : ∀ step ∈ path, Plain step.kind.label := by
  induction leafward with
  | filter name ordinal plain =>
      intro step inside
      rw [List.mem_singleton.mp inside]
      exact plain
  | step step inner rest _ ih =>
      intro other inside
      rcases List.mem_cons.mp inside with here | later
      · rw [here]
        exact step.kind.inner_plain inner
      · exact ih other later

-- Two ways of the same length reach their filters together, so no label is taken for one of another kind.
theorem leafward_same (path other : Path) (leafward : path.Leafward) (otherLeafward : other.Leafward)
    (same : path.map Segment.text = other.map Segment.text) : path = other := by
  induction leafward generalizing other with
  | filter name ordinal plain =>
      cases otherLeafward with
      | filter otherName otherOrdinal otherPlain =>
          have sameStep := Segment.text_same ⟨.filter name, ordinal⟩ ⟨.filter otherName, otherOrdinal⟩ plain otherPlain
            rfl (List.cons.inj same).1
          rw [sameStep]
      | step step inner rest deeper =>
          have ends := (List.cons.inj same).2
          exact absurd (List.map_eq_nil_iff.mp ends.symm) (leafward_exist rest deeper)
  | step step inner rest deeper ih =>
      cases otherLeafward with
      | filter otherName otherOrdinal otherPlain =>
          have ends := (List.cons.inj same).2
          exact absurd (List.map_eq_nil_iff.mp ends) (leafward_exist rest deeper)
      | step otherStep otherInner otherRest otherDeeper =>
          obtain ⟨sameText, sameRest⟩ := List.cons.inj same
          rw [ih otherRest otherDeeper sameRest, Segment.text_same step otherStep (step.kind.inner_plain inner)
            (otherStep.kind.inner_plain otherInner) (inner.trans otherInner.symm) sameText]

theorem text_steps (path : Path) (exist : path ≠ []) :
    path.text = String.intercalate "/" (path.map Segment.text) := by
  rw [text, if_neg (by simpa using exist)]

theorem text_append (base path : Path) (baseExists : base ≠ []) (exist : path ≠ []) :
    Path.text (base ++ path) = base.text ++ "/" ++ path.text := by
  have baseTexts : base.map Segment.text ≠ [] := mt List.map_eq_nil_iff.mp baseExists
  have texts : path.map Segment.text ≠ [] := mt List.map_eq_nil_iff.mp exist
  rw [text_steps _ (List.append_ne_nil_of_right_ne_nil base exist), List.map_append,
    String.intercalate_append_of_ne_nil baseTexts texts, text_steps base baseExists, text_steps path exist]

theorem text_split (path : Path) (leafward : path.Leafward) :
    path.text.toList.splitOn '/' = path.map fun step => step.text.toList := by
  have slashless : ∀ letters ∈ path.map (fun step => step.text.toList), '/' ∉ letters := by
    intro letters inside
    obtain ⟨step, known, rfl⟩ := List.mem_map.mp inside
    exact step.text_slashless (path.leafward_plain leafward step known)
  have exist := path.leafward_exist leafward
  rw [text_steps path exist, String.toList_intercalate, List.map_map]
  exact List.splitOn_intercalate '/' slashless (mt List.map_eq_nil_iff.mp exist)

theorem text_same (path other : Path) (leafward : path.Leafward) (otherLeafward : other.Leafward)
    (same : path.text = other.text) : path = other := by
  have parts : path.text.toList.splitOn '/' = other.text.toList.splitOn '/' := by rw [same]
  rw [path.text_split leafward, other.text_split otherLeafward] at parts
  apply leafward_same path other leafward otherLeafward
  have texts := congrArg (List.map String.ofList) parts
  simpa only [List.map_map, Function.comp_def, String.ofList_toList] using texts

theorem text_below_same (base path other : Path) (leafward : path.Leafward) (otherLeafward : other.Leafward)
    (same : Path.text (base ++ path) = Path.text (base ++ other)) : path = other := by
  by_cases top : base = []
  · rw [top] at same
    exact text_same path other leafward otherLeafward same
  · rw [text_append base path top (path.leafward_exist leafward),
      text_append base other top (other.leafward_exist otherLeafward)] at same
    have letters := congrArg String.toList same
    simp only [String.toList_append] at letters
    exact text_same path other leafward otherLeafward (String.toList_inj.mp (List.append_cancel_left letters))

theorem leafward_renumbered (step : Segment) (rest : Path) (ordinal : Nat) (leafward : Leafward (step :: rest)) :
    Leafward (⟨step.kind, ordinal⟩ :: rest) := by
  cases leafward with
  | filter name _ plain => exact .filter name ordinal plain
  | step _ inner _ deeper => exact .step ⟨step.kind, ordinal⟩ inner rest deeper

end Path

namespace Node

theorem operator_inner (node : Node) (inner : node.operator? ≠ none) : node.kind.isFilter = false := by
  cases node with
  | leaf found => exact absurd rfl inner
  | and | or | not => rfl

theorem slot_leafward (node : Node) (slot : Slot) (inside : slot ∈ node.slots) (path : Path)
    (leafward : Path.Leafward (.first slot.child.kind :: path)) : Path.Leafward (slot.steps ++ path) := by
  have sibling (children : List Node) (among : slot ∈ siblingSlots [] children) :
      Path.Leafward (slot.steps ++ path) := by
    obtain ⟨direct, sameKind⟩ := sibling_slot_key [] children slot among
    have renumbered := Path.leafward_renumbered _ path slot.key.ordinal leafward
    rw [Slot.steps, direct]
    rw [Segment.first, ← sameKind] at renumbered
    exact renumbered
  cases node with
  | leaf found => cases inside
  | and children => exact sibling children inside
  | or children => exact sibling children inside
  | not a b =>
      simp only [slots, List.mem_cons, List.not_mem_nil, or_false] at inside
      rcases inside with rfl | rfl
      · exact .step (.operand .a) rfl _ leafward
      · exact .step (.operand .b) rfl _ leafward

theorem positions_leafward (node : Node) :
    ∀ placed ∈ node.positions, Plain placed.leaf.filter → Path.Leafward (.first node.kind :: placed.path) := by
  induction node using induct_slots with
  | leaf found =>
      intro placed inside plain
      rw [positions_leaf, List.mem_singleton] at inside
      subst inside
      exact .filter found.filter 0 plain
  | operator node inner ih =>
      intro placed inside plain
      rw [positions_slots node inner] at inside
      obtain ⟨slot, isSlot, below⟩ := List.mem_flatMap.mp inside
      obtain ⟨deeper, isDeeper, rfl⟩ := List.mem_map.mp below
      have leafward := ih slot isSlot deeper isDeeper plain
      exact .step _ (node.operator_inner inner) _ (node.slot_leafward slot isSlot _ leafward)

theorem plain_leaves_differ (node : Node) (base : Path) :
    (node.placedLeaves base).Pairwise fun p q =>
      Plain p.leaf.filter → Plain q.leaf.filter → p.path.text ≠ q.path.text := by
  rw [placed_leaves_positions, List.pairwise_map]
  refine node.positions_apart.imp_of_mem fun {p q} pInside qInside apart pPlain qPlain same => ?_
  have pLeafward := node.positions_leafward p pInside pPlain
  have qLeafward := node.positions_leafward q qInside qPlain
  simp only [PlacedLeaf.below, List.append_assoc, List.singleton_append] at same
  have sameSteps := Path.text_below_same base _ _ pLeafward qLeafward same
  exact apart_ne p.path q.path apart (List.cons.inj sameSteps).2

end Node

namespace Plan

theorem place_from_text (plan : Plan) (differ : plan.places.Pairwise fun p q => p.path.text ≠ q.path.text)
    (placed other : PlacedLeaf) (inside : placed ∈ plan.places) (otherInside : other ∈ plan.places)
    (same : placed.path.text = other.path.text) : placed = other := by
  have distinct : (plan.places.map fun placed => placed.path.text).Nodup := by
    rw [List.nodup_iff_pairwise_ne, List.pairwise_map]
    exact differ
  exact List.inj_on_of_nodup_map distinct inside otherInside same

def Shown (plan : Plan) (path : Path) (placed : PlacedLeaf) : Prop :=
  placed ∈ plan.places ∧ placed.path.text = path.text

theorem shown_once (plan : Plan) (differ : plan.places.Pairwise fun p q => p.path.text ≠ q.path.text)
    (placed : PlacedLeaf) (inside : placed ∈ plan.places) : ∃! shown, plan.Shown placed.path shown := by
  refine ⟨placed, ⟨inside, rfl⟩, ?_⟩
  intro other known
  exact plan.place_from_text differ other placed known.1 inside known.2

-- The texts of two leaves of a plan differ as long as no filter has a '/' or a '#' in its name, whatever else they are
-- called. So an unknown filter and a failed resolver, which are told with the text of a position, are found again.
theorem leaf_texts_differ (plan : Plan) (plain : ∀ leaf ∈ plan.leaves, Plain leaf.filter) :
    plan.places.Pairwise (fun p q => p.path.text ≠ q.path.text) ∧
      (∀ root base, plan.root = some root →
        (root.placedLeaves base).Pairwise fun p q => p.path.text ≠ q.path.text) ∧
      (∀ known filter path, plan.checkFilters known = .error (.unknownFilter filter path) →
        ∃! shown, plan.Shown path shown) ∧
      ∀ (σ : Type) (pipeline : Pipeline σ) (engine : Engine σ) (world : World σ) filter path attempts source,
        (pipeline.execute engine plan world).result = .error (.evaluate (.resolver filter path attempts source)) →
          ∃! shown, plan.Shown path shown := by
  have rooted (root : Node) (base : Path) (planned : plan.root = some root) :
      (root.placedLeaves base).Pairwise fun p q => p.path.text ≠ q.path.text := by
    have isLeaf (placed : PlacedLeaf) (inside : placed ∈ root.placedLeaves base) : Plain placed.leaf.filter := by
      apply plain
      rw [leaves, planned]
      dsimp only
      rw [← root.placed_leaves_order base]
      exact List.mem_map_of_mem inside
    apply (root.plain_leaves_differ base).imp_of_mem
    intro p q pInside qInside differ
    exact differ (isLeaf p pInside) (isLeaf q qInside)
  have differ : plan.places.Pairwise fun p q => p.path.text ≠ q.path.text := by
    cases planned : plan.root with
    | none =>
        rw [places, planned]
        exact List.Pairwise.nil
    | some root =>
        rw [plan.places_root root planned]
        exact rooted root [] planned
  refine ⟨differ, rooted, ?_, ?_⟩
  · intro known filter path refused
    rw [plan.check_filters_places known] at refused
    cases unknown : plan.places.find? fun placed => !known placed.leaf.filter with
    | none =>
        rw [unknown] at refused
        cases refused
    | some placed =>
        rw [unknown] at refused
        obtain ⟨_, isPath⟩ := PlanError.unknownFilter.inj (Except.error.inj refused)
        rw [← isPath]
        exact plan.shown_once differ placed (List.mem_of_find?_eq_some unknown)
  · intro σ pipeline engine world filter path attempts source failed
    obtain ⟨placed, inside, _, isPath, _⟩ :=
      pipeline.execute_blames engine plan world filter path attempts source failed
    rw [isPath]
    exact plan.shown_once differ placed inside

def oddlyNamed : Plan :=
  .ofNode (.and [.leaf ⟨"AND", "x"⟩, .leaf ⟨"", "y"⟩, .not (.leaf ⟨"A", "z"⟩) (.leaf ⟨"A", "w"⟩), .leaf ⟨"AND", "v"⟩])

theorem leaf_texts_differ_oddly_named :
    (∀ leaf ∈ oddlyNamed.leaves, Plain leaf.filter) ∧
      oddlyNamed.places.map (fun placed => placed.path.text) =
        ["AND/AND", "AND/", "AND/NOT/A/A", "AND/NOT/B/A", "AND/AND#1"] ∧
      oddlyNamed.places.Pairwise fun p q => p.path.text ≠ q.path.text := by
  have plain : ∀ leaf ∈ oddlyNamed.leaves, Plain leaf.filter := by
    rw [← oddlyNamed.places_leaves]
    decide
  exact ⟨plain, by decide, (oddlyNamed.leaf_texts_differ plain).1⟩

example : (Plan.ofNode (.and [.leaf ⟨"f", "x"⟩, .leaf ⟨"f", "y"⟩, .leaf ⟨"f#1", "z"⟩])).places.map
    (fun placed => placed.path.text) = ["AND/f", "AND/f#1", "AND/f#1"] := by decide

example : (Plan.ofNode (.and [.or [.leaf ⟨"f", "x"⟩], .leaf ⟨"OR/f", "y"⟩])).places.map
    (fun placed => placed.path.text) = ["AND/OR/f", "AND/OR/f"] := by decide

end Plan

end FilterPlan
