import FilterPlan.Plan

set_option autoImplicit false

namespace FilterPlan

inductive Side where
  | a
  | b
deriving DecidableEq, Repr

def Side.label : Side → String
  | .a => "A"
  | .b => "B"

-- What a step of a position stands for. A filter may share its name with an operator or a side, so the kind
-- is kept apart from its label.
inductive SegmentKind where
  | op (operator : Operator)
  | operand (side : Side)
  | filter (name : String)
deriving DecidableEq, Repr

namespace SegmentKind

def label : SegmentKind → String
  | .op operator => operator.tag
  | .operand side => side.label
  | .filter name => name

def rank : SegmentKind → Nat
  | .op .and => 0
  | .op .or => 1
  | .op .not => 2
  | .operand .a => 3
  | .operand .b => 4
  | .filter _ => 5

def filterName : SegmentKind → String
  | .filter name => name
  | _ => ""

theorem eq_of_rank_name (a b : SegmentKind) (sameRank : a.rank = b.rank)
    (sameName : a.filterName = b.filterName) : a = b := by
  rcases a with (_ | _ | _) | (_ | _) | _ <;> rcases b with (_ | _ | _) | (_ | _) | _ <;>
    simp_all [rank, filterName]

end SegmentKind

-- One step of a position. The ordinal tells apart siblings of the same kind, of which there are fewer than 2 ^ 32.
structure Segment where
  kind : SegmentKind
  ordinal : Nat
deriving DecidableEq, Repr

namespace Segment

def first (kind : SegmentKind) : Segment := ⟨kind, 0⟩

def operand (side : Side) : Segment := first (.operand side)

def order : Segment → Segment → Ordering :=
  compareLex (compareOn fun segment => segment.kind.rank)
    (compareLex (compareOn fun segment => segment.kind.filterName) (compareOn Segment.ordinal))

instance : Ord Segment := ⟨order⟩

instance : Std.TransOrd Segment :=
  inferInstanceAs (Std.TransCmp
    (compareLex (compareOn fun segment : Segment => segment.kind.rank)
      (compareLex (compareOn fun segment : Segment => segment.kind.filterName) (compareOn Segment.ordinal))))

instance : Std.LawfulEqOrd Segment where
  eq_of_compare {a b} same := by
    obtain ⟨sameRank, rest⟩ := compareLex_eq_eq.mp same
    obtain ⟨sameName, sameOrdinal⟩ := compareLex_eq_eq.mp rest
    simp only [compareOn, Std.compare_eq_iff_eq] at sameRank sameName sameOrdinal
    obtain ⟨kindA, ordinalA⟩ := a
    obtain ⟨kindB, ordinalB⟩ := b
    have sameKind := SegmentKind.eq_of_rank_name kindA kindB sameRank sameName
    simp_all

def text (segment : Segment) : String :=
  if segment.ordinal = 0 then segment.kind.label
  else segment.kind.label ++ "#" ++ toString segment.ordinal

end Segment

-- A position in a plan, from the root down; also the chain of keys of a stored result.
abbrev Path := List Segment

def Path.text (path : Path) : String :=
  if path.isEmpty then "/" else String.intercalate "/" (path.map Segment.text)

def Node.kind : Node → SegmentKind
  | .leaf found => .filter found.filter
  | .and _ => .op .and
  | .or _ => .op .or
  | .not _ _ => .op .not

def numberSiblings (seen : List SegmentKind) : List Node → List Segment
  | [] => []
  | node :: rest => ⟨node.kind, seen.count node.kind⟩ :: numberSiblings (node.kind :: seen) rest

def siblingSegments (children : List Node) : List Segment := numberSiblings [] children

theorem number_siblings_length (seen : List SegmentKind) (nodes : List Node) :
    (numberSiblings seen nodes).length = nodes.length := by
  induction nodes generalizing seen with
  | nil => rfl
  | cons node rest hypothesis => rw [numberSiblings, List.length_cons, List.length_cons, hypothesis]

end FilterPlan
