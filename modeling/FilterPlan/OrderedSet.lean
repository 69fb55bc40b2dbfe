set_option autoImplicit false

namespace FilterPlan

-- A finite set, kept as the list of its members in strictly ascending order. Two sets with the same members
-- are equal.
structure OrderedSet (α : Type) [Ord α] where
  toList : List α
  ascending : toList.Pairwise fun a b => compare a b = .lt

namespace OrderedSet

variable {α : Type} [Ord α]

def search (x : α) : List α → Bool
  | [] => false
  | y :: rest =>
      match compare x y with
      | .lt => false
      | .eq => true
      | .gt => search x rest

def insertInto (x : α) : List α → List α
  | [] => [x]
  | y :: rest =>
      match compare x y with
      | .lt => x :: y :: rest
      | .eq => y :: rest
      | .gt => y :: insertInto x rest

def uniteLists : List α → List α → List α
  | [], right => right
  | left, [] => left
  | x :: left, y :: right =>
      match compare x y with
      | .lt => x :: uniteLists left (y :: right)
      | .eq => x :: uniteLists left right
      | .gt => y :: uniteLists (x :: left) right
termination_by left right => left.length + right.length

theorem mem_of_mem_insert_into (x z : α) (list : List α) (inside : z ∈ insertInto x list) :
    z = x ∨ z ∈ list := by
  fun_induction insertInto x list <;> simp_all
  rcases inside with first | rest <;> simp_all
  rename_i hypothesis
  rcases hypothesis with first | rest <;> simp_all

theorem mem_of_mem_unite_lists (z : α) (left right : List α) (inside : z ∈ uniteLists left right) :
    z ∈ left ∨ z ∈ right := by
  fun_induction uniteLists left right <;> simp_all <;> grind

section
variable [Std.TransOrd α]

theorem insert_into_ascending (x : α) (list : List α)
    (ascending : list.Pairwise fun a b => compare a b = .lt) :
    (insertInto x list).Pairwise fun a b => compare a b = .lt := by
  fun_induction insertInto x list with
  | case1 => simp
  | case2 y rest less =>
      rw [List.pairwise_cons] at ascending ⊢
      refine ⟨fun z inside => ?_, List.pairwise_cons.mpr ascending⟩
      rcases List.mem_cons.mp inside with same | later
      · rw [same]; exact less
      · exact Std.TransCmp.lt_trans less (ascending.1 z later)
  | case3 => exact ascending
  | case4 y rest more hypothesis =>
      rw [List.pairwise_cons] at ascending ⊢
      refine ⟨fun z inside => ?_, hypothesis ascending.2⟩
      rcases mem_of_mem_insert_into x z rest inside with same | later
      · rw [same]; exact Std.OrientedCmp.lt_of_gt more
      · exact ascending.1 z later

theorem unite_lists_ascending (left right : List α)
    (leftAscending : left.Pairwise fun a b => compare a b = .lt)
    (rightAscending : right.Pairwise fun a b => compare a b = .lt) :
    (uniteLists left right).Pairwise fun a b => compare a b = .lt := by
  fun_induction uniteLists left right with
  | case1 => exact rightAscending
  | case2 => exact leftAscending
  | case3 x left y right less hypothesis =>
      have leftParts := List.pairwise_cons.mp leftAscending
      have rightParts := List.pairwise_cons.mp rightAscending
      refine List.pairwise_cons.mpr ⟨fun z inside => ?_, hypothesis leftParts.2 rightAscending⟩
      rcases mem_of_mem_unite_lists z _ _ inside with fromLeft | fromRight
      · exact leftParts.1 z fromLeft
      · rcases List.mem_cons.mp fromRight with same | later
        · rw [same]; exact less
        · exact Std.TransCmp.lt_trans less (rightParts.1 z later)
  | case4 x left y right same hypothesis =>
      have leftParts := List.pairwise_cons.mp leftAscending
      have rightParts := List.pairwise_cons.mp rightAscending
      refine List.pairwise_cons.mpr ⟨fun z inside => ?_, hypothesis leftParts.2 rightParts.2⟩
      rcases mem_of_mem_unite_lists z _ _ inside with fromLeft | fromRight
      · exact leftParts.1 z fromLeft
      · exact Std.TransCmp.lt_of_eq_of_lt same (rightParts.1 z fromRight)
  | case5 x left y right more hypothesis =>
      have leftParts := List.pairwise_cons.mp leftAscending
      have rightParts := List.pairwise_cons.mp rightAscending
      have less : compare y x = .lt := Std.OrientedCmp.lt_of_gt more
      refine List.pairwise_cons.mpr ⟨fun z inside => ?_, hypothesis leftAscending rightParts.2⟩
      rcases mem_of_mem_unite_lists z _ _ inside with fromLeft | fromRight
      · rcases List.mem_cons.mp fromLeft with first | later
        · rw [first]; exact less
        · exact Std.TransCmp.lt_trans less (leftParts.1 z later)
      · exact rightParts.1 z fromRight

end

def empty : OrderedSet α := ⟨[], .nil⟩

instance : EmptyCollection (OrderedSet α) := ⟨empty⟩

def size (set : OrderedSet α) : Nat := set.toList.length

def contains (set : OrderedSet α) (x : α) : Bool := search x set.toList

def inter (left right : OrderedSet α) : OrderedSet α :=
  ⟨left.toList.filter right.contains, left.ascending.filter _⟩

def diff (left right : OrderedSet α) : OrderedSet α :=
  ⟨left.toList.filter fun x => !right.contains x, left.ascending.filter _⟩

theorem ext {left right : OrderedSet α} (same : left.toList = right.toList) : left = right := by
  cases left
  cases right
  simp_all

variable [Std.TransOrd α]

def insert (set : OrderedSet α) (x : α) : OrderedSet α :=
  ⟨insertInto x set.toList, insert_into_ascending x set.toList set.ascending⟩

def union (left right : OrderedSet α) : OrderedSet α :=
  ⟨uniteLists left.toList right.toList,
    unite_lists_ascending left.toList right.toList left.ascending right.ascending⟩

def ofList (items : List α) : OrderedSet α := items.foldl insert empty

end OrderedSet

end FilterPlan
