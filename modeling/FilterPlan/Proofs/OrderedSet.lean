import FilterPlan.OrderedSet
import Mathlib.Data.Set.Insert
import Mathlib.Tactic.Tauto

set_option autoImplicit false

namespace FilterPlan

namespace OrderedSet

variable {α : Type} [Ord α]

def members (set : OrderedSet α) : Set α := {x | x ∈ set.toList}

theorem mem_members (set : OrderedSet α) (x : α) : x ∈ set.members ↔ x ∈ set.toList := Iff.rfl

theorem members_empty : (empty : OrderedSet α).members = ∅ := by
  ext x
  simp [mem_members, empty]

variable [Std.LawfulEqOrd α]

theorem mem_unite_lists (z : α) (left right : List α) : z ∈ uniteLists left right ↔ z ∈ left ∨ z ∈ right := by
  fun_induction uniteLists left right with
  | case1 => simp
  | case2 => simp
  | case3 x left y right less ih => simp [ih, or_assoc]
  | case4 x left y right same ih =>
      have isSame : x = y := Std.LawfulEqCmp.eq_of_compare same
      simp only [List.mem_cons, ih, isSame]
      tauto
  | case5 x left y right more ih =>
      simp only [List.mem_cons, ih]
      tauto

theorem mem_insert_into (x z : α) (list : List α) : z ∈ insertInto x list ↔ z = x ∨ z ∈ list := by
  fun_induction insertInto x list with
  | case1 => simp
  | case2 y rest less => simp
  | case3 y rest same =>
      have isSame : x = y := Std.LawfulEqCmp.eq_of_compare same
      simp [isSame]
  | case4 y rest more ih =>
      simp only [List.mem_cons, ih]
      tauto

variable [Std.TransOrd α]

theorem search_mem (x : α) (list : List α) (ascending : list.Pairwise fun a b => compare a b = .lt) :
    search x list = true ↔ x ∈ list := by
  fun_induction search x list with
  | case1 => simp
  | case2 y rest less =>
      have parts := List.pairwise_cons.mp ascending
      simp only [Bool.false_eq_true, List.mem_cons, false_iff, not_or]
      constructor
      · intro same
        simp [same, Std.ReflCmp.compare_self] at less
      · intro later
        have twice := Std.TransCmp.lt_trans less (parts.1 x later)
        simp [Std.ReflCmp.compare_self] at twice
  | case3 y rest same => simp [Std.LawfulEqCmp.eq_of_compare same]
  | case4 y rest more ih =>
      have different : x ≠ y := by
        intro same
        simp [same, Std.ReflCmp.compare_self] at more
      rw [ih (List.pairwise_cons.mp ascending).2, List.mem_cons, or_iff_right different]

theorem contains_mem (set : OrderedSet α) (x : α) : set.contains x = true ↔ x ∈ set.members :=
  search_mem x set.toList set.ascending

theorem members_union (left right : OrderedSet α) : (left.union right).members = left.members ∪ right.members := by
  ext x
  exact mem_unite_lists x left.toList right.toList

theorem members_inter (left right : OrderedSet α) : (left.inter right).members = left.members ∩ right.members := by
  ext x
  simp only [inter, mem_members, List.mem_filter, Set.mem_inter_iff, contains_mem]

theorem members_diff (left right : OrderedSet α) : (left.diff right).members = left.members \ right.members := by
  ext x
  simp only [diff, mem_members, List.mem_filter, Set.mem_sdiff, Bool.not_eq_true', ← Bool.not_eq_true, contains_mem]

theorem members_of_list (items : List α) (x : α) : x ∈ (ofList items).members ↔ x ∈ items := by
  suffices general : ∀ set : OrderedSet α, x ∈ (items.foldl insert set).members ↔ x ∈ items ∨ x ∈ set.members by
    have whole := general empty
    rwa [members_empty, Set.mem_empty_iff_false, or_false] at whole
  induction items with
  | nil => simp
  | cons item rest ih =>
      intro set
      have inserted : x ∈ (set.insert item).members ↔ x = item ∨ x ∈ set.members := mem_insert_into item x set.toList
      rw [List.foldl_cons, ih, inserted, List.mem_cons]
      tauto

theorem ext_members (left right : OrderedSet α) (same : left.members = right.members) : left = right := by
  apply ext
  refine List.Perm.eq_of_pairwise (fun a b _ _ less more => ?_) left.ascending right.ascending ?_
  · have twice := Std.TransCmp.lt_trans less more
    simp [Std.ReflCmp.compare_self] at twice
  · have distinct (set : OrderedSet α) : set.toList.Nodup := by
      refine set.ascending.imp fun {a b} less equal => ?_
      simp [equal, Std.ReflCmp.compare_self] at less
    rw [List.perm_ext_iff_of_nodup (distinct left) (distinct right)]
    exact fun x => Set.ext_iff.mp same x

end OrderedSet

end FilterPlan
