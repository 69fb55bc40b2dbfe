set_option autoImplicit false

namespace FilterPlan

structure NameMap (α : Type) where
  entries : List (String × α)
  ascending : entries.Pairwise fun a b => compare a.1 b.1 = .lt

namespace NameMap

variable {α : Type}

def updateIn (name : String) (default : α) (change : α → α) : List (String × α) → List (String × α)
  | [] => [(name, change default)]
  | (other, value) :: rest =>
      match compare name other with
      | .lt => (name, change default) :: (other, value) :: rest
      | .eq => (other, change value) :: rest
      | .gt => (other, value) :: updateIn name default change rest

theorem mem_of_mem_update_in (name : String) (default : α) (change : α → α) (entries : List (String × α))
    (entry : String × α) (inside : entry ∈ updateIn name default change entries) :
    entry.1 = name ∨ ∃ old ∈ entries, old.1 = entry.1 := by
  fun_induction updateIn name default change entries with
  | case1 => simp_all
  | case2 other value rest less =>
      rcases List.mem_cons.mp inside with same | later
      · exact Or.inl (by rw [same])
      · exact Or.inr ⟨entry, later, rfl⟩
  | case3 other value rest same =>
      rcases List.mem_cons.mp inside with first | later
      · exact Or.inr ⟨(other, value), List.mem_cons_self, by rw [first]⟩
      · exact Or.inr ⟨entry, List.mem_cons_of_mem _ later, rfl⟩
  | case4 other value rest more hypothesis =>
      rcases List.mem_cons.mp inside with first | later
      · exact Or.inr ⟨(other, value), List.mem_cons_self, by rw [first]⟩
      · rcases hypothesis later with same | ⟨old, oldInside, sameName⟩
        · exact Or.inl same
        · exact Or.inr ⟨old, List.mem_cons_of_mem _ oldInside, sameName⟩

theorem update_in_ascending (name : String) (default : α) (change : α → α) (entries : List (String × α))
    (ascending : entries.Pairwise fun a b => compare a.1 b.1 = .lt) :
    (updateIn name default change entries).Pairwise fun a b => compare a.1 b.1 = .lt := by
  fun_induction updateIn name default change entries with
  | case1 => simp
  | case2 other value rest less =>
      have parts := List.pairwise_cons.mp ascending
      refine List.pairwise_cons.mpr ⟨fun entry inside => ?_, ascending⟩
      rcases List.mem_cons.mp inside with same | later
      · rw [same]; exact less
      · exact Std.TransCmp.lt_trans less (parts.1 entry later)
  | case3 other value rest same =>
      have parts := List.pairwise_cons.mp ascending
      exact List.pairwise_cons.mpr ⟨fun entry inside => parts.1 entry inside, parts.2⟩
  | case4 other value rest more hypothesis =>
      have parts := List.pairwise_cons.mp ascending
      refine List.pairwise_cons.mpr ⟨fun entry inside => ?_, hypothesis parts.2⟩
      rcases mem_of_mem_update_in name default change rest entry inside with same | ⟨old, oldInside, sameName⟩
      · rw [same]; exact Std.OrientedCmp.lt_of_gt more
      · rw [← sameName]; exact parts.1 old oldInside

def empty : NameMap α := ⟨[], .nil⟩

def update (map : NameMap α) (name : String) (default : α) (change : α → α) : NameMap α :=
  ⟨updateIn name default change map.entries, update_in_ascending name default change map.entries map.ascending⟩

def insert (map : NameMap α) (name : String) (value : α) : NameMap α :=
  map.update name value fun _ => value

def ofList (entries : List (String × α)) : NameMap α :=
  entries.foldl (fun map entry => map.insert entry.1 entry.2) empty

def find? (map : NameMap α) (name : String) : Option α :=
  (map.entries.find? fun entry => entry.1 = name).map Prod.snd

end NameMap

end FilterPlan
