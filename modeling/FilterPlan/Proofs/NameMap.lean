import FilterPlan.NameMap
import Mathlib.Data.List.Nodup

set_option autoImplicit false

namespace FilterPlan

namespace NameMap

variable {α : Type}

theorem ne_of_compare {name other : String} (differs : compare name other ≠ .eq) : name ≠ other := by
  rintro rfl
  exact differs Std.ReflCmp.compare_self

theorem find_none_before (name : String) (entries : List (String × α))
    (before : ∀ entry ∈ entries, compare name entry.1 = .lt) : entries.find? (fun entry => entry.1 = name) = none := by
  refine List.find?_eq_none.mpr fun entry inside => ?_
  have different : name ≠ entry.1 := ne_of_compare (by simp [before entry inside])
  simpa using different.symm

theorem find_update_in (name : String) (default : α) (change : α → α) (entries : List (String × α))
    (ascending : entries.Pairwise fun a b => compare a.1 b.1 = .lt) (other : String) :
    ((updateIn name default change entries).find? fun entry => entry.1 = other).map Prod.snd =
      if name = other then
        some (change (((entries.find? fun entry => entry.1 = name).map Prod.snd).getD default))
      else (entries.find? fun entry => entry.1 = other).map Prod.snd := by
  fun_induction updateIn name default change entries with
  | case1 => by_cases same : name = other <;> simp [same]
  | case2 first value rest less =>
      have before : ∀ entry ∈ (first, value) :: rest, compare name entry.1 = .lt := by
        intro entry inside
        rcases List.mem_cons.mp inside with rfl | later
        · exact less
        · exact Std.TransCmp.lt_trans less ((List.pairwise_cons.mp ascending).1 entry later)
      rw [find_none_before name _ before]
      by_cases same : name = other <;> simp [same]
  | case3 first value rest equal =>
      have isFirst : name = first := Std.LawfulEqCmp.eq_of_compare equal
      subst isFirst
      by_cases same : name = other <;> simp [same]
  | case4 first value rest more ih =>
      have different : first ≠ name := (ne_of_compare (by simp [more])).symm
      have later := ih (List.pairwise_cons.mp ascending).2
      by_cases here : first = other
      · subst here
        simp [Ne.symm different]
      · simp only [List.find?_cons, here, different, decide_false]
        exact later

theorem find_update (map : NameMap α) (name : String) (default : α) (change : α → α) (other : String) :
    (map.update name default change).find? other =
      if name = other then some (change ((map.find? name).getD default)) else map.find? other :=
  find_update_in name default change map.entries map.ascending other

theorem find_insert (map : NameMap α) (name : String) (value : α) (other : String) :
    (map.insert name value).find? other = if name = other then some value else map.find? other :=
  find_update map name value (fun _ => value) other

theorem find_in_mem (entries : List (String × α)) (ascending : entries.Pairwise fun a b => compare a.1 b.1 = .lt)
    (name : String) (value : α) :
    (entries.find? fun entry => entry.1 = name).map Prod.snd = some value ↔ (name, value) ∈ entries := by
  induction entries with
  | nil => simp
  | cons first rest ih =>
      obtain ⟨before, later⟩ := List.pairwise_cons.mp ascending
      by_cases here : first.1 = name
      · have fresh : (name, value) ∉ rest := by
          intro again
          have less := before _ again
          rw [here] at less
          simp at less
        rw [List.find?_cons_of_pos (by simpa using here), List.mem_cons, Option.map_some, Option.some.injEq]
        simp [fresh, Prod.ext_iff, here, eq_comm]
      · have other : (name, value) ≠ first := fun same => here (by rw [← same])
        rw [List.find?_cons_of_neg (by simpa using here), ih later, List.mem_cons]
        simp [other]

theorem find_mem (map : NameMap α) (name : String) (value : α) :
    map.find? name = some value ↔ (name, value) ∈ map.entries :=
  find_in_mem map.entries map.ascending name value

theorem find_ext (map other : NameMap α) (same : ∀ name, map.find? name = other.find? name) : map = other := by
  have members (entry : String × α) : entry ∈ map.entries ↔ entry ∈ other.entries := by
    rw [← find_in_mem map.entries map.ascending, ← find_in_mem other.entries other.ascending]
    exact iff_of_eq (congrArg (· = some entry.2) (same entry.1))
  have apart (entries : List (String × α)) (ascending : entries.Pairwise fun a b => compare a.1 b.1 = .lt) :
      entries.Nodup := by
    apply ascending.imp
    intro a b less same
    rw [same] at less
    simp at less
  have listed := (List.perm_ext_iff_of_nodup (apart _ map.ascending) (apart _ other.ascending)).mpr members
  have never (a b : String × α) (less : compare a.1 b.1 = .lt) (more : compare b.1 a.1 = .lt) : a = b :=
    absurd (Std.TransCmp.lt_trans less more) (by simp)
  have sameEntries := listed.eq_of_pairwise (fun a b _ _ => never a b) map.ascending other.ascending
  cases map
  cases other
  simpa using sameEntries

theorem names_distinct (map : NameMap α) : (map.entries.map Prod.fst).Nodup := by
  rw [List.nodup_iff_pairwise_ne, List.pairwise_map]
  exact map.ascending.imp fun {a b} less => ne_of_compare (by simp [less])

theorem find_of_list (entries : List (String × α)) (distinct : (entries.map Prod.fst).Nodup) (name : String)
    (value : α) : (ofList entries).find? name = some value ↔ (name, value) ∈ entries := by
  suffices general : ∀ map : NameMap α, (∀ entry ∈ entries, map.find? entry.1 = none) →
      ((entries.foldl (fun map entry => map.insert entry.1 entry.2) map).find? name = some value ↔
        (name, value) ∈ entries ∨ map.find? name = some value) by
    simpa [ofList, find?, empty] using general empty
  induction entries with
  | nil => simp
  | cons first rest ih =>
      intro map absent
      obtain ⟨fresh, distinctRest⟩ := List.nodup_cons.mp distinct
      have absentRest : ∀ entry ∈ rest, (map.insert first.1 first.2).find? entry.1 = none := by
        intro entry inside
        have different : first.1 ≠ entry.1 := fun same => fresh (same ▸ List.mem_map_of_mem inside)
        rw [find_insert, if_neg different, absent entry (List.mem_cons_of_mem first inside)]
      rw [List.foldl_cons, ih distinctRest _ absentRest, find_insert, List.mem_cons]
      by_cases here : first.1 = name
      · have none := absent first List.mem_cons_self
        rw [here] at none
        simp [none, Prod.ext_iff, here, eq_comm, or_comm]
      · have other : (name, value) ≠ first := fun same => here (by rw [← same])
        simp [here, other]

end NameMap

end FilterPlan
