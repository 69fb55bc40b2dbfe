import FilterPlan.Registry

set_option autoImplicit false

namespace FilterPlan

namespace Catalog

variable {α : Type}

theorem contains_find (catalog : Catalog α) (name : String) :
    catalog.contains name = (catalog.find? name).isSome := by
  cases placed : catalog.index[name]? with
  | none =>
      have absent : catalog.contains name = false := by
        simpa [contains] using placed
      simp [absent, find?, placed]
  | some place =>
      obtain ⟨value, stored⟩ := (catalog.indexed name place).mp placed
      have present : catalog.contains name = true := by
        rw [contains, Std.HashMap.contains_eq_isSome_getElem?, placed, Option.isSome_some]
      simp [present, find?, placed, stored]

theorem find_entries (catalog : Catalog α) (name : String) (value : α) :
    catalog.find? name = some value ↔ (name, value) ∈ catalog.entries.toList := by
  rw [Array.mem_toList_iff]
  constructor
  · intro found
    cases placed : catalog.index[name]? with
    | none => simp [find?, placed] at found
    | some place =>
        obtain ⟨other, stored⟩ := (catalog.indexed name place).mp placed
        have same : other = value := by simpa [find?, placed, stored] using found
        exact Array.mem_of_getElem? (same ▸ stored)
  · intro inside
    obtain ⟨place, stored⟩ := Array.getElem?_of_mem inside
    have placed := (catalog.indexed name place).mpr ⟨value, stored⟩
    simp [find?, placed, stored]

theorem find_names (catalog : Catalog α) (name : String) :
    (∃ value, catalog.find? name = some value) ↔ name ∈ catalog.names := by
  simp only [find_entries, names, List.mem_map]
  constructor
  · rintro ⟨value, inside⟩
    exact ⟨(name, value), inside, rfl⟩
  · rintro ⟨entry, inside, rfl⟩
    exact ⟨entry.2, inside⟩

theorem contains_iff (catalog : Catalog α) (name : String) : catalog.contains name = true ↔ name ∈ catalog.names := by
  rw [contains_find, ← find_names, Option.isSome_iff_exists]

theorem find_register (catalog next : Catalog α) (name : String) (value : α)
    (registered : catalog.register? name value = some next) (other : String) :
    next.find? other = if name = other then some value else catalog.find? other := by
  rw [register?] at registered
  by_cases taken : catalog.contains name
  · simp [taken] at registered
  · rw [dif_neg taken, Option.some.injEq] at registered
    subst next
    simp only [find?, Std.HashMap.getElem?_insert]
    by_cases same : name = other
    · simp [same]
    · simp only [beq_eq_false_iff_ne.mpr same, if_neg same]
      cases placed : catalog.index[other]? with
      | none => simp
      | some place =>
          obtain ⟨found, stored⟩ := (catalog.indexed other place).mp placed
          have inside := (Array.getElem?_eq_some_iff.mp stored).1
          simp [Array.getElem?_push, Nat.ne_of_lt inside]

end Catalog

namespace Registry

variable {σ : Type}

theorem contains_find (registry : Registry σ) (name : String) :
    registry.contains name = true ↔ ∃ filter, registry.find name = .ok filter := by
  rw [contains, Catalog.contains_find, find]
  cases registry.catalog.find? name <;> simp

theorem find_empty (name : String) : (empty : Registry σ).find name = .error (.unknownFilter name) := by
  simp [find, empty, Catalog.find?, Catalog.empty]

theorem find_register (registry next : Registry σ) (descriptor : FilterDescriptor) (resolver : Resolver σ)
    (registered : registry.register descriptor resolver = .ok next) (name : String) :
    next.find name =
      if descriptor.name = name then .ok ⟨descriptor.description, resolver⟩ else registry.find name := by
  rw [register] at registered
  cases added : registry.catalog.register? descriptor.name ⟨descriptor.description, resolver⟩ with
  | none => simp [added] at registered
  | some catalog =>
      rw [added] at registered
      rw [← Except.ok.inj registered, find, find, Catalog.find_register _ _ _ _ added]
      by_cases same : descriptor.name = name <;> simp [same]

theorem register_fresh (registry : Registry σ) (descriptor : FilterDescriptor) (resolver : Resolver σ)
    (fresh : registry.find descriptor.name = .error (.unknownFilter descriptor.name)) :
    ∃ next, registry.register descriptor resolver = .ok next := by
  have absent : registry.contains descriptor.name = false := by
    rw [Bool.eq_false_iff, Ne, contains_find, fresh]
    simp
  rw [contains] at absent
  simp [register, Catalog.register?, absent]

end Registry

end FilterPlan
