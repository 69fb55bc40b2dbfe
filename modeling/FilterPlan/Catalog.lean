import Std.Data.HashMap

set_option autoImplicit false

namespace FilterPlan

-- Named values in the order in which they were registered, with an index from names to places. The index
-- leads to every entry, so a name is registered at most once.
structure Catalog (α : Type) where
  entries : Array (String × α)
  index : Std.HashMap String Nat
  indexed : ∀ (name : String) (place : Nat),
    index[name]? = some place ↔ ∃ value, entries[place]? = some (name, value)

namespace Catalog

variable {α : Type}

def empty : Catalog α := ⟨#[], ∅, by simp⟩

def contains (catalog : Catalog α) (name : String) : Bool := catalog.index.contains name

theorem push_indexed (catalog : Catalog α) (name : String) (value : α) (fresh : ¬ catalog.contains name)
    (other : String) (place : Nat) :
    (catalog.index.insert name catalog.entries.size)[other]? = some place ↔
      ∃ found, (catalog.entries.push (name, value))[place]? = some (other, found) := by
  rw [Std.HashMap.getElem?_insert, Array.getElem?_push]
  by_cases same : name = other
  · subst same
    by_cases newest : place = catalog.entries.size
    · simp [newest]
    · have absent : catalog.index[name]? = none := by
        simpa [contains] using fresh
      have unnamed := catalog.indexed name place
      rw [absent] at unnamed
      simp only [beq_self_eq_true, if_true, if_neg newest]
      constructor
      · intro ended
        exact absurd (Option.some.inj ended).symm newest
      · intro found
        exact absurd (unnamed.mpr found) (by simp)
  · have different : (name == other) = false := by simpa using same
    rw [different]
    by_cases newest : place = catalog.entries.size
    · have outside := catalog.indexed other place
      simp [newest] at outside
      simp [newest, same, outside]
    · simpa [newest] using catalog.indexed other place

def register? (catalog : Catalog α) (name : String) (value : α) : Option (Catalog α) :=
  if taken : catalog.contains name then none
  else some ⟨catalog.entries.push (name, value), catalog.index.insert name catalog.entries.size,
    push_indexed catalog name value taken⟩

def find? (catalog : Catalog α) (name : String) : Option α :=
  match catalog.index[name]? with
  | none => none
  | some place => catalog.entries[place]?.map Prod.snd

def names (catalog : Catalog α) : List String := catalog.entries.toList.map Prod.fst

def size (catalog : Catalog α) : Nat := catalog.entries.size

end Catalog

end FilterPlan
