set_option autoImplicit false

namespace FilterPlan

inductive Number where
  | natural (value : Nat)
  | other (literal : String)
deriving DecidableEq, Repr

inductive Json where
  | null
  | bool (value : Bool)
  | number (value : Number)
  | string (text : String)
  | array (items : List Json)
  | object (members : List (String × Json))

namespace Json

def lookup (key : String) : List (String × Json) → Option Json
  | [] => none
  | (name, value) :: rest =>
      match lookup key rest with
      | some later => some later
      | none => if name = key then some value else none

theorem lookup_mem (key : String) (members : List (String × Json)) (value : Json)
    (found : lookup key members = some value) : (key, value) ∈ members := by
  induction members with
  | nil => simp [lookup] at found
  | cons member rest hypothesis =>
      obtain ⟨name, first⟩ := member
      unfold lookup at found
      split at found
      · rename_i later inner
        cases found
        exact List.mem_cons_of_mem _ (hypothesis inner)
      · split at found
        · rename_i same
          cases found
          rw [same]
          exact List.mem_cons_self
        · simp at found

theorem lookup_smaller (key : String) (members : List (String × Json)) (value : Json)
    (found : lookup key members = some value) : sizeOf value < sizeOf members := by
  have inside := List.sizeOf_lt_of_mem (lookup_mem key members value found)
  simp only [Prod.mk.sizeOf_spec] at inside
  omega

def keys (members : List (String × Json)) : List String := members.map Prod.fst

def natural (value : Nat) : Json := .number (.natural value)

def natural? (limit : Nat) : Json → Option Nat
  | .number (.natural value) => if value ≤ limit then some value else none
  | _ => none

def string? : Json → Option String
  | .string text => some text
  | _ => none

def uniqueIn (members : List (String × Json)) (names : List String) : Bool :=
  names.all fun name => (keys members).count name ≤ 1

-- The fields of a record, in the order asked for: from an object by name, where a missing field is `none` and
-- none is written twice, or from a list that has exactly one item for each field.
def fields? (names : List String) : Json → Option (List (Option Json))
  | .object members =>
      if uniqueIn members names then some (names.map fun name => lookup name members) else none
  | .array items => if items.length = names.length then some (items.map some) else none
  | _ => none

def closedFields? (names : List String) : Json → Option (List (Option Json))
  | .object members =>
      if (keys members).all names.contains then fields? names (.object members) else none
  | .array items =>
      if items.length ≤ names.length then
        some (items.map some ++ List.replicate (names.length - items.length) none)
      else none
  | _ => none

def optional? {α : Type} (read : Json → Option α) : Option Json → Option (Option α)
  | none | some .null => some none
  | some value => (read value).map some

end Json

end FilterPlan
