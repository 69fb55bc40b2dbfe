import FilterPlan.Json
import FilterPlan.OrderedSet
import FilterPlan.Text.Blank

set_option autoImplicit false

namespace FilterPlan

structure Identity where
  name : String
  version : Option String
deriving DecidableEq, Repr

namespace Identity

-- Names first; of one name the unversioned entity comes before every version.
instance : Ord Identity := ⟨compareLex (compareOn Identity.name) (compareOn Identity.version)⟩

instance : Std.TransOrd Identity :=
  inferInstanceAs (Std.TransCmp (compareLex (compareOn Identity.name) (compareOn Identity.version)))

instance : Std.LawfulEqOrd Identity where
  eq_of_compare {a b} same := by
    have parts := compareLex_eq_eq.mp same
    cases a
    cases b
    simp only [compareOn, Std.compare_eq_iff_eq] at parts
    simp_all

def isNamed (identity : Identity) (name : String) (version : Option String) : Bool :=
  identity.name = name && (version.isNone || identity.version = version)

def text (identity : Identity) : String :=
  match identity.version with
  | some version => identity.name ++ ":" ++ version
  | none => identity.name

inductive Fault where
  | emptyName (text : String)
  | emptyVersion (text : String)
deriving DecidableEq, Repr

def Fault.message : Fault → String
  | .emptyName text => "identity has an empty name: '" ++ text ++ "'"
  | .emptyVersion text => "identity has an empty version: '" ++ text ++ "'"

-- Reads `name` or `name:version`. Blanks around the text are dropped, and the last colon parts the version
-- from the name.
def parse (source : String) : Except Fault Identity :=
  let trimmed := Text.trimChars source.toList
  match Text.splitAtLast? ':' trimmed with
  | some (_, []) => .error (.emptyVersion (String.ofList trimmed))
  | some ([], _) => .error (.emptyName (String.ofList trimmed))
  | some (name, version) => .ok ⟨String.ofList name, some (String.ofList version)⟩
  | none =>
      match trimmed with
      | [] => .error (.emptyName (String.ofList trimmed))
      | name => .ok ⟨String.ofList name, none⟩

def toJson (identity : Identity) : Json :=
  .object [("name", .string identity.name),
    ("version", match identity.version with | some version => .string version | none => .null)]

def ofJson? (value : Json) : Option Identity := do
  let fields ← value.fields? ["name", "version"]
  match fields with
  | [some (.string name), version] =>
      let version ← Json.optional? Json.string? version
      some ⟨name, version⟩
  | _ => none

end Identity

abbrev IdentitySet := OrderedSet Identity

def IdentitySet.parse (sources : List String) : Except Identity.Fault IdentitySet :=
  (sources.mapM Identity.parse).map OrderedSet.ofList

def IdentitySet.toJson (set : IdentitySet) : Json := .array (set.toList.map Identity.toJson)

end FilterPlan
