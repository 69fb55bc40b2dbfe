import FilterPlan.Registry
import FilterPlan.Text.Blank

set_option autoImplicit false

namespace FilterPlan

structure FixtureFilter where
  description : String
  answers : NameMap (List String)

structure Fixtures where
  domain : List String
  filters : NameMap FixtureFilter

namespace FixtureFilter

def textsOfJson? : Json → Option (List String)
  | .array items => items.mapM Json.string?
  | _ => none

-- A map from names to values; of a name written twice the last value counts.
def mapOfJson? {α : Type} (read : Json → Option α) : Json → Option (NameMap α)
  | .object members => do
      let entries ← members.mapM fun member => do some (member.1, ← read member.2)
      some (.ofList entries)
  | _ => none

def orDefault {α : Type} (default : α) (read : Json → Option α) : Option Json → Option α
  | none => some default
  | some value => read value

def ofJson? (value : Json) : Option FixtureFilter := do
  match ← value.closedFields? ["description", "answers"] with
  | [description, answers] =>
      some ⟨← orDefault "" Json.string? description, ← orDefault .empty (mapOfJson? textsOfJson?) answers⟩
  | _ => none

def table (filter : FixtureFilter) : Except Identity.Fault (NameMap IdentitySet) := do
  let entries ← filter.answers.entries.mapM fun entry => do .ok (entry.1, ← IdentitySet.parse entry.2)
  .ok (.ofList entries)

def resolver {σ : Type} (table : NameMap IdentitySet) : Resolver σ := fun instruction _ =>
  .done (match table.find? (Text.trim instruction) with
    | some rows => .ok rows
    | none => .error (.notApplicable ("no fixture answer for '" ++ instruction ++ "'")))

end FixtureFilter

inductive FixtureError where
  | identity (fault : Identity.Fault)
  | registry (error : RegistryError)
deriving DecidableEq, Repr

namespace Fixtures

open FixtureFilter in
def ofJson? (value : Json) : Option Fixtures := do
  match ← value.closedFields? ["universe", "filters"] with
  | [domain, filters] =>
      some ⟨← orDefault [] textsOfJson? domain, ← orDefault .empty (mapOfJson? FixtureFilter.ofJson?) filters⟩
  | _ => none

def identities (fixtures : Fixtures) : Except FixtureError IdentitySet :=
  (IdentitySet.parse fixtures.domain).mapError .identity

def registry {σ : Type} (fixtures : Fixtures) : Except FixtureError (Registry σ) :=
  fixtures.filters.entries.foldlM (fun registry entry => do
    let table ← (entry.2.table).mapError .identity
    (registry.register ⟨entry.1, entry.2.description⟩ (FixtureFilter.resolver table)).mapError .registry) .empty

end Fixtures

end FilterPlan
