import FilterPlan.Fixtures
import FilterPlan.Proofs.NameMap
import FilterPlan.Proofs.OrderedSet
import FilterPlan.Proofs.Registry
import Mathlib.Data.List.Forall2

set_option autoImplicit false

namespace FilterPlan

section Each

variable {ε α β : Type} (read : α → Except ε β)

theorem each_read (items : List α) (found : List β) (areRead : items.mapM read = .ok found) :
    List.Forall₂ (fun item value => read item = .ok value) items found := by
  induction items generalizing found with
  | nil =>
      obtain rfl := Except.ok.inj areRead
      exact .nil
  | cons item rest ih =>
      rw [List.mapM_cons] at areRead
      cases isRead : read item with
      | error error =>
          rw [isRead] at areRead
          cases areRead
      | ok value =>
          rw [isRead] at areRead
          cases othersRead : rest.mapM read with
          | error error =>
              rw [othersRead] at areRead
              cases areRead
          | ok others =>
              rw [othersRead] at areRead
              obtain rfl := Except.ok.inj areRead
              exact .cons isRead (ih others othersRead)

theorem each_readable (items : List α) (readable : ∀ item ∈ items, ∃ value, read item = .ok value) :
    ∃ found, items.mapM read = .ok found := by
  induction items with
  | nil => exact ⟨[], rfl⟩
  | cons item rest ih =>
      obtain ⟨value, isRead⟩ := readable item List.mem_cons_self
      obtain ⟨others, areRead⟩ := ih fun other inside => readable other (List.mem_cons_of_mem item inside)
      exact ⟨value :: others, by rw [List.mapM_cons, isRead, areRead]; rfl⟩

theorem each_mem (items : List α) (found : List β) (areRead : items.mapM read = .ok found) (value : β) :
    value ∈ found ↔ ∃ item ∈ items, read item = .ok value := by
  have paired := each_read read items found areRead
  clear areRead
  induction paired with
  | nil => simp
  | cons isRead areRead ih => simp [ih, isRead, eq_comm]

end Each

namespace IdentitySet

def Readable (texts : List String) : Prop := ∀ text ∈ texts, ∃ identity, Identity.parse text = .ok identity

def IsRead (texts : List String) (rows : IdentitySet) : Prop :=
  ∀ identity, identity ∈ rows.members ↔ ∃ text ∈ texts, Identity.parse text = .ok identity

theorem readable_parse (texts : List String) (readable : Readable texts) :
    ∃ rows, parse texts = .ok rows ∧ IsRead texts rows := by
  obtain ⟨identities, areRead⟩ := each_readable Identity.parse texts readable
  refine ⟨.ofList identities, by rw [parse, areRead]; rfl, fun identity => ?_⟩
  rw [OrderedSet.members_of_list, ← each_mem Identity.parse texts identities areRead identity]

end IdentitySet

namespace FixtureFilter

def Readable (filter : FixtureFilter) : Prop :=
  ∀ key texts, filter.answers.find? key = some texts → IdentitySet.Readable texts

-- The entities that are listed under a key, as the key is written.
def Lists (filter : FixtureFilter) (key : String) (rows : IdentitySet) : Prop :=
  ∃ texts, filter.answers.find? key = some texts ∧ IdentitySet.IsRead texts rows

theorem lists_parse (filter : FixtureFilter) (readable : filter.Readable) (key : String) (rows : IdentitySet) :
    filter.Lists key rows ↔ ∃ texts, filter.answers.find? key = some texts ∧ IdentitySet.parse texts = .ok rows := by
  refine exists_congr fun texts => and_congr_right fun found => ?_
  obtain ⟨parsed, isParsed, isRead⟩ := IdentitySet.readable_parse texts (readable key texts found)
  rw [isParsed, Except.ok.injEq]
  constructor
  · intro alsoRead
    refine OrderedSet.ext_members parsed rows (Set.ext fun identity => ?_)
    rw [isRead identity, alsoRead identity]
  · rintro rfl
    exact isRead

theorem readable_table (filter : FixtureFilter) (readable : filter.Readable) :
    ∃ table, filter.table = .ok table ∧ ∀ key rows, table.find? key = some rows ↔ filter.Lists key rows := by
  let read (entry : String × List String) : Except Identity.Fault (String × IdentitySet) :=
    do .ok (entry.1, ← IdentitySet.parse entry.2)
  have isRead (entry : String × List String) (row : String × IdentitySet) :
      read entry = .ok row ↔ row.1 = entry.1 ∧ IdentitySet.parse entry.2 = .ok row.2 := by
    cases parsed : IdentitySet.parse entry.2 <;> simp [read, parsed, bind, Except.bind, Prod.ext_iff, eq_comm]
  obtain ⟨rows, areRead⟩ := each_readable read filter.answers.entries fun entry inside => by
    have readableTexts := readable entry.1 entry.2 ((filter.answers.find_mem entry.1 entry.2).mpr inside)
    obtain ⟨found, parsed, _⟩ := IdentitySet.readable_parse entry.2 readableTexts
    exact ⟨(entry.1, found), (isRead _ _).mpr ⟨rfl, parsed⟩⟩
  have sameNames : filter.answers.entries.map Prod.fst = rows.map Prod.fst := by
    rw [← List.forall₂_eq_eq_eq, List.forall₂_map_left_iff, List.forall₂_map_right_iff]
    exact (each_read read _ rows areRead).imp fun entry row same => ((isRead entry row).mp same).1.symm
  refine ⟨.ofList rows, ?_, fun key found => ?_⟩
  · change (filter.answers.entries.mapM read >>= fun entries => .ok (NameMap.ofList entries)) = _
    rw [areRead]
    rfl
  · rw [NameMap.find_of_list rows (sameNames ▸ filter.answers.names_distinct), each_mem read _ rows areRead]
    simp only [isRead, filter.lists_parse readable, NameMap.find_mem]
    constructor
    · rintro ⟨entry, inside, rfl, parsed⟩
      exact ⟨entry.2, inside, parsed⟩
    · rintro ⟨texts, inside, parsed⟩
      exact ⟨(key, texts), inside, rfl, parsed⟩

section Resolver

variable {σ : Type} (table : NameMap IdentitySet) (instruction : String) (context : ResolveContext)

theorem resolver_listed (rows : IdentitySet) (found : table.find? (Text.trim instruction) = some rows) :
    (resolver table instruction context : Resolution σ) = .done (.ok rows) := by
  rw [resolver, found]

theorem resolver_unlisted (absent : table.find? (Text.trim instruction) = none) :
    (resolver table instruction context : Resolution σ) =
      .done (.error (.notApplicable ("no fixture answer for '" ++ instruction ++ "'"))) := by
  rw [resolver, absent]

end Resolver

end FixtureFilter

namespace Fixtures

structure Readable (fixtures : Fixtures) : Prop where
  domain : IdentitySet.Readable fixtures.domain
  filters : ∀ name filter, fixtures.filters.find? name = some filter → filter.Readable

def Serves {σ : Type} (registry : Registry σ) (name : String) (filter : FixtureFilter) : Prop :=
  ∃ table, filter.table = .ok table ∧ registry.find name = .ok ⟨filter.description, FixtureFilter.resolver table⟩

def enroll {σ : Type} (registry : Registry σ) (entry : String × FixtureFilter) : Except FixtureError (Registry σ) := do
  let table ← (entry.2.table).mapError .identity
  (registry.register ⟨entry.1, entry.2.description⟩ (FixtureFilter.resolver table)).mapError .registry

theorem enroll_fresh {σ : Type} (registry : Registry σ) (name : String) (filter : FixtureFilter)
    (readable : filter.Readable) (fresh : registry.find name = .error (.unknownFilter name)) :
    ∃ next, enroll registry (name, filter) = .ok next ∧ Serves next name filter ∧
      ∀ other, other ≠ name → next.find other = registry.find other := by
  obtain ⟨table, tabled, _⟩ := filter.readable_table readable
  obtain ⟨next, registered⟩ := registry.register_fresh ⟨name, filter.description⟩ (FixtureFilter.resolver table) fresh
  have found := Registry.find_register _ _ _ _ registered
  refine ⟨next, ?_, ⟨table, tabled, by rw [found, if_pos rfl]⟩, fun other different => ?_⟩
  · rw [enroll, tabled]
    change (registry.register ⟨name, filter.description⟩ _).mapError FixtureError.registry = _
    rw [registered]
    rfl
  · rw [found, if_neg (Ne.symm different)]

theorem enroll_all {σ : Type} (entries : List (String × FixtureFilter)) (distinct : (entries.map Prod.fst).Nodup)
    (readable : ∀ entry ∈ entries, entry.2.Readable) (start : Registry σ)
    (fresh : ∀ entry ∈ entries, start.find entry.1 = .error (.unknownFilter entry.1)) :
    ∃ registry, entries.foldlM enroll start = .ok registry ∧ (∀ entry ∈ entries, Serves registry entry.1 entry.2) ∧
      ∀ name, name ∉ entries.map Prod.fst → registry.find name = start.find name := by
  induction entries generalizing start with
  | nil => exact ⟨start, rfl, by simp, fun _ _ => rfl⟩
  | cons first rest ih =>
      obtain ⟨absent, distinctRest⟩ := List.nodup_cons.mp distinct
      obtain ⟨next, enrolled, serves, others⟩ := enroll_fresh start first.1 first.2
        (readable first List.mem_cons_self) (fresh first List.mem_cons_self)
      have freshRest : ∀ entry ∈ rest, next.find entry.1 = .error (.unknownFilter entry.1) := by
        intro entry inside
        have different : entry.1 ≠ first.1 := fun same => absent (same ▸ List.mem_map_of_mem inside)
        rw [others entry.1 different, fresh entry (List.mem_cons_of_mem first inside)]
      obtain ⟨registry, folded, serve, same⟩ := ih distinctRest
        (fun entry inside => readable entry (List.mem_cons_of_mem first inside)) next freshRest
      refine ⟨registry, ?_, fun entry inside => ?_, fun name missing => ?_⟩
      · rw [List.foldlM_cons, enrolled]
        exact folded
      · rcases List.mem_cons.mp inside with rfl | later
        · rwa [Serves, same entry.1 absent]
        · exact serve entry later
      · rw [List.map_cons, List.mem_cons, not_or] at missing
        rw [same name missing.2, others name missing.1]

theorem readable_registry {σ : Type} (fixtures : Fixtures) (readable : fixtures.Readable) :
    ∃ registry : Registry σ, fixtures.registry = .ok registry ∧
      ∀ name filter, fixtures.filters.find? name = some filter → Serves registry name filter := by
  obtain ⟨registry, folded, serve, _⟩ := enroll_all (σ := σ) fixtures.filters.entries fixtures.filters.names_distinct
    (fun entry inside => readable.filters entry.1 entry.2 ((fixtures.filters.find_mem _ _).mpr inside)) .empty
    (fun entry _ => Registry.find_empty entry.1)
  exact ⟨registry, folded, fun name filter found => serve (name, filter) ((fixtures.filters.find_mem _ _).mp found)⟩

end Fixtures

end FilterPlan
