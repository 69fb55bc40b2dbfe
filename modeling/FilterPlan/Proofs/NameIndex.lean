import FilterPlan.Manager
import FilterPlan.Proofs.Registry
import Mathlib.Data.List.Induction
import Mathlib.Data.List.Nodup

set_option autoImplicit false

namespace FilterPlan

namespace Catalog

variable {α : Type}

theorem names_at (catalog : Catalog α) (place : Nat) (name : String) :
    catalog.names[place]? = some name ↔ ∃ value, catalog.entries[place]? = some (name, value) := by
  simp [names]

theorem index_names (catalog : Catalog α) (name : String) (place : Nat) :
    catalog.index[name]? = some place ↔ catalog.names[place]? = some name := by
  rw [catalog.indexed, names_at]

theorem names_distinct (catalog : Catalog α) : catalog.names.Nodup := by
  rw [List.nodup_iff_getElem?_ne_getElem?]
  intro first second before inside same
  obtain ⟨name, listed⟩ : ∃ name, catalog.names[second]? = some name := ⟨_, List.getElem?_eq_getElem inside⟩
  have isFirst := (catalog.index_names name first).mpr (same.trans listed)
  have isSecond := (catalog.index_names name second).mpr listed
  have onePlace := Option.some.inj (isFirst.symm.trans isSecond)
  omega

theorem entries_found {β : Type} (catalog : Catalog α) (shown : String → α → β) :
    catalog.entries.toList.map (fun entry => shown entry.1 entry.2) =
      catalog.names.filterMap fun name => (catalog.find? name).map (shown name) := by
  rw [names, List.filterMap_map, ← List.filterMap_eq_map]
  refine List.filterMap_congr fun entry inside => ?_
  simp [(catalog.find_entries entry.1 entry.2).mpr inside]

theorem register_names (catalog next : Catalog α) (name : String) (value : α)
    (registered : catalog.register? name value = some next) : next.names = catalog.names ++ [name] := by
  rw [register?] at registered
  by_cases taken : catalog.contains name
  · simp [taken] at registered
  · rw [dif_neg taken, Option.some.injEq] at registered
    subst next
    simp [names]

theorem register_taken (catalog : Catalog α) (name : String) (value : α) :
    catalog.register? name value = none ↔ name ∈ catalog.names := by
  rw [← contains_iff, register?]
  by_cases taken : catalog.contains name <;> simp [taken]

/-- What a catalog holds after calls that register values: each name once, in the order of the first call under it, and
under each name the value of that call. -/
structure Follows (calls : List (String × α)) (catalog : Catalog α) : Prop where
  ordered : catalog.names = (calls.map Prod.fst).eraseDups
  found : ∀ name, catalog.find? name = (calls.find? fun call => call.1 = name).map Prod.snd

theorem follows_nothing : Follows [] (empty : Catalog α) :=
  ⟨rfl, fun name => by simp [find?, empty]⟩

theorem follows_accepted (calls : List (String × α)) (catalog next : Catalog α) (name : String) (value : α)
    (follows : catalog.Follows calls) (registered : catalog.register? name value = some next) :
    next.Follows (calls ++ [(name, value)]) := by
  have fresh : name ∉ catalog.names := by
    rw [← catalog.register_taken name value, registered]
    simp
  have unnamed : name ∉ calls.map Prod.fst := by
    rwa [follows.ordered, List.mem_eraseDups] at fresh
  constructor
  · rw [register_names _ _ _ _ registered, follows.ordered, List.map_append, List.eraseDups_append]
    simp [List.removeAll, unnamed, List.eraseDups_cons]
  · intro other
    rw [find_register _ _ _ _ registered, follows.found, List.find?_append]
    by_cases same : name = other
    · subst same
      have absent : (calls.find? fun call => call.1 = name) = none := by
        refine List.find?_eq_none.mpr fun call inside => ?_
        simpa using fun isName => unnamed (List.mem_map.mpr ⟨call, inside, isName⟩)
      simp [absent]
    · simp [same]

theorem follows_refused (calls : List (String × α)) (catalog : Catalog α) (name : String) (value : α)
    (follows : catalog.Follows calls) (taken : name ∈ catalog.names) : catalog.Follows (calls ++ [(name, value)]) := by
  have named : name ∈ calls.map Prod.fst := by
    rwa [follows.ordered, List.mem_eraseDups] at taken
  constructor
  · rw [follows.ordered, List.map_append, List.eraseDups_append]
    simp [List.removeAll, named]
  · intro other
    rw [follows.found, List.find?_append]
    by_cases same : name = other
    · subst same
      obtain ⟨call, inside, isName⟩ := List.mem_map.mp named
      have present : (calls.find? fun call => call.1 = name).isSome = true :=
        List.find?_isSome.mpr ⟨call, inside, by simpa using isName⟩
      obtain ⟨first, isFirst⟩ := Option.isSome_iff_exists.mp present
      rw [isFirst, Option.some_or]
    · simp [same]

def enter (catalog : Catalog α) (call : String × α) : Catalog α := (catalog.register? call.1 call.2).getD catalog

theorem follows_enter (calls : List (String × α)) (catalog : Catalog α) (follows : catalog.Follows calls)
    (call : String × α) : (catalog.enter call).Follows (calls ++ [call]) := by
  rw [enter]
  cases registered : catalog.register? call.1 call.2 with
  | none => exact follows_refused calls catalog call.1 call.2 follows ((register_taken _ _ _).mp registered)
  | some next => exact follows_accepted calls catalog next call.1 call.2 follows registered

theorem follows_all (calls : List (String × α)) : (calls.foldl enter empty).Follows calls := by
  induction calls using List.reverseRecOn with
  | nil => exact follows_nothing
  | append_singleton before call ih =>
      rw [List.foldl_append]
      exact follows_enter before _ ih call

end Catalog

namespace Registry

variable {σ : Type}

def enter (registry : Registry σ) (call : FilterDescriptor × Resolver σ) : Registry σ :=
  (registry.register call.1 call.2).toOption.getD registry

def ofCalls (calls : List (FilterDescriptor × Resolver σ)) : Registry σ := calls.foldl enter empty

def entryOf (call : FilterDescriptor × Resolver σ) : String × Filter σ := (call.1.name, ⟨call.1.description, call.2⟩)

theorem register_refused (registry : Registry σ) (descriptor : FilterDescriptor) (resolver : Resolver σ)
    (taken : descriptor.name ∈ registry.names) :
    registry.register descriptor resolver = .error (.duplicateFilter descriptor.name) ∧
      registry.enter (descriptor, resolver) = registry := by
  have refused : registry.register descriptor resolver = .error (.duplicateFilter descriptor.name) := by
    rw [register, (Catalog.register_taken _ _ _).mpr taken]
  exact ⟨refused, by rw [enter, refused]; rfl⟩

theorem register_accepted (registry : Registry σ) (descriptor : FilterDescriptor) (resolver : Resolver σ)
    (fresh : descriptor.name ∉ registry.names) :
    registry.register descriptor resolver = .ok (registry.enter (descriptor, resolver)) := by
  cases added : registry.catalog.register? descriptor.name ⟨descriptor.description, resolver⟩ with
  | none => exact absurd ((Catalog.register_taken _ _ _).mp added) fresh
  | some catalog =>
      have accepted : registry.register descriptor resolver = .ok ⟨catalog⟩ := by rw [register, added]
      rw [enter, accepted]
      rfl

theorem enter_catalog (registry : Registry σ) (call : FilterDescriptor × Resolver σ) :
    (registry.enter call).catalog = registry.catalog.enter (entryOf call) := by
  simp only [enter, register, Catalog.enter, entryOf]
  cases registry.catalog.register? call.1.name ⟨call.1.description, call.2⟩ <;> rfl

theorem calls_follow (calls : List (FilterDescriptor × Resolver σ)) :
    (ofCalls calls).catalog.Follows (calls.map entryOf) := by
  have entered : (ofCalls calls).catalog = (calls.map entryOf).foldl Catalog.enter .empty := by
    rw [ofCalls, List.foldl_map]
    exact (List.foldl_hom catalog fun registry call => (enter_catalog registry call).symm).symm
  rw [entered]
  exact Catalog.follows_all _

structure Indexed (calls : List (FilterDescriptor × Resolver σ)) (registry : Registry σ) : Prop where
  distinct : registry.names.Nodup
  ordered : registry.names = (calls.map fun call => call.1.name).eraseDups
  sized : registry.size = registry.names.length
  known : ∀ name, registry.contains name = true ↔ name ∈ registry.names
  reached : ∀ name, (∃ filter, registry.find name = .ok filter) ↔ name ∈ registry.names
  found : ∀ name, registry.find name =
    match calls.find? fun call => call.1.name = name with
    | some call => .ok ⟨call.1.description, call.2⟩
    | none => .error (.unknownFilter name)
  described : registry.descriptors =
    registry.names.filterMap fun name => (calls.find? fun call => call.1.name = name).map Prod.fst
  placed : ∀ name place, registry.catalog.index[name]? = some place ↔
    ∃ inside : place < registry.names.length, registry.names[place] = name
  refused : ∀ descriptor resolver, descriptor.name ∈ registry.names →
    registry.register descriptor resolver = .error (.duplicateFilter descriptor.name) ∧
      registry.enter (descriptor, resolver) = registry
  accepted : ∀ descriptor resolver, descriptor.name ∉ registry.names →
    registry.register descriptor resolver = .ok (registry.enter (descriptor, resolver))
  shown : (Schema.mk registry.descriptors).names = registry.names ∧
    ∀ name, (Schema.mk registry.descriptors).contains name = registry.contains name

theorem schema_names (registry : Registry σ) : (Schema.mk registry.descriptors).names = registry.names := by
  rw [Schema.names, descriptors, List.map_map]
  rfl

theorem schema_contains (registry : Registry σ) (name : String) :
    (Schema.mk registry.descriptors).contains name = registry.contains name := by
  rw [Bool.eq_iff_iff, contains, Catalog.contains_iff, ← names, ← registry.schema_names, Schema.contains, Schema.names]
  simp

theorem calls_indexed (calls : List (FilterDescriptor × Resolver σ)) : (ofCalls calls).Indexed calls := by
  have follows := calls_follow calls
  have found (name : String) : (ofCalls calls).catalog.find? name =
      (calls.find? fun call => call.1.name = name).map fun call => ⟨call.1.description, call.2⟩ := by
    rw [follows.found, List.find?_map, Option.map_map]
    rfl
  have known (name : String) : (ofCalls calls).contains name = true ↔ name ∈ (ofCalls calls).names :=
    Catalog.contains_iff _ name
  refine ⟨Catalog.names_distinct _, ?_, ?_, known, fun name => (contains_find _ name).symm.trans (known name),
    fun name => ?_, ?_, fun name place => ?_, register_refused _,
    register_accepted _, schema_names _, schema_contains _⟩
  · rw [names, follows.ordered, List.map_map]
    rfl
  · rw [size, Catalog.size, names, Catalog.names, List.length_map, Array.length_toList]
  · rw [find, found]
    cases calls.find? fun call => call.1.name = name <;> rfl
  · rw [descriptors, names,
      Catalog.entries_found _ fun name (filter : Filter σ) => FilterDescriptor.mk name filter.description]
    refine List.filterMap_congr fun name _ => ?_
    rw [found, Option.map_map]
    refine Option.map_congr fun call isFirst => ?_
    have isName : call.1.name = name := by simpa using List.find?_some isFirst
    rw [← isName]
    rfl
  · rw [Catalog.index_names, List.getElem?_eq_some_iff]
    rfl

end Registry

namespace Manager

variable {σ : Type}

def enter (manager : Manager σ) (call : String × Pipeline σ) : Manager σ :=
  (manager.add call.1 call.2).toOption.getD manager

def ofCalls (config : Config) (classifier : Option (Classifier σ)) (calls : List (String × Pipeline σ)) : Manager σ :=
  calls.foldl enter (bare config classifier)

def entryOf (call : String × Pipeline σ) : String × Pipeline σ := (call.1, { call.2 with name := call.1 })

theorem add_refused (manager : Manager σ) (name : String) (pipeline : Pipeline σ) (taken : name ∈ manager.names) :
    manager.add name pipeline = .error (.duplicatePipeline name) ∧ manager.enter (name, pipeline) = manager := by
  have refused : manager.add name pipeline = .error (.duplicatePipeline name) := by
    rw [add, (Catalog.register_taken _ _ _).mpr taken]
  exact ⟨refused, by rw [enter, refused]; rfl⟩

theorem add_accepted (manager : Manager σ) (name : String) (pipeline : Pipeline σ) (fresh : name ∉ manager.names) :
    manager.add name pipeline = .ok (manager.enter (name, pipeline)) := by
  cases added : manager.pipelines.register? name { pipeline with name } with
  | none => exact absurd ((Catalog.register_taken _ _ _).mp added) fresh
  | some pipelines =>
      have accepted : manager.add name pipeline = .ok { manager with pipelines } := by rw [add, added]
      rw [enter, accepted]
      rfl

theorem enter_pipelines (manager : Manager σ) (call : String × Pipeline σ) :
    manager.enter call = { manager with pipelines := manager.pipelines.enter (entryOf call) } := by
  simp only [enter, add, Catalog.enter, entryOf]
  cases manager.pipelines.register? call.1 { call.2 with name := call.1 } <;> rfl

theorem calls_follow (config : Config) (classifier : Option (Classifier σ)) (calls : List (String × Pipeline σ)) :
    (ofCalls config classifier calls).pipelines.Follows (calls.map entryOf) ∧
      (ofCalls config classifier calls).config = config ∧
      (ofCalls config classifier calls).classifier = classifier := by
  have entered : ofCalls config classifier calls =
      { bare config classifier with pipelines := (calls.map entryOf).foldl Catalog.enter .empty } := by
    rw [ofCalls, List.foldl_map]
    exact List.foldl_hom (fun pipelines => { bare config classifier with pipelines }) fun pipelines call =>
      enter_pipelines { bare config classifier with pipelines } call
  rw [entered]
  exact ⟨Catalog.follows_all _, rfl, rfl⟩

structure Indexed (config : Config) (classifier : Option (Classifier σ)) (calls : List (String × Pipeline σ))
    (manager : Manager σ) : Prop where
  distinct : manager.names.Nodup
  ordered : manager.names = (calls.map Prod.fst).eraseDups
  sized : manager.size = manager.names.length
  found : ∀ name, manager.find name =
    match calls.find? fun call => call.1 = name with
    | some call => .ok { call.2 with name }
    | none => .error (.unknownPipeline name)
  reached : ∀ name, (∃ pipeline, manager.find name = .ok pipeline) ↔ name ∈ manager.names
  called : ∀ name pipeline, manager.find name = .ok pipeline → pipeline.name = name
  listed : manager.pipelines.entries.toList.map (fun entry => entry.2.name) = manager.names
  placed : ∀ name place, manager.pipelines.index[name]? = some place ↔
    ∃ inside : place < manager.names.length, manager.names[place] = name
  refused : ∀ name pipeline, name ∈ manager.names →
    manager.add name pipeline = .error (.duplicatePipeline name) ∧ manager.enter (name, pipeline) = manager
  accepted : ∀ name pipeline, name ∉ manager.names →
    manager.add name pipeline = .ok (manager.enter (name, pipeline))
  sameConfig : manager.config = config
  sameClassifier : manager.classifier = classifier

theorem find_reached (manager : Manager σ) (name : String) :
    (∃ pipeline, manager.find name = .ok pipeline) ↔ name ∈ manager.names := by
  rw [names, ← Catalog.find_names, find]
  cases manager.pipelines.find? name <;> simp

theorem calls_indexed (config : Config) (classifier : Option (Classifier σ)) (calls : List (String × Pipeline σ)) :
    (ofCalls config classifier calls).Indexed config classifier calls := by
  obtain ⟨follows, sameConfig, sameClassifier⟩ := calls_follow config classifier calls
  have first (name : String) : (ofCalls config classifier calls).pipelines.find? name =
      (calls.find? fun call => call.1 = name).map fun call => { call.2 with name } := by
    rw [follows.found, List.find?_map, Option.map_map]
    refine Option.map_congr fun call isFirst => ?_
    have isName : (entryOf call).1 = name := by simpa using List.find?_some isFirst
    rw [← isName]
    rfl
  have found (name : String) : (ofCalls config classifier calls).find name =
      match calls.find? fun call => call.1 = name with
      | some call => .ok { call.2 with name }
      | none => .error (.unknownPipeline name) := by
    rw [find, first]
    cases calls.find? fun call => call.1 = name <;> rfl
  have called (name : String) (pipeline : Pipeline σ)
      (isFound : (ofCalls config classifier calls).pipelines.find? name = some pipeline) : pipeline.name = name := by
    rw [first, Option.map_eq_some_iff] at isFound
    obtain ⟨call, _, rfl⟩ := isFound
    rfl
  refine ⟨Catalog.names_distinct _, ?_, ?_, found, find_reached _, fun name pipeline isFound => ?_, ?_,
    fun name place => ?_, add_refused _, add_accepted _, sameConfig, sameClassifier⟩
  · rw [names, follows.ordered, List.map_map]
    rfl
  · rw [size, Catalog.size, names, Catalog.names, List.length_map, Array.length_toList]
  · rw [find] at isFound
    cases stored : (ofCalls config classifier calls).pipelines.find? name with
    | none => simp [stored] at isFound
    | some other =>
        rw [stored] at isFound
        exact Except.ok.inj isFound ▸ called name other stored
  · rw [names, Catalog.names]
    refine List.map_congr_left fun entry inside => ?_
    exact called entry.1 entry.2 ((Catalog.find_entries _ _ _).mpr inside)
  · rw [Catalog.index_names, List.getElem?_eq_some_iff]
    rfl

end Manager

-- The list of entries and the index of names agree after any sequence of registrations, in a registry as in a manager.
theorem names_indexed {σ : Type} :
    (∀ calls : List (FilterDescriptor × Resolver σ), (Registry.ofCalls calls).Indexed calls) ∧
      ∀ (config : Config) (classifier : Option (Classifier σ)) (calls : List (String × Pipeline σ)),
        (Manager.ofCalls config classifier calls).Indexed config classifier calls :=
  ⟨Registry.calls_indexed, Manager.calls_indexed⟩

end FilterPlan
