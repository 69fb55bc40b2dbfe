import FilterPlan.Catalog
import FilterPlan.Resolver

set_option autoImplicit false

namespace FilterPlan

structure Filter (σ : Type) where
  description : String
  resolver : Resolver σ

structure Registry (σ : Type) where
  catalog : Catalog (Filter σ)

namespace Registry

variable {σ : Type}

def empty : Registry σ := ⟨.empty⟩

def register (registry : Registry σ) (descriptor : FilterDescriptor) (resolver : Resolver σ) :
    Except RegistryError (Registry σ) :=
  match registry.catalog.register? descriptor.name ⟨descriptor.description, resolver⟩ with
  | some catalog => .ok ⟨catalog⟩
  | none => .error (.duplicateFilter descriptor.name)

def contains (registry : Registry σ) (name : String) : Bool := registry.catalog.contains name

def find (registry : Registry σ) (name : String) : Except RegistryError (Filter σ) :=
  match registry.catalog.find? name with
  | some filter => .ok filter
  | none => .error (.unknownFilter name)

def names (registry : Registry σ) : List String := registry.catalog.names

def size (registry : Registry σ) : Nat := registry.catalog.size

def descriptors (registry : Registry σ) : List FilterDescriptor :=
  registry.catalog.entries.toList.map fun entry => ⟨entry.1, entry.2.description⟩

end Registry

end FilterPlan
