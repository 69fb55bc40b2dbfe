import FilterPlan.Action

set_option autoImplicit false

namespace FilterPlan

structure ResolveContext where
  path : Path
  plan : Plan
  fingerprint : Fingerprint
  attempt : Nat
  depth : Nat
  managed : Bool

-- A call of the manager, by a caller from outside or by a resolver.
inductive Call where
  | run (pipeline question : String)
  | execute (pipeline : String) (plan : Plan)
  | answer (question : String)

structure Answer where
  pipeline : String
  identities : IdentitySet

-- What a resolver does to answer a leaf. It may look at and change the state outside the engine, let time
-- pass, ask for a run of another pipeline inside its own query, and enter the manager anew, if there is one, by
-- a call like any other caller's. Whatever else it may reach writes nothing that the manager would see.
inductive Resolution (σ : Type) where
  | done (outcome : Except ResolverError IdentitySet)
  | look (next : σ → Resolution σ)
  | change (state : σ) (next : Resolution σ)
  | wait (time : Nat) (next : Resolution σ)
  | ask (pipeline question : String) (next : Except ResolverError IdentitySet → Resolution σ)
  | enter (call : Call) (next : Option (Except PipelineError Answer) → Resolution σ)

abbrev Resolver (σ : Type) := String → ResolveContext → Resolution σ

-- What is done for a resolver that asks for a run or enters the manager. Where there is no manager, a call is
-- not made; a call that finds no stack left does not come back to the resolver.
structure Access (σ : Type) where
  ask : String → String → Action σ ResolverError IdentitySet
  enter : Call → Action σ ResolverError (Option (Except PipelineError Answer))

namespace Resolution

variable {σ : Type}

def perform (access : Access σ) : Resolution σ → Action σ ResolverError IdentitySet
  | .done outcome => .ofExcept outcome
  | .look next => fun world => (next world.state).perform access world
  | .change state next => fun world => next.perform access ⟨state, world.now⟩
  | .wait time next => fun world => next.perform access ⟨world.state, world.now + time⟩
  | .ask pipeline question next =>
      (access.ask pipeline question).attempt.bind fun outcome => (next outcome).perform access
  | .enter call next => (access.enter call).bind fun reply => (next reply).perform access

end Resolution

namespace Resolver

variable {σ : Type}

def nested (pipeline : String) (project : IdentitySet → Except ResolverError IdentitySet) : Resolver σ :=
  fun instruction _ => .ask pipeline instruction fun outcome =>
    .done (match outcome with
      | .ok rows => project rows
      | .error error => .error error)

end Resolver

end FilterPlan
