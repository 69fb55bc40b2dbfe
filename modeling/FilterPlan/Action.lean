import FilterPlan.Journal

set_option autoImplicit false

namespace FilterPlan

/-- What lies outside the engine: the state that resolvers, generators and classifiers share, and the time in
nanoseconds. Only they change either of them. -/
structure World (σ : Type) where
  state : σ
  now : Nat

structure Outcome (σ ε α : Type) where
  result : Except ε α
  world : World σ
  journal : Journal

-- Something the engine does in a world, which may fail. What was done before a failure stays done.
def Action (σ ε α : Type) : Type := World σ → Outcome σ ε α

structure Reply (σ α : Type) where
  answer : α
  state : σ
  elapsed : Nat

namespace Action

variable {σ ε δ α β : Type}

def done (value : α) : Action σ ε α := fun world => ⟨.ok value, world, []⟩

def fail (error : ε) : Action σ ε α := fun world => ⟨.error error, world, []⟩

def bind (first : Action σ ε α) (next : α → Action σ ε β) : Action σ ε β := fun world =>
  match first world with
  | ⟨.error error, world, journal⟩ => ⟨.error error, world, journal⟩
  | ⟨.ok value, world, journal⟩ =>
      let after := next value world
      ⟨after.result, after.world, journal ++ after.journal⟩

instance : Monad (Action σ ε) where
  pure := done
  bind := bind

def ofExcept (result : Except ε α) : Action σ ε α := fun world => ⟨result, world, []⟩

def attempt (action : Action σ δ α) : Action σ ε (Except δ α) := fun world =>
  let outcome := action world
  ⟨.ok outcome.result, outcome.world, outcome.journal⟩

def mapError (change : δ → ε) (action : Action σ δ α) : Action σ ε α := fun world =>
  let outcome := action world
  ⟨outcome.result.mapError change, outcome.world, outcome.journal⟩

def onFailure (action : Action σ ε α) (respond : ε → Action σ ε Unit) : Action σ ε α :=
  action.attempt.bind fun
    | .ok value => done value
    | .error error => (respond error).bind fun _ => fail error

def now : Action σ ε Nat := fun world => ⟨.ok world.now, world, []⟩

def record (site : Site) (event : Event) : Action σ ε Unit := fun world =>
  ⟨.ok (), world, [⟨site, world.now, event⟩]⟩

def count (site : Site) (metric : Metric) : Action σ ε Unit := record site (.counted metric)

def consult (ask : σ → Reply σ α) : Action σ ε α := fun world =>
  let reply := ask world.state
  ⟨.ok reply.answer, ⟨reply.state, world.now + reply.elapsed⟩, []⟩

end Action

end FilterPlan
