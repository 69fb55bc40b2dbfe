import FilterPlan.Deadline
import FilterPlan.Metrics
import FilterPlan.Plan.Fingerprint
import FilterPlan.Schema

set_option autoImplicit false

namespace FilterPlan

inductive TraceNote where
  | planStart (leaves depth : Nat)
  | leafResolved (path : Path) (filter : String) (rows attempts : Nat)
  | leafSkipped (path : Path) (filter : String)
  | mergeFinish (rows : Nat)
  | error (failureClass : FailureClass) (origin : Origin)
deriving DecidableEq, Repr

structure PlanRequest where
  pipeline : String
  goal : String
  question : String
  schema : Schema
  exemplar : Option Plan
  attempt : Nat
  feedback : Option String

inductive Event where
  | counted (metric : Metric)
  | traced (fingerprint : Fingerprint) (note : TraceNote)
  | resolverCalled (path : Path) (filter instruction : String) (attempt : Nat)
  | resolverReturned (path : Path) (outcome : Except ResolverError IdentitySet)
  | planRequested (request : PlanRequest)
  | planProposed (outcome : Except GeneratorError Plan)
  | overflowed

-- Where something is done: at which depth of nested runs, inside how many calls of resolvers, and in the time
-- of which query. A resolver that calls the manager itself begins a query of its own, at depth 0.
structure Site where
  depth : Nat
  level : Nat
  deadline : Deadline
deriving DecidableEq, Repr

structure Entry where
  site : Site
  time : Nat
  event : Event

abbrev Journal := List Entry

namespace Journal

def metrics (journal : Journal) : List Metric :=
  journal.filterMap fun entry =>
    match entry.event with
    | .counted metric => some metric
    | _ => none

def trace (journal : Journal) : List (Fingerprint × TraceNote) :=
  journal.filterMap fun entry =>
    match entry.event with
    | .traced fingerprint note => some (fingerprint, note)
    | _ => none

def requests (journal : Journal) : List PlanRequest :=
  journal.filterMap fun entry =>
    match entry.event with
    | .planRequested request => some request
    | _ => none

end Journal

end FilterPlan
