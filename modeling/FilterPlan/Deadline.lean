import FilterPlan.RunError

set_option autoImplicit false

namespace FilterPlan

-- The time that a query may take. Nested runs spend from the same time. The clock counts nanoseconds, the
-- limit milliseconds.
structure Deadline where
  started : Nat
  limitMs : Option Nat
deriving DecidableEq, Repr

namespace Deadline

def nanosPerMs : Nat := 1000000

def unbounded : Deadline := ⟨0, none⟩

def timeout? (deadline : Deadline) (now : Nat) : Option EvaluateError :=
  match deadline.limitMs with
  | none => none
  | some limit =>
      let elapsed := now - deadline.started
      if limit * nanosPerMs ≤ elapsed then some (.timeout (min (elapsed / nanosPerMs) maxWord64) limit)
      else none

end Deadline

end FilterPlan
