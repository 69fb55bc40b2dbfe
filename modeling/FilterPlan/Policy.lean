import FilterPlan.Text.Blank

set_option autoImplicit false

namespace FilterPlan

/-- What becomes of a leaf whose filter is not registered. -/
inductive MissingFilterPolicy where
  -- The leaf is left out of the result store.
  | skip
  -- The evaluation fails before any resolver is called.
  | reject
deriving DecidableEq, Repr

/-- What becomes of a `NOT` one of whose operands left nothing in the result store. -/
inductive MissingOperandPolicy where
  -- The missing operand counts as the empty set.
  | empty
  | reject
deriving DecidableEq, Repr

def policyWord (text : String) : String := Text.lowerAscii (Text.trim text)

namespace MissingFilterPolicy

def word : MissingFilterPolicy → String
  | .skip => "skip"
  | .reject => "reject"

def ofWord? (text : String) : Option MissingFilterPolicy :=
  if text = "skip" then some .skip else if text = "reject" then some .reject else none

def parse (text : String) : Except String MissingFilterPolicy :=
  match ofWord? (policyWord text) with
  | some policy => .ok policy
  | none => .error ("expected 'skip' or 'reject', got '" ++ policyWord text ++ "'")

end MissingFilterPolicy

namespace MissingOperandPolicy

def word : MissingOperandPolicy → String
  | .empty => "empty"
  | .reject => "reject"

def ofWord? (text : String) : Option MissingOperandPolicy :=
  if text = "empty" then some .empty else if text = "reject" then some .reject else none

def parse (text : String) : Except String MissingOperandPolicy :=
  match ofWord? (policyWord text) with
  | some policy => .ok policy
  | none => .error ("expected 'empty' or 'reject', got '" ++ policyWord text ++ "'")

end MissingOperandPolicy

end FilterPlan
