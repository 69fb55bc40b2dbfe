import FilterPlan.Json.Reader

set_option autoImplicit false

/-! Reading a list of records of which only some keys matter. The values of the other keys are skimmed:
their form is checked, but no number need be in range, no surrogate paired and no nesting limited. -/
namespace FilterPlan.Json

def Token.standIn : Token → Token
  | .outOfRange => .null
  | .unpaired => .string ""
  | token => token

def hasForm (found : List Token) : Bool :=
  match ofTokens (found.map Token.standIn) with
  | .ok _ => true
  | .error _ => false

-- Splits off the tokens of the first value: those up to where no bracket is open any more. They are put after
-- `read`, the tokens so far, newest first; `levels` brackets are open.
def splitValue (levels : Nat) (read : List Token) : List Token → List Token × List Token
  | [] => (read.reverse, [])
  | token :: rest =>
      if token.levelsAfter levels = 0 then ((token :: read).reverse, rest)
      else splitValue (token.levelsAfter levels) (token :: read) rest

theorem split_value_shorter (levels : Nat) (read found : List Token) :
    (splitValue levels read found).2.length ≤ found.length := by
  induction found generalizing levels read with
  | nil => exact Nat.le_refl _
  | cons token rest hypothesis =>
      unfold splitValue
      split
      · exact Nat.le_succ _
      · exact Nat.le_succ_of_le (hypothesis _ _)

-- Puts null for the value of every key that `known` lacks in the records of an outermost list. The tokens so
-- far are in `read`, newest first, and `levels` brackets are open.
def skimFrom (known : List String) (levels : Nat) (read found : List Token) : Except Fault (List Token) :=
  match found with
  | [] => .ok read.reverse
  | .string key :: .colon :: rest =>
      if levels = 2 ∧ key ∉ known then
        if hasForm (splitValue 0 [] rest).1 then
          skimFrom known levels (.null :: .colon :: .string key :: read) (splitValue 0 [] rest).2
        else .error .unexpected
      else skimFrom known levels (.colon :: .string key :: read) rest
  | token :: rest => skimFrom known (token.levelsAfter levels) (token :: read) rest
termination_by found.length
decreasing_by
  all_goals simp only [List.length_cons]
  · have shorter := split_value_shorter 0 [] rest
    omega
  · omega
  · omega

def readRecords (known : List String) (limit : Nat) (text : String) : Except Fault Json :=
  match tokens text.toList with
  | .error fault => .error fault
  | .ok found =>
      match skimFrom known 0 [] found with
      | .error fault => .error fault
      | .ok kept => ofTokensWithin limit kept

end FilterPlan.Json
