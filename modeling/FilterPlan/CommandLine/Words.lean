import FilterPlan.CommandLine

set_option autoImplicit false

namespace FilterPlan

structure Options where
  values : List (String × String)
  switches : List String
deriving DecidableEq, Repr

namespace Options

def splitWord? (word : String) : Option (String × String) :=
  match word.toList.dropWhile (· ≠ '=') with
  | [] | [_] => none
  | _ :: value => some (String.ofList (word.toList.takeWhile (· ≠ '=')), String.ofList value)

def ofWords? (named switches : List String) : List String → Option Options
  | [] => some ⟨[], []⟩
  | [word] => do
      if switches.contains word then
        some ⟨[], [word]⟩
      else
        let (name, value) ← splitWord? word
        if named.contains name then some ⟨[(name, value)], []⟩ else none
  | word :: next :: rest => do
      if switches.contains word then
        let others ← ofWords? named switches (next :: rest)
        some { others with switches := word :: others.switches }
      else if named.contains word ∧ next ≠ "" then
        let others ← ofWords? named switches rest
        some { others with values := (word, next) :: others.values }
      else
        let (name, value) ← splitWord? word
        let others ← ofWords? named switches (next :: rest)
        if named.contains name then some { others with values := (name, value) :: others.values } else none

def value? (options : Options) (name : String) : Option String :=
  (options.values.find? fun entry => entry.1 = name).map Prod.snd

def isOn (options : Options) (switch : String) : Bool := options.switches.contains switch

end Options

namespace Command

def usage : String :=
  "usage: schema --filters FILE\n       eval --plan FILE --fixtures FILE [--config FILE] [--trace] [--metrics]"

def configVariable : String := Config.variablePrefix ++ "CONFIG"

def ofWords? (environment : String → Option String) : List String → Option Command
  | "schema" :: rest => do
      let options ← Options.ofWords? ["--filters"] [] rest
      some (.schema (← options.value? "--filters"))
  | "eval" :: rest => do
      let options ← Options.ofWords? ["--plan", "--fixtures", "--config"] ["--trace", "--metrics"] rest
      let config ← match (options.value? "--config").or (environment configVariable) with
        | some "" => none
        | found => some found
      some (.eval (← options.value? "--plan") (← options.value? "--fixtures") config
        (options.isOn "--trace") (options.isOn "--metrics"))
  | _ => none

def variableNames : List String :=
  configVariable :: Config.overrides.map fun override => Config.variablePrefix ++ override.name

end Command

end FilterPlan
