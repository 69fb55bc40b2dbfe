import FilterPlan.Failure
import FilterPlan.Policy
import FilterPlan.Text.Unsigned
import FilterPlan.Toml
import FilterPlan.Word

set_option autoImplicit false

namespace FilterPlan

inductive ConfigError where
  | io (path reason : String)
  | parse (reason : String)
  | invalidValue (key message : String)
  | pool (reason : String)
deriving DecidableEq, Repr

namespace ConfigError

def message : ConfigError → String
  | .io path reason => "failed to read config file '" ++ path ++ "': " ++ reason
  | .parse reason => "invalid config document: " ++ reason
  | .invalidValue key message => "invalid value for " ++ key ++ ": " ++ message
  | .pool reason => "failed to build worker pool: " ++ reason

def failureClass : ConfigError → FailureClass
  | .io _ _ | .parse _ | .invalidValue _ _ => .configuration
  | .pool _ => .internal

def failure (error : ConfigError) : Failure := ⟨error.failureClass, .config, error.message⟩

end ConfigError

structure Config where
  workers : Nat
  queryTimeoutMs : Option Nat
  resolverRetries : Nat
  planRetries : Nat
  maxNestingDepth : Nat
  missingFilter : MissingFilterPolicy
  missingOperand : MissingOperandPolicy
deriving DecidableEq, Repr

namespace Config

def default : Config := ⟨4, none, 0, 2, 4, .skip, .empty⟩

def validate (config : Config) : Except ConfigError Unit :=
  if config.workers = 0 then .error (.invalidValue "workers" "must be at least 1")
  else if config.queryTimeoutMs = some 0 then
    .error (.invalidValue "query_timeout_ms" "must be positive; omit it to disable the deadline")
  else .ok ()

def maxPoolThreads : Nat := 65535

def poolThreads (config : Config) : Except ConfigError (Option Nat) := do
  config.validate
  if config.workers = 1 then .ok none
  else if maxPoolThreads < config.workers then .ok (some maxPoolThreads)
  else .ok (some config.workers)

def toJson (config : Config) : Json :=
  .object [("workers", .natural config.workers),
    ("query_timeout_ms", match config.queryTimeoutMs with | some limit => .natural limit | none => .null),
    ("resolver_retries", .natural config.resolverRetries), ("plan_retries", .natural config.planRetries),
    ("max_nesting_depth", .natural config.maxNestingDepth),
    ("missing_filter", .string config.missingFilter.word), ("missing_operand", .string config.missingOperand.word)]

-- Settings documents

def natural? (limit : Nat) : Toml.Value → Option Nat
  | .integer (.ofNat value) => if value ≤ limit then some value else none
  | _ => none

-- A policy is named by its word, or by a table whose only key is the word and whose value is empty.
def policy? {α : Type} (ofWord? : String → Option α) : Toml.Value → Option α
  | .text word => ofWord? word
  | .table _ [(word, .emptyList)] => ofWord? word
  | .table _ [(word, .table _ [])] => ofWord? word
  | _ => none

def setEntry (config : Config) : String × Toml.Value → Option Config
  | ("workers", value) => do some { config with workers := ← natural? maxWord64 value }
  | ("query_timeout_ms", value) => do some { config with queryTimeoutMs := some (← natural? maxWord64 value) }
  | ("resolver_retries", value) => do some { config with resolverRetries := ← natural? maxWord32 value }
  | ("plan_retries", value) => do some { config with planRetries := ← natural? maxWord32 value }
  | ("max_nesting_depth", value) => do some { config with maxNestingDepth := ← natural? maxWord32 value }
  | ("missing_filter", value) => do
      some { config with missingFilter := ← policy? MissingFilterPolicy.ofWord? value }
  | ("missing_operand", value) => do
      some { config with missingOperand := ← policy? MissingOperandPolicy.ofWord? value }
  | _ => none

def ofToml (document : String) : Except ConfigError Config :=
  match Toml.read document with
  | .error fault => .error (.parse fault.message)
  | .ok entries =>
      match entries.foldlM setEntry default with
      | none => .error (.parse "a setting is not known or has a value of the wrong kind")
      | some config => config.validate.map fun _ => config

-- Environment variables

structure Override where
  name : String
  apply : String → Config → Except String Config

def variablePrefix : String := "PLANSIEVE_"

def number (limit : Nat) (text : String) : Except String Nat :=
  match Text.readUnsigned limit (Text.trimChars text.toList) with
  | .ok value => .ok value
  | .error fault => .error fault.message

-- A time limit may also be given as `none` or left empty: then there is no limit.
def timeLimit (text : String) : Except String (Option Nat) :=
  if Text.trim text = "" ∨ Text.trim text = "none" then .ok none else (number maxWord64 text).map some

def overrides : List Override :=
  [⟨"WORKERS", fun text config => do .ok { config with workers := ← number maxWord64 text }⟩,
    ⟨"QUERY_TIMEOUT_MS", fun text config => do .ok { config with queryTimeoutMs := ← timeLimit text }⟩,
    ⟨"RESOLVER_RETRIES", fun text config => do .ok { config with resolverRetries := ← number maxWord32 text }⟩,
    ⟨"PLAN_RETRIES", fun text config => do .ok { config with planRetries := ← number maxWord32 text }⟩,
    ⟨"MAX_NESTING_DEPTH", fun text config => do .ok { config with maxNestingDepth := ← number maxWord32 text }⟩,
    ⟨"MISSING_FILTER", fun text config => do
      .ok { config with missingFilter := ← MissingFilterPolicy.parse text }⟩,
    ⟨"MISSING_OPERAND", fun text config => do
      .ok { config with missingOperand := ← MissingOperandPolicy.parse text }⟩]

-- Applies overrides in turn, up to the first bad one; the settings changed before it stay changed.
def applyOverrides (lookup : String → Option String) :
    List Override → Config → Config × Except ConfigError Unit
  | [], config => (config, config.validate)
  | override :: rest, config =>
      match lookup (variablePrefix ++ override.name) with
      | none => applyOverrides lookup rest config
      | some text =>
          match override.apply text config with
          | .ok config => applyOverrides lookup rest config
          | .error message =>
              (config, .error (.invalidValue (variablePrefix ++ override.name)
                ("'" ++ text ++ "': " ++ message)))

def applyEnvironment (config : Config) (lookup : String → Option String) : Config × Except ConfigError Unit :=
  applyOverrides lookup overrides config

def load (document : Option String) (lookup : String → Option String) : Except ConfigError Config := do
  let config ← match document with
    | some document => ofToml document
    | none => .ok default
  let (config, result) := config.applyEnvironment lookup
  result
  .ok config

end Config

end FilterPlan
