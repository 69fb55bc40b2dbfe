import FilterPlan.Fixtures
import FilterPlan.Json.Printer
import FilterPlan.Json.Skim
import FilterPlan.Manager

set_option autoImplicit false

namespace FilterPlan

inductive Command where
  | schema (filters : String)
  | eval (plan fixtures : String) (config : Option String) (trace metrics : Bool)
deriving DecidableEq, Repr

structure Host where
  file : String → Except String String
  environment : String → Option String

structure Transcript where
  code : Nat
  stdout : String
  stderr : String
deriving DecidableEq, Repr

inductive CommandError where
  | unreadable (path reason : String)
  | json (message : String)
  | identity (fault : Identity.Fault)
  | engine (report : Report)
deriving DecidableEq, Repr

namespace CommandError

def message : CommandError → String
  | .unreadable path reason => "cannot read '" ++ path ++ "': " ++ reason
  | .json message => "invalid JSON: " ++ message
  | .identity fault => "invalid identity: " ++ fault.message
  | .engine report => report.kind.name ++ ": " ++ report.message

def ofFailure (failure : Failure) : CommandError := .engine failure.report

def ofFixture : FixtureError → CommandError
  | .identity fault => .identity fault
  | .registry error => .ofFailure error.failure

end CommandError

def TraceNote.line (fingerprint : Fingerprint) (note : TraceNote) : String :=
  "[" ++ fingerprint.short ++ "] " ++
    match note with
    | .planStart leaves depth => "plan start leaves=" ++ toString leaves ++ " depth=" ++ toString depth
    | .leafResolved path filter rows attempts =>
        path.text ++ " " ++ filter ++ " rows=" ++ toString rows ++ " attempts=" ++ toString attempts
    | .leafSkipped path filter => path.text ++ " " ++ filter ++ " skipped"
    | .mergeFinish rows => "merged rows=" ++ toString rows
    | .error failureClass origin => "error " ++ origin.label ++ ":" ++ failureClass.label

namespace Command

def paths : Command → List String
  | .schema filters => [filters]
  | .eval plan fixtures config _ _ => plan :: fixtures :: config.toList

def nestingLimit : Nat := 127

def readFile (host : Host) (path : String) : Except CommandError String :=
  (host.file path).mapError (.unreadable path)

def interpret {α : Type} (meaning : Json → Option α) : Except Json.Fault Json → Except CommandError α
  | .error fault => .error (.json fault.message)
  | .ok value =>
      match meaning value with
      | some found => .ok found
      | none => .error (.json "the document does not have the expected form")

def readConfig (host : Host) (path : Option String) : Except ConfigError Config := do
  match path with
  | none => Config.load none host.environment
  | some path =>
      match host.file path with
      | .error reason => .error (.io path reason)
      | .ok document => Config.load (some document) host.environment

def pipelineName : String := "fixtures"

def goal : String := "Fixture catalog"

def managerFor (config : Config) (fixtures : Fixtures) (plan : Plan) : Except CommandError (Manager Unit) := do
  let manager ← (Manager.ofConfig config none).mapError fun error => .ofFailure error.failure
  let registry ← fixtures.registry.mapError .ofFixture
  let domain ← fixtures.identities.mapError .ofFixture
  let pipeline : Pipeline Unit :=
    ⟨Pipeline.unnamed, goal, registry, domain, fun _ state => ⟨.ok plan, state, 0⟩, none⟩
  (manager.add pipelineName pipeline).mapError fun error => .ofFailure error.failure

-- Evaluates a plan against fixtures. Nothing takes time, so no time limit is ever reached.
def evaluate (host : Host) (plan fixtures : String) (config : Option String) :
    Except CommandError (Outcome Unit PipelineError IdentitySet) := do
  let plan ← (Plan.ofText (← readFile host plan)).mapError fun error => .ofFailure error.failure
  let fixtures ← interpret Fixtures.ofJson? (Json.read nestingLimit (← readFile host fixtures))
  let config ← (readConfig host config).mapError fun error => .ofFailure error.failure
  let manager ← managerFor config fixtures plan
  .ok (manager.execute pipelineName plan ⟨(), 0⟩)

def lines (texts : List String) : String := String.join (texts.map fun text => text ++ "\n")

def failed (notes : List String) (error : CommandError) : Transcript :=
  ⟨1, "", lines (notes ++ ["error: " ++ error.message])⟩

def runSchema (host : Host) (filters : String) : Except CommandError String := do
  let document := Json.readRecords FilterDescriptor.fieldNames nestingLimit (← readFile host filters)
  let descriptors ← interpret FilterDescriptor.listOfJson? document
  .ok (Schema.toJson ⟨descriptors⟩).pretty

def run (host : Host) : Command → Transcript
  | .schema filters =>
      match runSchema host filters with
      | .ok text => ⟨0, lines [text], ""⟩
      | .error error => failed [] error
  | .eval plan fixtures config trace metrics =>
      match evaluate host plan fixtures config with
      | .error error => failed [] error
      | .ok outcome =>
          let notes :=
            if trace then outcome.journal.trace.map fun entry => entry.2.line entry.1 else []
          match outcome.result with
          | .error error => failed notes (.ofFailure error.failure)
          | .ok rows =>
              let counters := Metrics.zero.countAll outcome.journal.metrics
              let report := if metrics then [counters.toJson.pretty] else []
              ⟨0, lines [(IdentitySet.toJson rows).pretty], lines (notes ++ report)⟩

end Command

end FilterPlan
