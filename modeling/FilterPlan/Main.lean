import FilterPlan.CommandLine.Words

set_option autoImplicit false

namespace FilterPlan.Command

def errorNumber (code : UInt32) : Nat := if code.toNat < 0x80000000 then code.toNat else (-code).toNat

def reason : IO.Error → String
  | .noFileOrDirectory _ code details | .inappropriateType _ code details | .permissionDenied _ code details
  | .invalidArgument _ code details | .noSuchThing _ code details | .resourceExhausted _ code details =>
      details.capitalize ++ " (os error " ++ toString (errorNumber code) ++ ")"
  | error => toString error

def readVariables : IO (List (String × String)) :=
  variableNames.filterMapM fun name => do
    return (← IO.getEnv name).map fun value => (name, value)

def readFiles (paths : List String) : IO (List (String × Except String String)) :=
  paths.mapM fun (path : String) => do
    match ← (IO.FS.readFile path).toBaseIO with
    | .ok text => return (path, .ok text)
    | .error error => return (path, .error (reason error))

end FilterPlan.Command

open FilterPlan in
def main (words : List String) : IO UInt32 := do
  let found ← Command.readVariables
  let environment := fun name => found.lookup name
  match Command.ofWords? environment words with
  | none =>
      IO.eprintln Command.usage
      return 2
  | some command =>
      let files ← Command.readFiles command.paths
      let file := fun path => (files.lookup path).getD (.error "not read")
      let transcript := command.run ⟨file, environment⟩
      IO.print transcript.stdout
      IO.eprint transcript.stderr
      return transcript.code.toUInt32
