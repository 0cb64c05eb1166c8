import Pipeline.CommandLine.Arguments
import Pipeline.Json
import Pipeline.Session
import Pipeline.Settings.Fields

/-!
# The command line

Three commands: running a script, printing the tree of its statements, and checking a script that is
read from the standard input.  Faults of the script are reported on the standard output; any other
fault goes to whoever started the program, with what had been printed by then.
-/

namespace Pipeline.CommandLine

/-- What the program meets when it is started. -/
structure Surroundings where
  lookup : String → Option String := fun _ => none
  files : FileSystem := fun _ => .error .missing
  /-- The text of the standard input. -/
  input : String := ""

/-- How the program ends: with an exit code or with a fault, what it printed, and the files that it
asked for. -/
structure Ending where
  result : Except Fault Nat
  output : String := ""
  asked : List String := []

/-- The help text. -/
def helpText : String :=
"usage: pscript [-h] [-v] [--trace] \x7brun,tree,lint\x7d ...

PipeScript - line-oriented pipeline scripting

positional arguments:
  \x7brun,tree,lint\x7d
    run            Run a script file
    tree           Print the parsed statement tree as JSON
    lint           Check a script read from stdin

options:
  -h, --help       show this help message and exit
  -v, --verbose    Log every executed statement to stderr
  --trace          Print OpenTelemetry spans to stderr
"

/-- The line that reports a fault. -/
def errorLine (fault : Fault) : String :=
  "[Error] " ++ fault.text ++ "\n"

/-- Whether running a script reports a fault itself. -/
def reportedByRun : Fault → Bool
  | .script _ _ | .settings _ => true
  | _ => false

/-- Whether showing a tree reports a fault itself. -/
def reportedByTree : Fault → Bool
  | .script _ _ | .file _ _ => true
  | _ => false

/-- Whether a path names a file; a name that is too long is a fault of its own. -/
def isFile (files : FileSystem) (path : String) : Except Fault Bool :=
  if hasNul path then .ok false
  else
    match files path with
    | .ok _ => .ok true
    | .error .nameTooLong => .error (.file .nameTooLong (Path.normal path))
    | .error _ => .ok false

/-- Runs a script file. -/
def runFile (around : Surroundings) (file : String) (strict showResult : Bool) : Ending :=
  match isFile around.files file with
  | .error fault => { result := .error fault, asked := [file] }
  | .ok false =>
    { result := .ok 1
      output := "Error: Could not find script '" ++ file ++ "'\n"
      asked := [file] }
  | .ok true =>
    let fail (fault : Fault) (output : String) (asked : List String) : Ending :=
      if reportedByRun fault then
        { result := .ok 1, output := output ++ errorLine fault, asked := asked }
      else { result := .error fault, output := output, asked := asked }
    let fields : RawFields :=
      if strict then [(SettingName.strictVariables.word, .boolean true)] else []
    match Settings.ofEnvironment around.lookup fields with
    | .error fault => fail fault "" [file]
    | .ok settings =>
      let (result, session) := (Session.start settings Registry.standard).runSource around.files
        false (.file file)
      let env := session.environment.getD {}
      let asked := file :: env.journal.asked.toList
      match result with
      | .error fault => fail fault env.output asked
      | .ok value =>
        if showResult then
          match env.store.render value with
          | .ok text => { result := .ok 0, output := env.output ++ text ++ "\n", asked := asked }
          | .error fault => { result := .error fault, output := env.output, asked := asked }
        else { result := .ok 0, output := env.output, asked := asked }

/-- Prints the tree of a script file. -/
def showTree (around : Surroundings) (file : String) : Ending :=
  let nodes : Except Fault (List Node) := do
    let settings ← Settings.ofEnvironment around.lookup []
    let text ← (Source.file file).read around.files
    Program.ofText settings text
  match nodes with
  | .ok nodes =>
    { result := .ok 0, output := (Program.json nodes).text ++ "\n", asked := [file] }
  | .error fault =>
    if reportedByTree fault then { result := .ok 1, output := errorLine fault, asked := [file] }
    else { result := .error fault, asked := [file] }

/-- The line that a finding of the check names: the first one where there is none. -/
def findingLine (place : Place) : Int :=
  match place.line with
  | some n => if n = 0 then 1 else n
  | none => 1

/-- Checks the script in the standard input and reports the first fault. -/
def lint (around : Surroundings) : Ending :=
  let nodes : Except Fault (List Node) := do
    let settings ← Settings.ofEnvironment around.lookup []
    Program.ofText settings
      (String.ofList (Text.unifyLineEnds around.input.toList))
  match nodes with
  | .ok _ => { result := .ok 0 }
  | .error (.script cause place) =>
    { result := .ok 0
      output := "line " ++ toString (findingLine place) ++ ": " ++ cause.message ++ "\n" }
  | .error fault => { result := .error fault }

/-- Does what the arguments ask for. -/
def perform (around : Surroundings) (args : List String) : Ending :=
  match readArgs args with
  | .nothing => { result := .ok 1, output := helpText }
  | .help | .commandHelp => { result := .ok 0, output := helpText }
  | .misuse => { result := .ok 2 }
  | .run file strict showResult => runFile around file strict showResult
  | .tree file => showTree around file
  | .lint => lint around

end Pipeline.CommandLine
