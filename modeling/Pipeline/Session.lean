import Pipeline.Execution

/-!
# Sessions

A session keeps a program that was read, a registry that can be changed between runs, and the
environment and counts of the run that was started last.  Its settings are fixed when it starts: the
commands that the registry marks as blocks at that moment open bodies.  Every run has a fresh
environment; a program that cannot be read changes nothing.
-/

namespace Pipeline

/-- A program being worked with. -/
structure Session where
  settings : Settings
  registry : Registry
  program : Option (List Node) := none
  environment : Option Environment := none
  /-- How often each command was executed in the last run. -/
  counts : Table Nat := {}
  /-- All log records so far. -/
  log : Array LogRecord := #[]

namespace Session

/-- Starts a session. -/
def start (settings : Settings) (registry : Registry) : Session :=
  { settings := settings.withBlockCommands registry.blockCommands, registry := registry }

/-- The number of statements executed in the last run. -/
def executed (session : Session) : Nat :=
  session.counts.total

/-- Adds a log record. -/
def record (session : Session) (level : Level) (message : String) : Session :=
  { session with log := session.log.push ⟨level, message⟩ }

/-- Reads a program and keeps it. -/
def load (files : FileSystem) (source : Source) (session : Session) :
    Except Fault (List Node) × Session :=
  match source.read files with
  | .error fault => (.error fault, session)
  | .ok text =>
    match Statement.readLines session.settings (Text.lines text.toList) with
    | .error fault => (.error fault, session)
    | .ok statements =>
      let session := session.record .debug s!"parsed {statements.length} statements"
      match Program.build session.settings statements with
      | .error fault => (.error fault, session)
      | .ok nodes =>
        (.ok nodes, { session with program := some nodes }.record .debug
          s!"built {nodes.length} top-level statements from {statements.length} lines")

/-- Runs nodes in a fresh environment. -/
def runNodes (files : FileSystem) (traced : Bool) (nodes : List Node) (session : Session) :
    Except Fault Value × Session :=
  let setup : Setup :=
    { settings := session.settings, registry := session.registry, files := files, traced := traced }
  let fresh : Environment := ({} : Environment).record .info
    s!"run start: {nodes.length} top-level statements"
  let (result, env) := inSpan "pipescript.run" none (execute setup nodes .nothing) fresh
  let env := match result with
    | .ok _ => env.record .info "run done"
    | .error fault =>
      if fault.isScript then env.record .error ("run aborted: " ++ fault.text) else env
  (result, { session with
    environment := some env
    counts := env.counts
    log := session.log ++ env.journal.records })

/-- Runs the program at hand. -/
def run (files : FileSystem) (traced : Bool) (session : Session) : Except Fault Value × Session :=
  match session.program with
  | none => (.error (.of .noProgram), session)
  | some nodes => session.runNodes files traced nodes

/-- Reads a program and runs it. -/
def runSource (files : FileSystem) (traced : Bool) (source : Source) (session : Session) :
    Except Fault Value × Session :=
  match session.load files source with
  | (.error fault, session) => (.error fault, session)
  | (.ok _, session) => session.run files traced

/-! ## Changes to the registry -/

/-- Registers a handler for the runs to come. -/
def register (session : Session) (name : String) (handler : Handler) (opensBlock : Bool) :
    Except Fault Session :=
  (session.registry.register name handler opensBlock).map fun registry =>
    { session with registry := registry }

/-- Removes a command for the runs to come. -/
def unregister (session : Session) (name : String) : Session :=
  { session with registry := session.registry.unregister name }

/-! ## Steps -/

/-- What can be done in a session. -/
inductive Step where
  | load (source : Source)
  /-- Runs a source, or else the program at hand. -/
  | run (source : Option Source)
  | register (name : String) (handler : Handler) (opensBlock : Bool)
  | unregister (name : String)
  | blockCommands
  deriving DecidableEq, Repr

/-- What a step answers. -/
inductive Reply where
  | loaded (size : Nat)
  | value (value : Value)
  | done
  | names (names : List String)
  deriving DecidableEq, Repr

/-- What comes of a step: its answer, what it printed, and the session after it. -/
structure Outcome where
  reply : Except Fault Reply
  output : String := ""
  session : Session

/-- What comes of a step that runs nodes. -/
def runStep (files : FileSystem) (nodes : List Node) (session : Session) : Outcome :=
  let (result, after) := session.runNodes files false nodes
  { reply := result.map .value
    output := (after.environment.map (·.output)).getD ""
    session := after }

/-- Takes a step. -/
def perform (files : FileSystem) (session : Session) : Step → Outcome
  | .load source =>
    let (result, after) := session.load files source
    { reply := result.map fun nodes => .loaded nodes.length, session := after }
  | .run none =>
    match session.program with
    | none => { reply := .error (.of .noProgram), session := session }
    | some nodes => session.runStep files nodes
  | .run (some source) =>
    match session.load files source with
    | (.error fault, after) => { reply := .error fault, session := after }
    | (.ok nodes, after) => after.runStep files nodes
  | .register name handler opensBlock =>
    match session.register name handler opensBlock with
    | .ok after => { reply := .ok .done, session := after }
    | .error fault => { reply := .error fault, session := session }
  | .unregister name => { reply := .ok .done, session := session.unregister name }
  | .blockCommands =>
    { reply := .ok (.names (sortedNames session.settings.blockCommands)), session := session }

end Session

end Pipeline
