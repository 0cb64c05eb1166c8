import Pipeline.Program
import Pipeline.Table
import Pipeline.Value.Tree

/-!
# The environment of a run

What the statements of a run read and change: variables, recorded bodies, counts, printed lines, the
store of lists, and the two stacks that control it, the frames and the number of running calls.
Every sequence of nodes that is being executed has a frame, which remembers how far the chain of
branches in that sequence has come.

The journal is written and never read by the run: log records, finished spans, and, where it is
asked for, the value after each command.
-/

namespace Pipeline

/-! ## The journal -/

/-- How important a log record is. -/
inductive Level where
  | debug
  | info
  | error
  deriving DecidableEq, Repr

/-- The name of a level. -/
def Level.word : Level → String
  | .debug => "DEBUG"
  | .info => "INFO"
  | .error => "ERROR"

/-- A log record. -/
structure LogRecord where
  level : Level
  message : String
  deriving DecidableEq, Repr

/-- A finished stretch of a run: a block statement, or the whole run. -/
structure Span where
  name : String
  line : Option Int
  failed : Bool
  deriving DecidableEq, Repr

/-- A command that returned, and the value it returned. -/
structure TraceStep where
  line : Int
  command : String
  value : Tree
  deriving Repr

/-- What a run leaves for its observers. -/
structure Journal where
  records : Array LogRecord := #[]
  spans : Array Span := #[]
  steps : Array TraceStep := #[]
  /-- The files that were asked for. -/
  asked : Array String := #[]
  deriving Repr

/-! ## The environment -/

/-- The state of a run. -/
structure Environment where
  bindings : Table Value := {}
  functions : Table (List Node) := {}
  /-- How often each command was executed. -/
  counts : Table Nat := {}
  /-- The printed lines, without their line ends. -/
  printed : Array String := #[]
  store : Store := {}
  /-- The state of the chain in each open frame, the innermost first: none, open with nothing taken
  yet, or with a branch taken. -/
  frames : List (Option Bool) := []
  callDepth : Int := 0
  journal : Journal := {}
  deriving Repr

namespace Environment

/-- The chain state of the innermost frame. -/
def chain (env : Environment) : Option Bool :=
  env.frames.head?.join

/-- Changes the chain state of the innermost frame, if there is one. -/
def setChain (env : Environment) (state : Option Bool) : Environment :=
  match env.frames with
  | [] => env
  | _ :: rest => { env with frames := state :: rest }

/-- Opens a frame. -/
def pushFrame (env : Environment) : Environment :=
  { env with frames := none :: env.frames }

/-- Closes the innermost frame. -/
def popFrame (env : Environment) : Environment :=
  { env with frames := env.frames.tail }

/-- The number of open frames. -/
def depth (env : Environment) : Nat :=
  env.frames.length

/-- Binds a variable. -/
def setVariable (env : Environment) (name : String) (value : Value) : Environment :=
  { env with bindings := env.bindings.insert name value }

/-- The value of a variable that has to be there. -/
def item (env : Environment) (name : String) : Except Fault Value :=
  match env.bindings.find? name with
  | some value => .ok value
  | none => .error (.missingVariable name)

/-- Counts one execution of a command. -/
def count (env : Environment) (command : String) : Environment :=
  { env with counts := env.counts.insert command ((env.counts.find? command).getD 0 + 1) }

/-- All that was printed. -/
def output (env : Environment) : String :=
  env.printed.foldl (fun text line => text ++ line ++ "\n") ""

/-- The number of executed statements. -/
def executed (env : Environment) : Nat :=
  env.counts.total

/-- Adds a log record. -/
def record (env : Environment) (level : Level) (message : String) : Environment :=
  { env with journal := { env.journal with records := env.journal.records.push ⟨level, message⟩ } }

/-- Adds a finished span. -/
def addSpan (env : Environment) (span : Span) : Environment :=
  { env with journal := { env.journal with spans := env.journal.spans.push span } }

/-- Adds a trace step. -/
def addStep (env : Environment) (step : TraceStep) : Environment :=
  { env with journal := { env.journal with steps := env.journal.steps.push step } }

/-- Notes that a file was asked for. -/
def ask (env : Environment) (path : String) : Environment :=
  { env with journal := { env.journal with asked := env.journal.asked.push path } }

/-- Adds a list to the store. -/
def newList (env : Environment) (elements : Array Value) : Value × Environment :=
  let (address, store) := env.store.alloc elements
  (.list address, { env with store := store })

end Environment

end Pipeline
