import Pipeline.Fault
import Pipeline.Table
import Pipeline.Text.LetterCase

/-!
# The registry of commands

A registry maps command names to handlers and says which commands open blocks.  A handler is one of
the standard commands, or one of a small menu that a host program can add; the menu holds a handler
for each way of using the calling convention, and some that the convention does not fit.

Names are registered in lower case, and looked up and removed exactly as they are given.
-/

namespace Pipeline

/-! ## Handlers -/

/-- The commands of the language. -/
inductive StandardCommand where
  | use
  | set
  | store
  | split
  | join
  | replace
  | print
  | foreach
  | ifBranch
  | elifBranch
  | elseBranch
  | function
  | call
  deriving DecidableEq, Repr

namespace StandardCommand

/-- All standard commands. -/
def all : List StandardCommand :=
  [.use, .set, .store, .split, .join, .replace, .print, .foreach, .ifBranch, .elifBranch,
    .elseBranch, .function, .call]

/-- The command word of a standard command. -/
def word : StandardCommand → String
  | .use => "use"
  | .set => "set"
  | .store => "store"
  | .split => "split"
  | .join => "join"
  | .replace => "replace"
  | .print => "print"
  | .foreach => "foreach"
  | .ifBranch => "if"
  | .elifBranch => "elif"
  | .elseBranch => "else"
  | .function => "function"
  | .call => "call"

/-- Whether a standard command opens a block. -/
def opensBlock : StandardCommand → Bool
  | .foreach | .ifBranch | .elifBranch | .elseBranch | .function => true
  | _ => false

end StandardCommand

/-- The handlers that a host program can add. -/
inductive HostHandler where
  /-- Gives the value back. -/
  | identity
  /-- Adds one to a number and makes one of everything else. -/
  | increment
  /-- Runs the body twice. -/
  | twice
  /-- The number of arguments. -/
  | argumentCount
  /-- The line of the statement. -/
  | lineNumber
  /-- The number of nodes in the body. -/
  | bodySize
  /-- The open frames and the running calls. -/
  | depths
  /-- Always fails. -/
  | failing
  /-- Has a further parameter with a default, and gives the value back. -/
  | withDefault
  /-- Takes any number of arguments, and gives the value back. -/
  | anyArguments
  /-- Shows nothing of its parameters. -/
  | closed
  /-- Takes two arguments. -/
  | short
  /-- Takes no arguments. -/
  | none
  /-- Needs a sixth argument. -/
  | six
  /-- Needs an argument by name. -/
  | named
  /-- Is no handler at all. -/
  | notCallable
  deriving DecidableEq, Repr

/-- What runs a command. -/
inductive Handler where
  | standard (command : StandardCommand)
  | host (handler : HostHandler)
  deriving DecidableEq, Repr

namespace Handler

/-- Whether a handler can be called at all. -/
def isCallable : Handler → Bool
  | .host .notCallable => false
  | _ => true

/-- Why the calling convention does not fit a handler; `none` where it does. -/
def mismatch? : Handler → Option Mismatch
  | .host .short | .host .none => some .tooManyArguments
  | .host .six => some (.missingArgument "extra")
  | .host .named => some (.missingArgument "flag")
  | _ => none

end Handler

/-! ## Command names -/

/-- The characters a command name may start with. -/
def isCommandStart (c : Char) : Bool :=
  ('a' ≤ c && c ≤ 'z') || c == '_'

/-- Name characters up to the end, or up to one last line feed. -/
def isCommandTail : List Char → Bool
  | [] => true
  | ['\n'] => true
  | c :: rest => (isCommandStart c || ('0' ≤ c && c ≤ '9')) && isCommandTail rest

/-- Whether a text can name a command. -/
def isCommandName : List Char → Bool
  | [] => false
  | c :: rest => isCommandStart c && isCommandTail rest

/-! ## Registries -/

/-- A table of commands: the handlers by their names, and the set of the names that open blocks. -/
structure Registry where
  handlers : Table Handler := {}
  blocks : List String := []
  deriving Repr

namespace Registry

/-- The registry without commands. -/
def empty : Registry := {}

/-- The registry of the standard commands. -/
def standard : Registry :=
  { handlers := { entries := StandardCommand.all.map fun c => (c.word, .standard c) }
    blocks := (StandardCommand.all.filter (·.opensBlock)).map (·.word) }

/-- What speaks against registering a handler under a name. -/
def refusal? (name : String) (handler : Handler) : Option Cause :=
  if !isCommandName name.toList then some (.invalidName name)
  else if !handler.isCallable then some (.notCallable name)
  else handler.mismatch?.map (.unacceptable name)

/-- Enters a handler under a name, which then opens a block or not. -/
def enter (registry : Registry) (name : String) (handler : Handler) (opensBlock : Bool) : Registry :=
  { handlers := registry.handlers.insert name handler
    blocks := if opensBlock then registry.blocks.insert name else registry.blocks.erase name }

/-- Registers a handler under the lower-case form of a name. -/
def register (registry : Registry) (name : String) (handler : Handler) (opensBlock : Bool) :
    Except Fault Registry :=
  let name := Text.lowerString name
  match refusal? name handler with
  | some cause => .error (.of cause)
  | none => .ok (registry.enter name handler opensBlock)

/-- The decorator of a name, which registers the handler that it is put in front of. -/
def decorator (registry : Registry) (name : String) (opensBlock : Bool) :
    Handler → Except Fault Registry :=
  fun handler => registry.register name handler opensBlock

/-- Removes a name; a name that is not there is no fault. -/
def unregister (registry : Registry) (name : String) : Registry :=
  { handlers := registry.handlers.erase name, blocks := registry.blocks.erase name }

/-- The handler of a name. -/
def find? (registry : Registry) (name : String) : Option Handler :=
  registry.handlers.find? name

/-- The standard registry knows the words of the standard commands and nothing else. -/
theorem find?_standard {name : String} {handler : Handler}
    (h : standard.find? name = some handler) :
    ∃ command : StandardCommand, name = command.word ∧ handler = .standard command := by
  obtain ⟨command, -, hcommand⟩ := List.mem_map.1 (Table.mem_of_findEntry h)
  cases hcommand
  exact ⟨command, rfl, rfl⟩

/-- The handler of a name that has to be there. -/
def lookup (registry : Registry) (name : String) : Except Fault Handler :=
  match registry.find? name with
  | some handler => .ok handler
  | none => .error (.of (.unknownCommand name))

/-- Whether a name is registered. -/
def has (registry : Registry) (name : String) : Bool :=
  registry.handlers.has name

/-- The number of commands. -/
def size (registry : Registry) : Nat :=
  registry.handlers.entries.length

/-- The registered names, sorted. -/
def names (registry : Registry) : List String :=
  sortedNames registry.handlers.names

/-- The names of the commands that open blocks, sorted. -/
def blockCommands (registry : Registry) : List String :=
  sortedNames registry.blocks

end Registry

end Pipeline
