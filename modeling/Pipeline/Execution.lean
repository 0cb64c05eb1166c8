import Pipeline.Environment
import Pipeline.Expr.Eval
import Pipeline.Files
import Pipeline.Registry
import Pipeline.Text.Separator
import Pipeline.Value.Sameness

/-!
# Execution

A sequence of nodes is executed by passing one value through its commands.  Every command is looked
up, counted, and run by its handler; a handler gets the value, the unevaluated arguments, the line,
and, for a block, the body.

A failure leaves the environment as it is at that moment, apart from the frame and the call that are
being left.  The execution of nodes follows their structure, and how the body of a called function
is run is a parameter of it; `runWithin` gives that parameter for as many nested calls as the
settings allow, so that every run ends.
-/

namespace Pipeline

/-- What a run is given and does not change. -/
structure Setup where
  settings : Settings := {}
  registry : Registry := Registry.standard
  files : FileSystem := fun _ => .error .missing
  /-- Whether the journal keeps the value after each command. -/
  traced : Bool := false

/-- A computation that changes the environment and may fail. -/
abbrev Exec := ExceptT Fault (StateM Environment)

/-- How the value of a sequence of nodes is computed from the value it starts with. -/
abbrev Runner := Value → Exec Value

/-- Fails at a line. -/
def failAt {α : Type} (line : Int) (cause : Cause) : Exec α :=
  throw (.script cause (.ofLine line))

/-- A computation between two changes of the environment, the second of which happens in any
case. -/
def between {α : Type} (enter leave : Environment → Environment) (body : Exec α) : Exec α :=
  fun env =>
    let (result, env) := body (enter env)
    (result, leave env)

/-- A computation in a frame of its own. -/
def inFrame {α : Type} (body : Exec α) : Exec α :=
  between Environment.pushFrame Environment.popFrame body

/-- A computation that counts as one more running call. -/
def inCall {α : Type} (body : Exec α) : Exec α :=
  between (fun env => { env with callDepth := env.callDepth + 1 })
    (fun env => { env with callDepth := env.callDepth - 1 }) body

/-- A computation that leaves a span behind. -/
def inSpan {α : Type} (name : String) (line : Option Int) (body : Exec α) : Exec α :=
  fun env =>
    let (result, env) := body env
    (result, env.addSpan ⟨name, line, !result.isOk⟩)

/-! ## Commands -/

/-- What a handler is called with. -/
structure Invocation where
  value : Value
  args : List Expr
  line : Int
  body : Option (List Node)

namespace Command

/-- Fails because of the number of arguments. -/
def wrongArity {α : Type} (command : String) (allowed : List Nat) (line : Int) : Exec α :=
  failAt line (.wrongArity command allowed)

/-- The value of the argument with a given number. -/
def evalArg (setup : Setup) (line : Int) (number : Nat) (arg : Expr) : Exec Value := do
  let env ← get
  match locating (.ofArgument line number)
      (arg.eval setup.settings.strictVariables env.bindings) with
  | .ok value => return value
  | .error fault => throw fault

/-- The string that an argument has to be. -/
def stringArg (setup : Setup) (line : Int) (number : Nat) (arg : Expr) : Exec String := do
  match ← evalArg setup line number arg with
  | .string s => return s
  | value =>
    let _ ← value.kind
    throw (.script .stringNeeded (.ofArgument line number))

/-- The name that the first argument has to be. -/
def nameArg (line : Int) (arg : Expr) : Exec String :=
  match locating (.ofArgument line 0) arg.variableName with
  | .ok name => pure name
  | .error fault => throw fault

/-- Fails because the command does not work on the value. -/
def wrongInput {α : Type} (command : String) (needed : ValueKind) (value : Value) (line : Int) :
    Exec α := do
  let actual ← value.kind
  failAt line (.wrongInput command needed actual)

/-- Whether a value counts as true. -/
def truth (value : Value) : Exec Bool := do
  (← get).store.isTruthy value

/-- The text of a value. -/
def textOf (value : Value) : Exec String := do
  (← get).store.render value

/-- Reads a file as a text. -/
def readText (setup : Setup) (line : Int) (path : String) : Exec String := do
  let unreadable (problem : ReadProblem) : Exec String :=
    throw (.script (.unreadable path problem) (.ofArgument line 0))
  if hasNul path then throw .nulInPath
  modify (·.ask path)
  match setup.files path with
  | .error problem => unreadable (.file problem)
  | .ok bytes =>
    match Text.decodeUtf8 bytes with
    | .error offset => unreadable (.notUtf8 offset)
    | .ok s => return String.ofList (Text.unifyLineEnds s.toList)

/-- Binds a variable. -/
def bindVariable (name : String) (value : Value) : Exec Unit :=
  modify (·.setVariable name value)

/-- Prints a line. -/
def printLine (s : String) : Exec Unit :=
  modify fun env => { env with printed := env.printed.push s }

/-- Replaces the elements of a list in place, from the one at `index` on, each by the result of a
run that starts with it. -/
def replaceElements (run : Runner) (address : Nat) : (index remaining : Nat) → Exec Unit
  | _, 0 => pure ()
  | index, remaining + 1 => do
    let element := ((← get).store.elements address)[index]?.getD .nothing
    let result ← run element
    modify fun env => { env with store := env.store.write address index result }
    replaceElements run address (index + 1) remaining

/-- Takes a branch of the chain, or does not. -/
def takeBranch (run : Runner) (taken : Bool) (value : Value) : Exec Value := do
  modify (·.setChain (some taken))
  if taken then run value else return value

/-- Runs the body of a branch that is in a chain, unless a branch before it was taken. -/
def continueChain (command : String) (line : Int) (value : Value) (branch : Exec Value) :
    Exec Value := do
  match (← get).chain with
  | none => failAt line (.misplacedContinuation command)
  | some true => return value
  | some false => branch

/-- Runs a recorded body as one more call. -/
def callFunction (setup : Setup) (call : List Node → Runner) (line : Int) (name : String)
    (value : Value) : Exec Value := do
  match (← get).functions.find? name with
  | none => failAt line (.unknownFunction name)
  | some body =>
    if (setup.settings.maxCallDepth : Int) ≤ (← get).callDepth then
      failAt line (.callsTooDeep setup.settings.maxCallDepth)
    else inCall (call body value)

/-- Runs a standard command; `call` runs recorded bodies, `run` the body of the command itself. -/
def standard (setup : Setup) (call : List Node → Runner) (run : Runner) (i : Invocation) :
    StandardCommand → Exec Value
  | .use =>
    match i.args with
    | [path] => do
      let path ← stringArg setup i.line 0 path
      return .string (← readText setup i.line path)
    | _ => wrongArity "use" [1] i.line
  | .set =>
    match i.args with
    | [arg] => evalArg setup i.line 0 arg
    | _ => wrongArity "set" [1] i.line
  | .store =>
    match i.args with
    | [name] => do
      bindVariable (← nameArg i.line name) i.value
      return i.value
    | [name, arg] => do
      let name ← nameArg i.line name
      bindVariable name (← evalArg setup i.line 1 arg)
      return i.value
    | _ => wrongArity "store" [1, 2] i.line
  | .split =>
    match i.value with
    | .string s =>
      match i.args with
      | [separator] => do
        let separator ← stringArg setup i.line 0 separator
        let pieces := Text.cut separator.toList s.toList
        modifyGet (·.newList (pieces.map fun piece => .string (String.ofList piece)).toArray)
      | _ => wrongArity "split" [1] i.line
    | value => wrongInput "split" .string value i.line
  | .join =>
    match i.value with
    | .list address =>
      let join (separator : String) : Exec Value := do
        let texts ← ((← get).store.elements address).toList.mapM textOf
        return .string (separator.intercalate texts)
      match i.args with
      | [] => join ""
      | [separator] => do join (← stringArg setup i.line 0 separator)
      | _ => wrongArity "join" [0, 1] i.line
    | value => wrongInput "join" .list value i.line
  | .replace =>
    match i.args with
    | [sought, substitute] => do
      let sought ← evalArg setup i.line 0 sought
      let substitute ← evalArg setup i.line 1 substitute
      return if ← (← get).store.same i.value sought then substitute else i.value
    | _ => wrongArity "replace" [2] i.line
  | .print =>
    match i.args with
    | [] => do
      printLine (← textOf i.value)
      return i.value
    | [arg] => do
      let shown ← evalArg setup i.line 0 arg
      printLine (← textOf shown)
      return i.value
    | _ => wrongArity "print" [0, 1] i.line
  | .foreach =>
    match i.args with
    | [] =>
      match i.value with
      | .list address => do
        replaceElements run address 0 ((← get).store.elements address).size
        return i.value
      | value => wrongInput "foreach" .list value i.line
    | _ => wrongArity "foreach" [0] i.line
  | .ifBranch =>
    match i.args with
    | [condition] => do
      let taken ← truth (← evalArg setup i.line 0 condition)
      takeBranch run taken i.value
    | _ => wrongArity "if" [1] i.line
  | .elifBranch =>
    match i.args with
    | [condition] =>
      continueChain "elif" i.line i.value do
        let taken ← truth (← evalArg setup i.line 0 condition)
        takeBranch run taken i.value
    | _ => wrongArity "elif" [1] i.line
  | .elseBranch =>
    match i.args with
    | [] => continueChain "else" i.line i.value (takeBranch run true i.value)
    | _ => wrongArity "else" [0] i.line
  | .function =>
    match i.args with
    | [name] => do
      let name ← nameArg i.line name
      modify fun env =>
        { env with functions := env.functions.insert name (i.body.getD []) }
      return i.value
    | _ => wrongArity "function" [1] i.line
  | .call =>
    match i.args with
    | [name] => do callFunction setup call i.line (← nameArg i.line name) i.value
    | _ => wrongArity "call" [1] i.line

/-- Runs a handler of the host. -/
def host (run : Runner) (i : Invocation) : HostHandler → Exec Value
  | .increment =>
    match i.value with
    | .number n => return .number (n + 1)
    | _ => return .number 1
  | .twice => do run (← run i.value)
  | .argumentCount => return .number i.args.length
  | .lineNumber => return .number i.line
  | .bodySize =>
    match i.body with
    | some body => return .number body.length
    | none => return .nothing
  | .depths => do
    let env ← get
    modifyGet (·.newList #[.number env.depth, .number env.callDepth])
  | .failing => throw (.script (.raised "boom") (.ofArgument i.line 7))
  | _ => return i.value

/-- Runs a handler. -/
def run (setup : Setup) (call : List Node → Runner) (body : Runner) (i : Invocation) :
    Handler → Exec Value
  | .standard command => standard setup call body i command
  | .host handler => host body i handler

end Command

/-! ## Nodes -/

/-- Executes one command: looks it up, records and counts it, runs its handler, and closes the chain
of branches unless the command keeps it open. -/
def runCommand (setup : Setup) (call : List Node → Runner) (body : Option (List Node))
    (run : Runner) (s : Statement) (value : Value) : Exec Value := do
  let handler ←
    match locating (.ofLine s.line) (setup.registry.lookup s.command) with
    | .ok handler => pure handler
    | .error fault => throw fault
  modify fun env => (env.record .debug
    s!"line {s.line}: {s.command} ({s.args.length} args)").count s.command
  let handled := Command.run setup call run ⟨value, s.args, s.line, body⟩ handler
  let result ←
    match body with
    | some _ => inSpan ("block:" ++ s.command) (some s.line) handled
    | none => handled
  if setup.traced then
    modify fun env => env.addStep ⟨s.line, s.command, env.store.tree result⟩
  if !chainCommands.contains s.command then modify (·.setChain none)
  return result

mutual
/-- Executes a node. -/
def runNode (setup : Setup) (call : List Node → Runner) : Node → Runner
  | .simple s => fun value => runCommand setup call none pure s value
  | .block s body => fun value =>
    runCommand setup call (some body) (fun v => inFrame (runNodes setup call body v)) s value

/-- Executes nodes in order. -/
def runNodes (setup : Setup) (call : List Node → Runner) : List Node → Runner
  | [] => fun value => pure value
  | node :: rest => fun value => do
    let next ← runNode setup call node value
    runNodes setup call rest next
end

/-- Executes nodes in a frame of their own, with at most `budget` nested calls. -/
def runWithin (setup : Setup) : (budget : Nat) → List Node → Runner
  | 0, nodes, value =>
    inFrame (runNodes setup
      (fun _ _ => throw (.of (.callsTooDeep setup.settings.maxCallDepth))) nodes value)
  | budget + 1, nodes, value => inFrame (runNodes setup (runWithin setup budget) nodes value)

/-- Executes nodes.  No more calls can be nested than the settings allow beyond those that are
already running. -/
def execute (setup : Setup) (nodes : List Node) (value : Value) : Exec Value := do
  let env ← get
  runWithin setup (setup.settings.maxCallDepth - env.callDepth).toNat nodes value

end Pipeline
