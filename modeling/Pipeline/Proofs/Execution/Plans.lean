import Pipeline.Proofs.Execution.Actions

/-!
# Plans of the standard commands

The own work of a standard command is planned by its value and its arguments.  First the command looks at
some things, one after the other, and what it sees decides what it looks at next; at the end it makes at
most one change, or fails, and asks for an action.  A look depends on the variables and the lists only and
changes nothing.

`Command.plan` is the plan of each command and `Command.prepare_eq_plan` says that preparing the command is
carrying out its plan.  This is where commands and the numbers of their arguments are told apart.  Whatever
has to hold of the own work of all commands is a matter of what can be looked at, of the ways to end, and of
an induction over plans.

* `Look.run_apply` : what is seen, and that nothing is changed by it.
* `prepare_eq_plan` : the own work of a command is its plan.
* `prepare_host` : that of almost all handlers of a host has a result which depends on nothing.
-/

namespace Pipeline.Command

open Exec

/-! ### Handlers of branches -/

/-- A handler reads or sets the mark of the innermost frame. -/
inductive IsBranch : Handler → Prop where
  | ifBranch : IsBranch (.standard .ifBranch)
  | elifBranch : IsBranch (.standard .elifBranch)
  | elseBranch : IsBranch (.standard .elseBranch)

/-- A handler continues a chain. -/
def Continues (handler : Handler) : Prop :=
  handler = .standard .elifBranch ∨ handler = .standard .elseBranch

theorem Continues.isBranch {handler : Handler} (h : Continues handler) : IsBranch handler := by
  rcases h with rfl | rfl
  · exact .elifBranch
  · exact .elseBranch

/-! ### Looks -/

/-- What a command can look at. -/
inductive Look : Type → Type where
  /-- The value of an argument. -/
  | value (number : Nat) (arg : Expr) : Look Value
  /-- The string that an argument has to be. -/
  | string (number : Nat) (arg : Expr) : Look String
  /-- The name that the first argument has to be. -/
  | name (arg : Expr) : Look String
  /-- Whether a value counts as true. -/
  | truth (value : Value) : Look Bool
  /-- The text of a value. -/
  | text (value : Value) : Look String
  /-- The texts of the elements of a list. -/
  | texts (address : Nat) : Look (List String)
  /-- Whether two values are the same. -/
  | same (x y : Value) : Look Bool

namespace Look

variable {α : Type} (setup : Setup) (line : Int)

/-- What is seen where the variables and the lists are given. -/
def see (bindings : Table Value) (store : Store) : {α : Type} → Look α → Except Fault α
  | _, .value number arg =>
    locating (.ofArgument line number) (arg.eval setup.settings.strictVariables bindings)
  | _, .string number arg => do
    match ← locating (.ofArgument line number)
        (arg.eval setup.settings.strictVariables bindings) with
    | .string s => return s
    | other =>
      let _ ← other.kind
      throw (.script .stringNeeded (.ofArgument line number))
  | _, .name arg => locating (.ofArgument line 0) arg.variableName
  | _, .truth x => store.isTruthy x
  | _, .text x => store.render x
  | _, .texts address => (store.elements address).toList.mapM store.render
  | _, .same x y => store.same x y

/-- Looks at it. -/
def run (l : Look α) : Exec α := do
  let env ← get
  l.see setup line env.bindings env.store

theorem run_apply (l : Look α) (env : Environment) :
    l.run setup line env = (l.see setup line env.bindings env.store, env) := by
  rw [run, bind_apply, get_apply]
  exact lift_apply env _

end Look

section

variable (setup : Setup) (line : Int)

theorem evalArg_eq_look (number : Nat) (arg : Expr) :
    evalArg setup line number arg = (Look.value number arg).run setup line := by
  funext env
  rw [evalArg_apply, Look.run_apply, Look.see]

theorem stringArg_eq_look (number : Nat) (arg : Expr) :
    stringArg setup line number arg = (Look.string number arg).run setup line := by
  funext env
  rw [stringArg, bind_apply, evalArg_apply, Look.run_apply, Look.see]
  cases locating (.ofArgument line number)
      (arg.eval setup.settings.strictVariables env.bindings) with
  | error fault => rfl
  | ok value => cases value <;> rfl

theorem nameArg_eq_look (arg : Expr) : nameArg line arg = (Look.name arg).run setup line := by
  funext env
  rw [nameArg_apply, Look.run_apply, Look.see]

theorem truth_eq_look (value : Value) : truth value = (Look.truth value).run setup line := by
  funext env
  rw [truth_apply, Look.run_apply, Look.see]

theorem textOf_eq_look (value : Value) : textOf value = (Look.text value).run setup line := by
  funext env
  rw [textOf_apply, Look.run_apply, Look.see]

theorem mapM_textOf_apply (values : List Value) (env : Environment) :
    values.mapM textOf env = (values.mapM env.store.render, env) := by
  induction values with
  | nil => rfl
  | cons value rest ih =>
    rw [List.mapM_cons, List.mapM_cons, bind_apply, textOf_apply]
    cases env.store.render value with
    | error fault => rfl
    | ok text =>
      dsimp only
      rw [bind_apply, ih]
      cases rest.mapM env.store.render <;> rfl

theorem texts_eq_look (address : Nat) :
    (do ((← get).store.elements address).toList.mapM textOf) =
      (Look.texts address).run setup line := by
  funext env
  rw [bind_apply, get_apply, Look.run_apply, Look.see]
  exact mapM_textOf_apply _ env

theorem same_eq_look (x y : Value) :
    (do (← get).store.same x y : Exec Bool) = (Look.same x y).run setup line := by
  funext env
  rw [bind_apply, get_apply, Look.run_apply, Look.see]
  exact lift_apply env _

end

/-! ### Plans -/

/-- How the own work of a command ends.  Only a branch can mark the chain. -/
inductive Ending (command : StandardCommand) where
  /-- The command was called with a wrong number of arguments. -/
  | wrongArity (allowed : List Nat)
  /-- The command was called with a wrong value. -/
  | wrongInput (needed : ValueKind)
  | finish (value : Value)
  /-- A variable is bound. -/
  | bind (name : String) (value : Value)
  /-- The body of the command is recorded. -/
  | define (name : String)
  /-- There is a new list of strings. -/
  | allocate (pieces : List (List Char))
  | print (text : String)
  /-- A file is read. -/
  | read (path : String)
  | traverse (address : Nat)
  /-- A recorded body is asked for. -/
  | call (name : String)
  | mark (h : IsBranch (.standard command)) (taken : Bool)

/-- Some looks, and an ending.  Only a command that continues a chain looks at its mark. -/
inductive Plan (command : StandardCommand) : Type 1 where
  | done (ending : Ending command)
  | look {α : Type} (l : Look α) (next : α → Plan command)
  /-- No branch before this one must have been taken, but there must be one. -/
  | ifOpen (h : Continues (.standard command)) (next : Plan command)

/-- The plan of a branch with a condition. -/
def Plan.test {command : StandardCommand} (h : IsBranch (.standard command)) (condition : Expr) :
    Plan command :=
  .look (.value 0 condition) fun tested => .look (.truth tested) fun taken => .done (.mark h taken)

/-- The plan of a command that is called with a value and some arguments. -/
def plan (value : Value) (args : List Expr) : (command : StandardCommand) → Plan command
  | .use =>
    match args with
    | [path] => .look (.string 0 path) fun path => .done (.read path)
    | _ => .done (.wrongArity [1])
  | .set =>
    match args with
    | [arg] => .look (.value 0 arg) fun value => .done (.finish value)
    | _ => .done (.wrongArity [1])
  | .store =>
    match args with
    | [name] => .look (.name name) fun name => .done (.bind name value)
    | [name, arg] =>
      .look (.name name) fun name => .look (.value 1 arg) fun bound => .done (.bind name bound)
    | _ => .done (.wrongArity [1, 2])
  | .split =>
    match value with
    | .string s =>
      match args with
      | [separator] =>
        .look (.string 0 separator) fun separator =>
          .done (.allocate (Text.cut separator.toList s.toList))
      | _ => .done (.wrongArity [1])
    | _ => .done (.wrongInput .string)
  | .join =>
    match value with
    | .list address =>
      let join (separator : String) : Plan .join :=
        .look (.texts address) fun texts => .done (.finish (.string (separator.intercalate texts)))
      match args with
      | [] => join ""
      | [separator] => .look (.string 0 separator) join
      | _ => .done (.wrongArity [0, 1])
    | _ => .done (.wrongInput .list)
  | .replace =>
    match args with
    | [sought, substitute] =>
      .look (.value 0 sought) fun sought => .look (.value 1 substitute) fun substitute =>
        .look (.same value sought) fun isSame =>
          .done (.finish (if isSame then substitute else value))
    | _ => .done (.wrongArity [2])
  | .print =>
    match args with
    | [] => .look (.text value) fun text => .done (.print text)
    | [arg] =>
      .look (.value 0 arg) fun shown => .look (.text shown) fun text => .done (.print text)
    | _ => .done (.wrongArity [0, 1])
  | .foreach =>
    match args with
    | [] =>
      match value with
      | .list address => .done (.traverse address)
      | _ => .done (.wrongInput .list)
    | _ => .done (.wrongArity [0])
  | .ifBranch =>
    match args with
    | [condition] => .test .ifBranch condition
    | _ => .done (.wrongArity [1])
  | .elifBranch =>
    match args with
    | [condition] => .ifOpen (.inl rfl) (.test .elifBranch condition)
    | _ => .done (.wrongArity [1])
  | .elseBranch =>
    match args with
    | [] => .ifOpen (.inr rfl) (.done (.mark .elseBranch true))
    | _ => .done (.wrongArity [0])
  | .function =>
    match args with
    | [name] => .look (.name name) fun name => .done (.define name)
    | _ => .done (.wrongArity [1])
  | .call =>
    match args with
    | [name] => .look (.name name) fun name => .done (.call name)
    | _ => .done (.wrongArity [1])

section

variable (setup : Setup) (i : Invocation) {command : StandardCommand}

/-- Ends the own work of a command. -/
def Ending.run : Ending command → Exec Action
  | .wrongArity allowed => Command.wrongArity command.word allowed i.line
  | .wrongInput needed => Command.wrongInput command.word needed i.value i.line
  | .finish value => return .finish value
  | .bind name value => do
    bindVariable name value
    return .finish i.value
  | .define name => do
    modify fun env => { env with functions := env.functions.insert name (i.body.getD []) }
    return .finish i.value
  | .allocate pieces =>
    .finish <$> modifyGet
      (·.newList (pieces.map fun piece => .string (String.ofList piece)).toArray)
  | .print text => do
    printLine text
    return .finish i.value
  | .read path => do return .finish (.string (← readText setup i.line path))
  | .traverse address => return .traverse address
  | .call name => chooseCall setup i.line name i.value
  | .mark _ taken => chooseBranch taken i.value

/-- Carries out a plan. -/
def Plan.run : Plan command → Exec Action
  | .done ending => ending.run setup i
  | .look l next => do (next (← l.run setup i.line)).run
  | .ifOpen _ next => chooseNext command.word i.line i.value next.run

end

/-- **The own work of a standard command is its plan.** -/
theorem prepare_eq_plan (setup : Setup) (i : Invocation) (command : StandardCommand) :
    prepare setup i (.standard command) = (plan i.value i.args command).run setup i := by
  obtain ⟨value, args, line, body⟩ := i
  -- What a handler looks at is what its plan looks at.
  have hvalue := evalArg_eq_look setup line
  have hstring := stringArg_eq_look setup line
  have hname := nameArg_eq_look setup line
  have htruth := truth_eq_look setup line
  have htext := textOf_eq_look setup line
  cases command with
  | use =>
    rcases args with _ | ⟨path, _ | _⟩
    · rfl
    · simp only [prepare, Command.run, standard, plan, Plan.run, Ending.run, hstring, map_bind,
        map_pure]
    · rfl
  | set =>
    rcases args with _ | ⟨arg, _ | _⟩
    · rfl
    · simp only [prepare, Command.run, standard, plan, Plan.run, Ending.run, hvalue, bind_pure_comp]
    · rfl
  | store =>
    rcases args with _ | ⟨name, _ | ⟨arg, _ | _⟩⟩
    · rfl
    · simp only [prepare, Command.run, standard, plan, Plan.run, Ending.run, hname, map_bind, map_pure]
    · simp only [prepare, Command.run, standard, plan, Plan.run, Ending.run, hname, hvalue, map_bind,
        map_pure]
    · rfl
  | split =>
    cases value with
    | string s =>
      rcases args with _ | ⟨separator, _ | _⟩
      · rfl
      · simp only [prepare, Command.run, standard, plan, Plan.run, Ending.run, hstring, map_bind]
      · rfl
    | _ => rfl
  | join =>
    have htexts := texts_eq_look setup line
    cases value with
    | list address =>
      rcases args with _ | ⟨separator, _ | _⟩
      · simp only [prepare, Command.run, standard, plan, Plan.run, Ending.run, ← htexts, map_bind,
          bind_assoc, map_pure]
      · simp only [prepare, Command.run, standard, plan, Plan.run, Ending.run, hstring, ← htexts,
          map_bind, bind_assoc, map_pure]
      · rfl
    | _ => rfl
  | replace =>
    have hsame := same_eq_look setup line
    rcases args with _ | ⟨sought, _ | ⟨substitute, _ | _⟩⟩
    · rfl
    · rfl
    · simp only [prepare, Command.run, standard, plan, Plan.run, Ending.run, hvalue, ← hsame, map_bind,
        bind_assoc, map_pure]
    · rfl
  | print =>
    rcases args with _ | ⟨arg, _ | _⟩
    · simp only [prepare, Command.run, standard, plan, Plan.run, Ending.run, htext, map_bind, map_pure]
    · simp only [prepare, Command.run, standard, plan, Plan.run, Ending.run, hvalue, htext, map_bind,
        map_pure]
    · rfl
  | function =>
    rcases args with _ | ⟨name, _ | _⟩
    · rfl
    · simp only [prepare, Command.run, standard, plan, Plan.run, Ending.run, hname, map_bind, map_pure]
    · rfl
  | foreach =>
    rcases args with _ | _
    · cases value <;> rfl
    · rfl
  | ifBranch =>
    rcases args with _ | ⟨condition, _ | _⟩
    · rfl
    · simp only [prepare, plan, Plan.test, Plan.run, Ending.run, hvalue, htruth]
    · rfl
  | elifBranch =>
    rcases args with _ | ⟨condition, _ | _⟩
    · rfl
    · simp only [prepare, plan, Plan.test, Plan.run, Ending.run, hvalue, htruth, StandardCommand.word]
    · rfl
  | elseBranch => rcases args with _ | _ <;> rfl
  | call =>
    rcases args with _ | ⟨name, _ | _⟩
    · rfl
    · simp only [prepare, plan, Plan.run, Ending.run, hname]
    · rfl

/-! ### Handlers of a host -/

/-- A handler of a host, apart from the one that gives the depths, does the same in every environment.  It
asks for no recorded body, and has no fault of the grammar. -/
theorem prepare_host (setup : Setup) (i : Invocation) {handler : HostHandler}
    (h : handler ≠ .depths) : ∃ result : Except Fault Action,
      prepare setup i (.host handler) = liftM result ∧
      (∀ body value, result ≠ .ok (.call body value)) ∧
      ∀ fault, result = .error fault → fault.category? ≠ some .grammar := by
  obtain ⟨value, args, line, body⟩ := i
  cases handler with
  | depths => exact absurd rfl h
  | increment => cases value <;> exact ⟨.ok (.finish _), rfl, nofun, fun _ h => nomatch h⟩
  | bodySize => cases body <;> exact ⟨.ok (.finish _), rfl, nofun, fun _ h => nomatch h⟩
  | twice => exact ⟨.ok (.twice value), rfl, nofun, fun _ h => nomatch h⟩
  | failing =>
    refine ⟨.error (.script (.raised "boom") (.ofArgument line 7)), rfl, nofun, fun fault h => ?_⟩
    cases h
    exact nofun
  | _ => exact ⟨.ok (.finish _), rfl, nofun, fun _ h => nomatch h⟩

end Pipeline.Command
