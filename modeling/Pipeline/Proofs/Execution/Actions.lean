import Pipeline.Execution

/-!
# Actions

A handler does its own work first: it looks at the arguments, the variables, the lists and the chain
of branches, and makes at most one change.  What is left after that is one action, which is all that
executes nodes: the body of the command once, its body twice, its body for each element of a list, or
a body that was recorded.

* `Command.run_eq` : running a handler is its own work, followed by its action.
* `runNode_apply` : a node looks its handler up, announces its statement, runs the handler and
  concludes the statement; a command that is not there does none of the last three.

So whatever is said of an execution can be said of the own work of the handlers, which executes
nothing, and of the actions, which are few.
-/

namespace Pipeline

/-! ### Computations at an environment -/

namespace Exec

variable {α β : Type} (env : Environment)

theorem bind_apply (m : Exec α) (f : α → Exec β) :
    (m >>= f) env = match m env with
      | (.ok a, env') => f a env'
      | (.error fault, env') => (.error fault, env') := by
  rcases h : m env with ⟨_ | _, _⟩ <;>
    simp only [bind, ExceptT.bind, ExceptT.mk, StateT.bind, h] <;> rfl

theorem map_apply (f : α → β) (m : Exec α) :
    (f <$> m) env = ((m env).1.map f, (m env).2) := by
  rw [← bind_pure_comp, bind_apply]
  rcases m env with ⟨_ | _, _⟩ <;> rfl

theorem throw_apply (fault : Fault) : (throw fault : Exec α) env = (.error fault, env) := rfl

theorem get_apply : (get : Exec Environment) env = (.ok env, env) := rfl

theorem modify_apply (f : Environment → Environment) :
    (modify f : Exec Unit) env = (.ok (), f env) := rfl

theorem lift_apply (result : Except Fault α) : (liftM result : Exec α) env = (result, env) := by
  cases result <;> rfl

end Exec

/-- A computation has ended: its value and what it left have a property, or else its fault and what it
left have another one. -/
def Exec.Ended {α : Type} (Q : α → Environment → Prop) (E : Fault → Environment → Prop) :
    Except Fault α × Environment → Prop
  | (.ok a, env) => Q a env
  | (.error fault, env) => E fault env

namespace Exec.Ended

variable {α β : Type} {Q : α → Environment → Prop} {E : Fault → Environment → Prop}
  {m : Exec α} {env : Environment}

theorem of_forall (hQ : ∀ a env, Q a env) (hE : ∀ fault env, E fault env)
    (ran : Except Fault α × Environment) : Ended Q E ran := by
  obtain ⟨fault | a, left⟩ := ran
  · exact hE fault left
  · exact hQ a left

theorem bind {f : α → Exec β} {Q : β → Environment → Prop}
    (h : Ended (fun a left => Ended Q E (f a left)) E (m env)) : Ended Q E ((m >>= f) env) := by
  rw [Exec.bind_apply]
  rcases hran : m env with ⟨fault | a, left⟩ <;> rw [hran] at h <;> exact h

theorem map {f : α → β} {Q : β → Environment → Prop}
    (h : Ended (fun a => Q (f a)) E (m env)) : Ended Q E ((f <$> m) env) := by
  rw [Exec.map_apply]
  rcases hran : m env with ⟨fault | a, left⟩ <;> rw [hran] at h <;> exact h

end Exec.Ended

namespace Command

open Exec

variable (env : Environment)

theorem evalArg_apply (setup : Setup) (line : Int) (number : Nat) (arg : Expr) :
    evalArg setup line number arg env =
      (locating (.ofArgument line number)
        (arg.eval setup.settings.strictVariables env.bindings), env) := by
  rw [evalArg, bind_apply, get_apply]
  dsimp only
  cases locating (.ofArgument line number)
    (arg.eval setup.settings.strictVariables env.bindings) <;> rfl

theorem nameArg_apply (line : Int) (arg : Expr) :
    nameArg line arg env = (locating (.ofArgument line 0) arg.variableName, env) := by
  unfold nameArg
  cases locating (.ofArgument line 0) arg.variableName <;> rfl

theorem truth_apply (value : Value) : truth value env = (env.store.isTruthy value, env) := by
  rw [truth, bind_apply, get_apply]
  exact lift_apply env _

theorem textOf_apply (value : Value) : textOf value env = (env.store.render value, env) := by
  rw [textOf, bind_apply, get_apply]
  exact lift_apply env _

end Command

/-! ### Actions -/

/-- What a handler still asks for when its own work is done. -/
inductive Action where
  /-- Nothing more: the value is the result. -/
  | finish (value : Value)
  /-- Its body, once. -/
  | enter (value : Value)
  /-- Its body, twice. -/
  | twice (value : Value)
  /-- Its body for each element of a list. -/
  | traverse (address : Nat)
  /-- A recorded body, as one more call. -/
  | call (body : List Node) (value : Value)

/-- Carries out an action; `call` runs recorded bodies, `run` the body of the command. -/
def Action.perform (call : List Node → Runner) (run : Runner) : Action → Exec Value
  | .finish value => pure value
  | .enter value => run value
  | .twice value => do run (← run value)
  | .traverse address => do
    Command.replaceElements run address 0 ((← get).store.elements address).size
    return .list address
  | .call body value => inCall (call body value)

namespace Command

/-- Marks the chain of branches, and asks for the body of a branch that is taken. -/
def chooseBranch (taken : Bool) (value : Value) : Exec Action := do
  modify (·.setChain (some taken))
  return if taken then .enter value else .finish value

/-- What a branch that continues a chain asks for, unless a branch before it was taken. -/
def chooseNext (command : String) (line : Int) (value : Value) (branch : Exec Action) :
    Exec Action := do
  match (← get).chain with
  | none => failAt line (.misplacedContinuation command)
  | some true => return .finish value
  | some false => branch

/-- Asks for a recorded body, unless too many calls are running. -/
def chooseCall (setup : Setup) (line : Int) (name : String) (value : Value) : Exec Action := do
  match (← get).functions.find? name with
  | none => failAt line (.unknownFunction name)
  | some body =>
    if (setup.settings.maxCallDepth : Int) ≤ (← get).callDepth then
      failAt line (.callsTooDeep setup.settings.maxCallDepth)
    else return .call body value

/-- The own work of a handler. -/
def prepare (setup : Setup) (i : Invocation) : Handler → Exec Action
  | .standard .foreach =>
    match i.args with
    | [] =>
      match i.value with
      | .list address => return .traverse address
      | value => wrongInput "foreach" .list value i.line
    | _ => wrongArity "foreach" [0] i.line
  | .standard .ifBranch =>
    match i.args with
    | [condition] => do
      let taken ← truth (← evalArg setup i.line 0 condition)
      chooseBranch taken i.value
    | _ => wrongArity "if" [1] i.line
  | .standard .elifBranch =>
    match i.args with
    | [condition] =>
      chooseNext "elif" i.line i.value do
        let taken ← truth (← evalArg setup i.line 0 condition)
        chooseBranch taken i.value
    | _ => wrongArity "elif" [1] i.line
  | .standard .elseBranch =>
    match i.args with
    | [] => chooseNext "else" i.line i.value (chooseBranch true i.value)
    | _ => wrongArity "else" [0] i.line
  | .standard .call =>
    match i.args with
    | [name] => do
      let name ← nameArg i.line name
      chooseCall setup i.line name i.value
    | _ => wrongArity "call" [1] i.line
  | .host .twice => return .twice i.value
  -- All others run nothing, so it does not matter how bodies are run.
  | handler => .finish <$> run setup (fun _ => pure) pure i handler

variable {setup : Setup} {call : List Node → Runner} {run : Runner}

theorem chooseBranch_perform (taken : Bool) (value : Value) :
    (chooseBranch taken value >>= Action.perform call run) = takeBranch run taken value := by
  cases taken <;> simp [chooseBranch, takeBranch, Action.perform]

theorem chooseNext_perform (command : String) (line : Int) (value : Value)
    (branch : Exec Action) :
    (chooseNext command line value branch >>= Action.perform call run) =
      continueChain command line value (branch >>= Action.perform call run) := by
  funext env
  unfold chooseNext continueChain
  rw [bind_assoc, Exec.bind_apply, Exec.bind_apply, Exec.get_apply]
  dsimp only
  rcases env.chain with _ | _ | _ <;> rfl

theorem chooseCall_perform (line : Int) (name : String) (value : Value) :
    (chooseCall setup line name value >>= Action.perform call run) =
      callFunction setup call line name value := by
  funext env
  unfold chooseCall callFunction
  rw [bind_assoc, Exec.bind_apply, Exec.bind_apply, Exec.get_apply]
  dsimp only
  cases env.functions.find? name with
  | none => rfl
  | some body =>
    dsimp only
    rw [bind_assoc, Exec.bind_apply, Exec.bind_apply, Exec.get_apply]
    dsimp only
    split <;> rfl

/-- Running a handler is its own work, followed by its action. -/
theorem run_eq (i : Invocation) (handler : Handler) :
    Command.run setup call run i handler = prepare setup i handler >>= Action.perform call run := by
  -- A handler that asks for nothing more runs the same whatever runs its body.
  have finishes (m : Exec Value) : m = (.finish <$> m) >>= Action.perform call run := by
    rw [bind_map_left]
    exact (bind_pure m).symm
  obtain ⟨value, args, line, body⟩ := i
  cases handler with
  | standard command =>
    cases command with
    | foreach =>
      rcases args with _ | _
      · cases value with
        | list address => rfl
        | _ => rfl
      · rfl
    | ifBranch =>
      rcases args with _ | ⟨condition, _ | _⟩
      · rfl
      · simp only [Command.run, standard, prepare, bind_assoc, chooseBranch_perform]
      · rfl
    | elifBranch =>
      rcases args with _ | ⟨condition, _ | _⟩
      · rfl
      · simp only [Command.run, standard, prepare, chooseNext_perform, bind_assoc,
          chooseBranch_perform]
      · rfl
    | elseBranch =>
      rcases args with _ | _
      · simp only [Command.run, standard, prepare, chooseNext_perform, chooseBranch_perform]
      · rfl
    | call =>
      rcases args with _ | ⟨name, _ | _⟩
      · rfl
      · simp only [Command.run, standard, prepare, chooseCall_perform, bind_assoc]
      · rfl
    | _ => exact finishes _
  | host handler =>
    cases handler with
    | twice => rfl
    | _ => exact finishes _

end Command

/-! ### Nodes -/

/-- What the handler of a node is called with. -/
def Node.invocation (node : Node) (value : Value) : Invocation :=
  ⟨value, node.statement.args, node.statement.line, node.body?⟩

/-- Records and counts a statement whose handler is about to run. -/
def Environment.announce (env : Environment) (s : Statement) : Environment :=
  (env.record .debug s!"line {s.line}: {s.command} ({s.args.length} args)").count s.command

/-- Leaves behind the span of a block and, where it is asked for, the value that came of a node. -/
def Environment.report (env : Environment) (setup : Setup) (node : Node)
    (result : Except Fault Value) : Environment :=
  let s := node.statement
  let env :=
    if node.isBlock then env.addSpan ⟨"block:" ++ s.command, some s.line, !result.isOk⟩ else env
  match result with
  | .ok value =>
    if setup.traced then env.addStep ⟨s.line, s.command, env.store.tree value⟩ else env
  | .error _ => env

/-- A report is for the journal only. -/
theorem Environment.exists_report_eq (env : Environment) (setup : Setup) (node : Node)
    (result : Except Fault Value) :
    ∃ journal, env.report setup node result = { env with journal := journal } := by
  unfold report
  cases result <;> dsimp only <;> split <;> (try split) <;> exact ⟨_, rfl⟩

/-- Closes the chain of branches behind a command that does not keep it open. -/
def Environment.pass (env : Environment) (command : String) : Environment :=
  if chainCommands.contains command then env else env.setChain none

/-- Reports on a node; behind one that did not fail the next node is due. -/
def Environment.conclude (env : Environment) (setup : Setup) (node : Node)
    (result : Except Fault Value) : Environment :=
  match result with
  | .ok _ => (env.report setup node result).pass node.statement.command
  | .error _ => env.report setup node result

theorem Environment.exists_setChain_eq (env : Environment) (state : Option Bool) :
    ∃ frames, env.setChain state = { env with frames := frames } := by
  unfold setChain
  split <;> exact ⟨_, rfl⟩

/-- A node is concluded in the frames and the journal. -/
theorem Environment.exists_conclude_eq (env : Environment) (setup : Setup) (node : Node)
    (result : Except Fault Value) : ∃ frames journal,
      env.conclude setup node result = { env with frames := frames, journal := journal } := by
  obtain ⟨journal, hreport⟩ := env.exists_report_eq setup node result
  cases result with
  | error fault => exact ⟨_, _, hreport⟩
  | ok value =>
    unfold conclude pass
    dsimp only
    rw [hreport]
    split
    · exact ⟨_, _, rfl⟩
    · obtain ⟨frames, hframes⟩ := exists_setChain_eq { env with journal := journal } none
      rw [hframes]
      exact ⟨_, _, rfl⟩

/-- Runs the body of a node; a node without one gives the value back. -/
def runBody (setup : Setup) (call : List Node → Runner) : Option (List Node) → Runner
  | none => pure
  | some nodes => fun value => inFrame (runNodes setup call nodes value)

/-- How recorded bodies are run while at most `budget` calls may be nested. -/
def callWithin (setup : Setup) : (budget : Nat) → List Node → Runner
  | 0 => fun _ _ => throw (.of (.callsTooDeep setup.settings.maxCallDepth))
  | budget + 1 => runWithin setup budget

theorem runWithin_eq (setup : Setup) (budget : Nat) (nodes : List Node) (value : Value) :
    runWithin setup budget nodes value =
      inFrame (runNodes setup (callWithin setup budget) nodes value) := by
  cases budget <;> rfl

section Nodes

variable (setup : Setup) (call : List Node → Runner)

theorem runCommand_apply (node : Node) (value : Value) (env : Environment) :
    runCommand setup call node.body? (runBody setup call node.body?) node.statement value env =
      match setup.registry.find? node.statement.command with
      | none =>
        (.error (.script (.unknownCommand node.statement.command)
          (.ofLine node.statement.line)), env)
      | some handler =>
        let ran := (Command.prepare setup (node.invocation value) handler >>=
          Action.perform call (runBody setup call node.body?)) (env.announce node.statement)
        (ran.1, ran.2.conclude setup node ran.1) := by
  unfold runCommand Registry.lookup
  cases hfind : setup.registry.find? node.statement.command with
  | none => rfl
  | some handler =>
    dsimp only [locating, Except.mapError]
    rw [pure_bind, ← Command.run_eq]
    rw [Exec.bind_apply, Exec.modify_apply]
    change (_ : Exec Value) (env.announce node.statement) = _
    unfold Environment.conclude Environment.report Environment.pass
    -- What is left is one case for each way of the handler to end and of the node to be reported on.
    cases node with
    | simple s =>
      dsimp only [Node.statement, Node.body?, Node.isBlock, Node.invocation]
      rw [Exec.bind_apply]
      rcases Command.run _ _ _ _ _ _ with ⟨fault | result, env'⟩
      · rfl
      · by_cases htraced : setup.traced = true <;>
          by_cases hchain : chainCommands.contains s.command = true <;>
          simp only [htraced, hchain] <;> rfl
    | block s body =>
      dsimp only [Node.statement, Node.body?, Node.isBlock, Node.invocation]
      rw [Exec.bind_apply, inSpan]
      rcases Command.run _ _ _ _ _ _ with ⟨fault | result, env'⟩
      · rfl
      · by_cases htraced : setup.traced = true <;>
          by_cases hchain : chainCommands.contains s.command = true <;>
          simp only [htraced, hchain] <;> rfl

theorem runNode_apply (node : Node) (value : Value) (env : Environment) :
    runNode setup call node value env =
      match setup.registry.find? node.statement.command with
      | none =>
        (.error (.script (.unknownCommand node.statement.command)
          (.ofLine node.statement.line)), env)
      | some handler =>
        let ran := (Command.prepare setup (node.invocation value) handler >>=
          Action.perform call (runBody setup call node.body?)) (env.announce node.statement)
        (ran.1, ran.2.conclude setup node ran.1) := by
  rw [← runCommand_apply]
  cases node <;> rfl

theorem runNodes_append (a b : List Node) (value : Value) :
    runNodes setup call (a ++ b) value =
      runNodes setup call a value >>= runNodes setup call b := by
  induction a generalizing value with
  | nil => exact (pure_bind ..).symm
  | cons node a ih =>
    simp only [List.cons_append, runNodes, ih, bind_assoc]

end Nodes

end Pipeline
