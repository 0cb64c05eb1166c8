import Pipeline.Proofs.Execution.ControlState

/-!
# Branches

The branches of a chain are nodes of their own, and all that links them is a mark in the innermost
frame, which every branch reads or sets.  The structured run of a chain goes through the branches
without a mark.  Executing the nodes one by one follows that run: both stand in environments that
differ in the mark only, and for the nodes it is known at every moment.

* `Chain.run` : the structured run.
* `Chain.follows_run` : the nodes of a chain follow it.
-/

namespace Pipeline

/-! ### Chains -/

/-- A statement with the body that it has, if any. -/
def Node.ofStatement (s : Statement) : Option (List Node) → Node
  | none => .simple s
  | some body => .block s body

/-- A branch with a condition. -/
structure Branch where
  line : Int
  condition : Expr
  body : Option (List Node)

/-- The branch without a condition that may end a chain. -/
structure LastBranch where
  line : Int
  body : Option (List Node)

/-- Branches in a row: one to start with, others that continue it, and perhaps one for all other
cases. -/
structure Chain where
  first : Branch
  others : List Branch
  last : Option LastBranch

/-- The node of a branch, which starts a chain or continues it. -/
def Branch.node (b : Branch) (command : String) : Node :=
  .ofStatement ⟨b.line, command, [b.condition]⟩ b.body

/-- The node of a last branch. -/
def LastBranch.node (b : LastBranch) : Node :=
  .ofStatement ⟨b.line, "else", []⟩ b.body

namespace Chain

/-- The nodes that continue a chain. -/
def continuations (others : List Branch) (last : Option LastBranch) : List Node :=
  others.map (·.node "elif") ++ last.toList.map (·.node)

/-- The nodes of a chain. -/
def nodes (chain : Chain) : List Node :=
  chain.first.node "if" :: continuations chain.others chain.last

end Chain

/-! ### The structured run -/

/-- Whether a condition holds with the variables and the lists of an environment. -/
def Branch.holds (setup : Setup) (env : Environment) (b : Branch) : Except Fault Bool :=
  (locating (.ofArgument b.line 0)
    (b.condition.eval setup.settings.strictVariables env.bindings)).bind env.store.isTruthy

/-- What is done about a node besides what the node is for. -/
abbrev Attendance := Node → Exec Value → Exec Value

/-- Records and counts the statement of a node before it runs, and reports on it afterwards. -/
def attend (setup : Setup) : Attendance := fun node m env =>
  let ran := m (env.announce node.statement)
  (ran.1, ran.2.report setup node ran.1)

/-- Does nothing besides. -/
def ignore : Attendance := fun _ m => m

namespace Chain

section

variable (around : Attendance) (setup : Setup) (call : List Node → Runner)

/-- Passes by the nodes of branches that are not taken. -/
def passBy (around : Attendance) : List Node → Runner
  | [], value => pure value
  | node :: rest, value => do passBy around rest (← around node (pure value))

/-- Runs the branches from some place on, with conditions that are looked at in `start`: the body of
the first one whose condition holds, and no other; a condition behind it is not looked at. -/
def runFrom (start : Environment) (last : Option LastBranch) (value : Value) :
    (command : String) → List Branch → Exec Value
  | _, [] =>
    match last with
    | none => pure value
    | some b => around b.node (runBody setup call b.body value)
  | command, b :: rest =>
    match b.holds setup start with
    | .error fault => around (b.node command) (throw fault)
    | .ok true => do
      let result ← around (b.node command) (runBody setup call b.body value)
      passBy around (continuations rest last) result
    | .ok false => do
      let value ← around (b.node command) (pure value)
      runFrom start last value "elif" rest

/-- The structured run of a chain. -/
def run (chain : Chain) (value : Value) : Exec Value := do
  runFrom around setup call (← get) chain.last value "if" (chain.first :: chain.others)

end

section

variable {around : Attendance} {setup : Setup} {call : List Node → Runner} {start : Environment}
  {last : Option LastBranch} {value : Value} {command : String} {b : Branch} {rest : List Branch}

theorem runFrom_of_error {fault : Fault} (hholds : b.holds setup start = .error fault) :
    runFrom around setup call start last value command (b :: rest) =
      around (b.node command) (throw fault) := by
  rw [runFrom, hholds]

theorem runFrom_of_false (hholds : b.holds setup start = .ok false) :
    runFrom around setup call start last value command (b :: rest) =
      around (b.node command) (pure value) >>= fun value =>
        runFrom around setup call start last value "elif" rest := by
  rw [runFrom, hholds]

theorem runFrom_of_true (hholds : b.holds setup start = .ok true) :
    runFrom around setup call start last value command (b :: rest) =
      around (b.node command) (runBody setup call b.body value) >>=
        passBy around (continuations rest last) := by
  rw [runFrom, hholds]

end

/-- The mark that a chain leaves for a continuation: none behind a last branch, and otherwise whether
a branch was taken. -/
def markBehind (setup : Setup) (start : Environment) (branches : List Branch)
    (last : Option LastBranch) : Option Bool :=
  if last.isSome then none
  else some (branches.any fun b =>
    match b.holds setup start with
    | .ok taken => taken
    | .error _ => false)

end Chain

/-! ### Following the structured run -/

/-- The registry finds the handlers of branches under their words. -/
structure Registry.HasChains (registry : Registry) : Prop where
  find?_if : registry.find? "if" = some (.standard .ifBranch)
  find?_elif : registry.find? "elif" = some (.standard .elifBranch)
  find?_else : registry.find? "else" = some (.standard .elseBranch)

theorem Registry.hasChains_standard : standard.HasChains :=
  ⟨rfl, rfl, rfl⟩

/-- Two environments differ at most in the mark of the innermost frame, which is known on one side. -/
def Environment.Marked (mark : Option Bool) (env env' : Environment) : Prop :=
  ∃ below other, env.frames = mark :: below ∧ env' = { env with frames := other :: below }

/-- A computation ended as the structured one did, up to the mark; without a fault the mark is
known. -/
def Follows (mark : Option Bool) (ran ran' : Except Fault Value × Environment) : Prop :=
  ran.1 = ran'.1 ∧ ∃ left, Environment.Marked left ran.2 ran'.2 ∧
    ∀ value, ran.1 = .ok value → left = mark

theorem Environment.marked_iff {mark : Option Bool} {env env' : Environment} :
    env.Marked mark env' ↔ ∃ below other start,
      env.Apart (mark :: below) (other :: below) start 0 0 env' := by
  constructor
  · rintro ⟨below, other, hframes, rfl⟩
    exact ⟨below, other, env.callDepth, [], rfl, hframes, rfl, (Int.add_zero _).symm⟩
  · rintro ⟨below, other, start, opened, hopened, hframes, rfl, -⟩
    obtain rfl := List.length_eq_zero_iff.1 hopened
    exact ⟨below, other, hframes, rfl⟩

namespace Environment.Marked

variable {mark : Option Bool} {env env' : Environment}

theorem refl {below : List (Option Bool)} (h : env.frames = mark :: below) : env.Marked mark env :=
  ⟨below, mark, h, by rw [← h]⟩

variable (h : env.Marked mark env')

include h

theorem chain : env.chain = mark := by
  obtain ⟨below, other, hframes, -⟩ := h
  exact chain_of_frames hframes

theorem setChain (next : Option Bool) : (env.setChain next).Marked next env' := by
  obtain ⟨below, other, hframes, rfl⟩ := h
  rw [setChain_of_frames hframes]
  exact ⟨below, other, rfl, rfl⟩

/-- The mark that is known on one side can be set on the other. -/
theorem eq_setChain : env'.setChain mark = env := by
  obtain ⟨below, other, hframes, rfl⟩ := h
  rw [setChain_of_frames rfl, ← hframes]

theorem popFrame : env'.popFrame = env.popFrame := by
  obtain ⟨below, other, hframes, rfl⟩ := h
  rw [Environment.popFrame, Environment.popFrame, hframes]
  rfl

/-- A change that every lockstep keeps does not tell the marks apart. -/
theorem keep {setup : Setup} {f : Environment → Environment}
    (hf : ∀ {R env env'}, Lockstep setup R → R 0 0 env env' → R 0 0 (f env) (f env')) :
    (f env).Marked mark (f env') := by
  obtain ⟨below, other, start, h⟩ := marked_iff.1 h
  exact marked_iff.2 ⟨below, other, start, hf (lockstep_apart start (.inl rfl)) h⟩

/-- Nor does a computation that keeps every lockstep. -/
theorem follows {setup : Setup} {m : Exec Value}
    (hm : ∀ {R}, Lockstep setup R → Exec.Agrees (R 0 0) m) : Follows mark (m env) (m env') := by
  obtain ⟨below, other, start, h⟩ := marked_iff.1 h
  have hlength : (mark :: below).length = (other :: below).length := rfl
  obtain ⟨hresult, hleft⟩ := hm (lockstep_apart start (.inl hlength)) env env' h
  exact ⟨hresult, mark, marked_iff.2 ⟨below, other, start, hleft⟩, fun _ _ => rfl⟩

end Environment.Marked

namespace Follows

variable {mark : Option Bool} {env env' : Environment}

theorem error (h : env.Marked mark env') (fault : Fault) (next : Option Bool) :
    Follows next (.error fault, env) (.error fault, env') :=
  ⟨rfl, mark, h, fun _ hvalue => nomatch hvalue⟩

theorem ok (h : env.Marked mark env') (value : Value) :
    Follows mark (.ok value, env) (.ok value, env') :=
  ⟨rfl, mark, h, fun _ _ => rfl⟩

theorem bind {m m' : Exec Value} {f f' : Runner} {next : Option Bool}
    (hm : Follows mark (m env) (m' env'))
    (hf : ∀ value {left left'}, m' env' = (.ok value, left') → left.Marked mark left' →
      Follows next (f value left) (f' value left')) :
    Follows next ((m >>= f) env) ((m' >>= f') env') := by
  obtain ⟨hresult, left, hleft, hmark⟩ := hm
  rw [Exec.bind_apply, Exec.bind_apply]
  rcases hran : m env with ⟨result, behind⟩
  rcases hran' : m' env' with ⟨result', behind'⟩
  rw [hran, hran'] at hresult hleft
  rw [hran] at hmark
  obtain rfl : result = result' := hresult
  cases result with
  | error fault => exact error hleft fault next
  | ok value =>
    obtain rfl := hmark value rfl
    exact hf value hran' hleft

end Follows

section Nodes

variable {setup : Setup} (hchains : setup.registry.HasChains) (call : List Node → Runner)

/-- The mark behind a command that did not fail. -/
def markPassed (command : String) (mark : Option Bool) : Option Bool :=
  if chainCommands.contains command then mark else none

/-- A node follows what its handler follows, when it is attended. -/
theorem follows_node {node : Node} {handler : Handler} {m : Exec Value} {value : Value}
    {next : Option Bool} {env env' : Environment} {ran : Except Fault Value × Environment}
    (hfind : setup.registry.find? node.statement.command = some handler)
    (hran : (Command.prepare setup (node.invocation value) handler >>=
      Action.perform call (runBody setup call node.body?)) (env.announce node.statement) = ran)
    (hwork : Follows next ran (m (env'.announce node.statement))) :
    Follows (markPassed node.statement.command next) (runNode setup call node value env)
      (attend setup node m env') := by
  obtain ⟨hresult, left, hleft, hmark⟩ := hwork
  rw [runNode_apply, hfind, attend]
  dsimp only
  rw [hran, ← hresult]
  have hreport := hleft.keep (f := fun e => e.report setup node ran.1) fun L h => L.report node _ h
  cases hvalue : ran.1 with
  | error fault =>
    rw [hvalue] at hreport
    exact .error hreport fault _
  | ok result =>
    rw [hvalue] at hreport hmark
    obtain rfl := hmark result rfl
    unfold Environment.conclude Environment.pass markPassed
    dsimp only
    split
    · exact .ok hreport result
    · exact .ok (hreport.setChain none) result

/-! ### Branches -/

@[simp]
theorem Node.statement_ofStatement (s : Statement) (body : Option (List Node)) :
    (Node.ofStatement s body).statement = s := by
  cases body <;> rfl

@[simp]
theorem Node.body?_ofStatement (s : Statement) (body : Option (List Node)) :
    (Node.ofStatement s body).body? = body := by
  cases body <;> rfl

theorem Node.invocation_ofStatement (s : Statement) (body : Option (List Node)) (value : Value) :
    (Node.ofStatement s body).invocation value = ⟨value, s.args, s.line, body⟩ := by
  rw [invocation, statement_ofStatement, body?_ofStatement]

/-- A branch that continues a chain goes by the mark. -/
theorem continueChain_apply (command : String) (line : Int) (value : Value) (branch : Exec Value)
    (env : Environment) :
    Command.continueChain command line value branch env =
      match env.chain with
      | none => (.error (.script (.misplacedContinuation command) (.ofLine line)), env)
      | some true => (.ok value, env)
      | some false => branch env := by
  rw [Command.continueChain, Exec.bind_apply, Exec.get_apply]
  dsimp only
  rcases env.chain with _ | _ | _ <;> rfl

/-- A branch that looks at its condition goes by it. -/
theorem testBranch_apply (b : Branch) (run : Runner) (value : Value) (env : Environment) :
    (do
      let taken ← Command.truth (← Command.evalArg setup b.line 0 b.condition)
      Command.takeBranch run taken value : Exec Value) env =
      match b.holds setup env with
      | .error fault => (.error fault, env)
      | .ok taken => Command.takeBranch run taken value env := by
  rw [Exec.bind_apply, Command.evalArg_apply, Branch.holds]
  cases locating (.ofArgument b.line 0)
      (b.condition.eval setup.settings.strictVariables env.bindings) with
  | error fault => rfl
  | ok tested =>
    dsimp only [Except.bind]
    rw [Exec.bind_apply, Command.truth_apply]
    cases env.store.isTruthy tested <;> rfl

section Branches

variable (run : Runner) (value : Value) {env : Environment}

/-- A branch with a condition looks at it when it starts a chain, and when it continues one of which
no branch was taken. -/
def LooksAtCondition (command : String) (mark : Option Bool) : Prop :=
  command = "if" ∨ command = "elif" ∧ mark = some false

include hchains

theorem work_looking {command : String} (b : Branch) (hlooks : LooksAtCondition command env.chain) :
    ∃ handler, setup.registry.find? command = some handler ∧
      (Command.prepare setup ((b.node command).invocation value) handler >>=
        Action.perform call run) env =
        match b.holds setup env with
        | .error fault => (.error fault, env)
        | .ok taken => Command.takeBranch run taken value env := by
  rw [Branch.node, Node.invocation_ofStatement]
  obtain rfl | ⟨rfl, hmark⟩ := hlooks
  · refine ⟨_, hchains.find?_if, ?_⟩
    rw [← Command.run_eq]
    exact testBranch_apply b run value env
  · refine ⟨_, hchains.find?_elif, ?_⟩
    rw [← Command.run_eq]
    refine (continueChain_apply _ _ _ _ env).trans ?_
    rw [hmark]
    exact testBranch_apply b run value env

theorem work_last (b : LastBranch) (hmark : env.chain = some false) :
    ∃ handler, setup.registry.find? "else" = some handler ∧
      (Command.prepare setup (b.node.invocation value) handler >>= Action.perform call run) env =
        Command.takeBranch run true value env := by
  refine ⟨_, hchains.find?_else, ?_⟩
  rw [LastBranch.node, Node.invocation_ofStatement, ← Command.run_eq]
  refine (continueChain_apply _ _ _ _ env).trans ?_
  rw [hmark]

/-- A node that continues a chain of which a branch was taken does nothing. -/
theorem work_passed {rest : List Branch} {last : Option LastBranch} {node : Node}
    (hnode : node ∈ Chain.continuations rest last) (hmark : env.chain = some true) :
    ∃ handler, setup.registry.find? node.statement.command = some handler ∧
      (Command.prepare setup (node.invocation value) handler >>= Action.perform call run) env =
        (.ok value, env) := by
  have passes (command : String) (line : Int) (branch : Exec Value) :
      Command.continueChain command line value branch env = (.ok value, env) := by
    rw [continueChain_apply, hmark]
  rcases List.mem_append.1 hnode with h | h
  · obtain ⟨b, -, rfl⟩ := List.mem_map.1 h
    rw [Branch.node, Node.invocation_ofStatement, Node.statement_ofStatement]
    refine ⟨_, hchains.find?_elif, ?_⟩
    rw [← Command.run_eq]
    exact passes _ _ _
  · obtain ⟨b, -, rfl⟩ := List.mem_map.1 h
    rw [LastBranch.node, Node.invocation_ofStatement, Node.statement_ofStatement]
    refine ⟨_, hchains.find?_else, ?_⟩
    rw [← Command.run_eq]
    exact passes _ _ _

end Branches

end Nodes

/-! ### Following a chain -/

/-- An environment has the variables and the lists of another one. -/
def Environment.SeesAs (start env : Environment) : Prop :=
  env.bindings = start.bindings ∧ env.store = start.store

theorem Branch.holds_of_seesAs {setup : Setup} {start env : Environment} (h : start.SeesAs env)
    (b : Branch) : b.holds setup env = b.holds setup start := by
  rw [holds, holds, h.1, h.2]

theorem Environment.Marked.seesAs {mark : Option Bool} {env env' : Environment}
    (h : env.Marked mark env') : env'.SeesAs env := by
  obtain ⟨below, other, -, rfl⟩ := h
  exact ⟨rfl, rfl⟩

theorem Environment.SeesAs.report {start env : Environment} (h : start.SeesAs env) (setup : Setup)
    (node : Node) (result : Except Fault Value) : start.SeesAs (env.report setup node result) := by
  obtain ⟨journal, hreport⟩ := env.exists_report_eq setup node result
  rw [hreport]
  exact h

namespace Chain

variable {setup : Setup} (hchains : setup.registry.HasChains) (budget : Nat) (value : Value)
  {mark : Option Bool} {env env' : Environment}

theorem marked_announce (h : env.Marked mark env') (s : Statement) :
    (env.announce s).Marked mark (env'.announce s) :=
  h.keep fun (L : Lockstep {} _) h => L.announce s h

theorem follows_takeBranch (body : Option (List Node)) (taken : Bool) (h : env.Marked mark env') :
    Follows (some taken)
      (Command.takeBranch (runBody setup (callWithin setup budget) body) taken value env)
      ((if taken then runBody setup (callWithin setup budget) body value else pure value) env') := by
  have hmarked := h.setChain (some taken)
  cases taken with
  | false => exact .ok hmarked value
  | true => exact hmarked.follows fun L => L.runBody budget 0 0 body value

include hchains

/-- A branch that looks at its condition is followed: with a fault of the condition, with its body,
or with nothing. -/
theorem follows_looking {command : String} (hlooks : LooksAtCondition command mark) (b : Branch)
    (h : env.Marked mark env') :
    match b.holds setup env with
    | .error fault => ∀ next, Follows next
        (runNode setup (callWithin setup budget) (b.node command) value env)
        (attend setup (b.node command) (throw fault) env')
    | .ok taken => Follows (some taken)
        (runNode setup (callWithin setup budget) (b.node command) value env)
        (attend setup (b.node command)
          (if taken then runBody setup (callWithin setup budget) b.body value else pure value)
          env') := by
  have hnode : (b.node command).statement.command = command := by
    rw [Branch.node, Node.statement_ofStatement]
  have hbody : (b.node command).body? = b.body := Node.body?_ofStatement _ _
  have hkeeps : markPassed command = id := by
    funext mark
    obtain rfl | ⟨rfl, -⟩ := hlooks <;> rfl
  have hannounced := marked_announce h (b.node command).statement
  obtain ⟨handler, hfind, hwork⟩ := work_looking hchains (callWithin setup budget)
    (runBody setup (callWithin setup budget) (b.node command).body?) value b
    (hannounced.chain ▸ hlooks)
  rw [← hnode] at hfind
  have hseen : b.holds setup (env.announce (b.node command).statement) = b.holds setup env := rfl
  rw [hseen] at hwork
  cases hholds : b.holds setup env with
  | error fault =>
    intro next
    rw [hholds] at hwork
    have hfollows := follows_node _ hfind hwork
      (.error hannounced fault next : Follows next _ ((throw fault : Exec Value) _))
    rwa [hnode, hkeeps] at hfollows
  | ok taken =>
    rw [hholds] at hwork
    have hfollows := follows_node _ hfind hwork
      (follows_takeBranch budget value (b.node command).body? taken hannounced)
    rwa [hnode, hkeeps, hbody] at hfollows

/-- A last branch is followed, when no branch was taken, with its body. -/
theorem follows_last (b : LastBranch) (h : env.Marked (some false) env') :
    Follows none (runNode setup (callWithin setup budget) b.node value env)
      (attend setup b.node (runBody setup (callWithin setup budget) b.body value) env') := by
  have hnode : b.node.statement.command = "else" := by
    rw [LastBranch.node, Node.statement_ofStatement]
  have hbody : b.node.body? = b.body := Node.body?_ofStatement _ _
  have hannounced := marked_announce h b.node.statement
  obtain ⟨handler, hfind, hwork⟩ := work_last hchains (callWithin setup budget)
    (runBody setup (callWithin setup budget) b.node.body?) value b hannounced.chain
  rw [← hnode] at hfind
  have hfollows := follows_node _ hfind hwork
    (follows_takeBranch budget value b.node.body? true hannounced)
  rwa [hnode, hbody] at hfollows

/-- A node that continues a chain of which a branch was taken is passed by. -/
theorem follows_passed {rest : List Branch} {last : Option LastBranch} {node : Node}
    (hnode : node ∈ continuations rest last) (h : env.Marked (some true) env') :
    Follows (markPassed node.statement.command (some true))
      (runNode setup (callWithin setup budget) node value env)
      (attend setup node (pure value) env') := by
  have hannounced := marked_announce h node.statement
  obtain ⟨handler, hfind, hwork⟩ := work_passed hchains (callWithin setup budget)
    (runBody setup (callWithin setup budget) node.body?) value hnode hannounced.chain
  exact follows_node _ hfind hwork (Follows.ok hannounced value)

theorem follows_passBy (rest : List Branch) (last : Option LastBranch)
    (h : env.Marked (some true) env') :
    Follows (if last.isSome then none else some true)
      (runNodes setup (callWithin setup budget) (continuations rest last) value env)
      (passBy (attend setup) (continuations rest last) value env') := by
  induction rest generalizing value env env' with
  | nil =>
    cases last with
    | none => exact .ok h value
    | some b =>
      have hmem : b.node ∈ continuations [] (some b) := List.mem_singleton.2 rfl
      have hnode := follows_passed hchains budget value hmem h
      rw [LastBranch.node, Node.statement_ofStatement] at hnode
      exact hnode.bind fun value _ _ _ h => .ok h value
  | cons b rest ih =>
    have hmem : b.node "elif" ∈ continuations (b :: rest) last :=
      List.mem_append_left _ List.mem_cons_self
    have hnode := follows_passed hchains budget value hmem h
    rw [Branch.node, Node.statement_ofStatement] at hnode
    exact hnode.bind fun value _ _ _ h => ih value h

/-- A chain is followed from a branch on that looks at its condition. -/
theorem follows_runFrom_cons {start : Environment} {command : String} (b : Branch)
    {rest : List Branch} {last : Option LastBranch} (hlooks : LooksAtCondition command mark)
    (hsees : start.SeesAs env') (h : env.Marked mark env')
    (ih : ∀ value {env env'}, start.SeesAs env' → env.Marked (some false) env' →
      Follows (markBehind setup start rest last)
        (runNodes setup (callWithin setup budget) (continuations rest last) value env)
        (runFrom (attend setup) setup (callWithin setup budget) start last value "elif" rest env')) :
    Follows (markBehind setup start (b :: rest) last)
      (runNodes setup (callWithin setup budget) (b.node command :: continuations rest last) value env)
      (runFrom (attend setup) setup (callWithin setup budget) start last value command (b :: rest)
        env') := by
  have hholds : b.holds setup env = b.holds setup start :=
    (Branch.holds_of_seesAs h.seesAs b).trans (Branch.holds_of_seesAs hsees b)
  have hnode := follows_looking hchains budget value hlooks b h
  rw [hholds] at hnode
  rw [runNodes]
  unfold markBehind
  rcases hresult : b.holds setup start with fault | _ | _
  · rw [hresult] at hnode
    rw [runFrom_of_error hresult, ← bind_pure (attend setup (b.node command) (throw fault))]
    refine (hnode none).bind fun value _ _ hran _ => ?_
    have hfailed := congrArg Prod.fst hran
    cases hfailed
  · rw [hresult] at hnode
    rw [runFrom_of_false hresult]
    have hnode : Follows (some false) _ (attend setup (b.node command) (pure value) env') := hnode
    refine hnode.bind fun value _ _ hran hleft => ?_
    rw [List.any_cons, hresult]
    have hannounced : start.SeesAs (env'.announce (b.node command).statement) := hsees
    cases hran
    exact ih value (hannounced.report ..) hleft
  · rw [hresult] at hnode
    rw [runFrom_of_true hresult]
    refine hnode.bind fun value _ _ _ hleft => ?_
    rw [List.any_cons, hresult]
    exact follows_passBy hchains budget value rest last hleft

theorem follows_continuations {start : Environment} (branches : List Branch)
    (last : Option LastBranch) (hsees : start.SeesAs env') (h : env.Marked (some false) env') :
    Follows (markBehind setup start branches last)
      (runNodes setup (callWithin setup budget) (continuations branches last) value env)
      (runFrom (attend setup) setup (callWithin setup budget) start last value "elif" branches
        env') := by
  induction branches generalizing value env env' with
  | nil =>
    cases last with
    | none => exact .ok h value
    | some b =>
      have hnode := follows_last hchains budget value b h
      rw [runFrom, ← bind_pure (attend setup _ _)]
      exact hnode.bind fun value _ _ _ h => .ok h value
  | cons b rest ih => exact follows_runFrom_cons hchains budget value b (.inr ⟨rfl, rfl⟩) hsees h ih

/-- A chain follows its structured run. -/
theorem follows_run (chain : Chain) (h : env.Marked mark env') :
    Follows (markBehind setup env' (chain.first :: chain.others) chain.last)
      (runNodes setup (callWithin setup budget) chain.nodes value env)
      (chain.run (attend setup) setup (callWithin setup budget) value env') := by
  rw [run, Exec.bind_apply, Exec.get_apply]
  exact follows_runFrom_cons hchains budget value chain.first (.inl rfl) ⟨rfl, rfl⟩ h
    fun value _ _ hsees h =>
      follows_continuations hchains budget value chain.others chain.last hsees h

end Chain

end Pipeline
