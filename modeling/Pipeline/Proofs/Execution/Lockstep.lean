import Pipeline.Proofs.Execution.Plans

/-!
# Two runs in lockstep

The same nodes are run in two environments.  Execution reads the variables, the recorded bodies, the
lists, the number of running calls and the state of the innermost chain, and nothing else; only a
host's question for the depths also sees how many frames are open.  So a relation under which two
environments agree on these, and which every change of an environment keeps, is kept by every run, and
both runs end in the same way.

`Lockstep` lists what such a relation has to satisfy, change by change, and `Lockstep.runNodes` and
`Lockstep.execute` are what follows for runs.  A relation is counted by the frames and the calls that
were opened since the start: what was outside at the start need not be the same on both sides, and
what is inside is.
-/

namespace Pipeline

/-! ### Changes -/

/-- A change of an environment, apart from its frames and its running calls. -/
inductive Change where
  | bind (name : String) (value : Value)
  | define (name : String) (body : List Node)
  | allocate (elements : Array Value)
  | write (address index : Nat) (value : Value)
  | print (line : String)
  | ask (path : String)
  | count (command : String)
  | record (level : Level) (message : String)
  | span (span : Span)
  | step (step : TraceStep)

/-- Makes a change. -/
def Environment.change (env : Environment) : Change → Environment
  | .bind name value => env.setVariable name value
  | .define name body => { env with functions := env.functions.insert name body }
  | .allocate elements => (env.newList elements).2
  | .write address index value => { env with store := env.store.write address index value }
  | .print line => { env with printed := env.printed.push line }
  | .ask path => env.ask path
  | .count command => env.count command
  | .record level message => env.record level message
  | .span span => env.addSpan span
  | .step step => env.addStep step

/-! ### Computations that agree -/

namespace Exec

/-- A computation ends in the same way in any two environments that are related, and leaves them
related. -/
def Agrees {α : Type} (R : Environment → Environment → Prop) (m : Exec α) : Prop :=
  ∀ env env', R env env' → (m env).1 = (m env').1 ∧ R (m env).2 (m env').2

namespace Agrees

variable {R : Environment → Environment → Prop} {α β : Type} {m : Exec α}

theorem pure (a : α) : Agrees R (pure a) :=
  fun _ _ h => ⟨rfl, h⟩

theorem throw (fault : Fault) : Agrees R (throw fault : Exec α) :=
  fun _ _ h => ⟨rfl, h⟩

theorem bind {f : α → Exec β} (hm : Agrees R m) (hf : ∀ a, Agrees R (f a)) :
    Agrees R (m >>= f) := by
  intro env env' h
  obtain ⟨hresult, hleft⟩ := hm env env' h
  rw [bind_apply, bind_apply]
  rcases hr : m env with ⟨result, left⟩
  rcases hr' : m env' with ⟨result', left'⟩
  rw [hr, hr'] at hresult hleft
  obtain rfl : result = result' := hresult
  cases result with
  | ok a => exact hf a left left' hleft
  | error fault => exact ⟨rfl, hleft⟩

theorem map (f : α → β) (hm : Agrees R m) : Agrees R (f <$> m) := by
  rw [← bind_pure_comp]
  exact hm.bind fun a => pure (f a)

/-- A computation that only looks agrees where it sees the same. -/
theorem of_looks {look : Environment → Except Fault α} (hm : ∀ env, m env = (look env, env))
    (hlook : ∀ env env', R env env' → look env = look env') : Agrees R m := by
  intro env env' h
  rw [hm, hm]
  exact ⟨hlook env env' h, h⟩

/-- So does one that goes on by what it saw. -/
theorem of_get {f : Environment → Exec α} (hf : ∀ env env', R env env' → f env = f env')
    (hm : ∀ env, Agrees R (f env)) : Agrees R (get >>= f) := by
  intro env env' h
  rw [bind_apply, bind_apply, get_apply, get_apply]
  dsimp only
  rw [← hf env env' h]
  exact hm env env env' h

theorem lift (result : Except Fault α) : Agrees R (liftM result : Exec α) :=
  of_looks (lift_apply · result) fun _ _ _ => rfl

theorem failAt (line : Int) (cause : Cause) : Agrees R (failAt line cause : Exec α) :=
  throw _

theorem wrongInput (command : String) (needed : ValueKind) (value : Value) (line : Int) :
    Agrees R (Command.wrongInput command needed value line : Exec α) := by
  cases value <;> exact fun _ _ h => ⟨rfl, h⟩

end Agrees

end Exec

/-! ### Lockstep -/

/-- A relation between the environments of two runs, with the numbers of frames and of calls opened
since the start, that execution keeps. -/
structure Lockstep (setup : Setup) (R : (frames calls : Nat) → Environment → Environment → Prop) :
    Prop where
  bindings {n c : Nat} {env env' : Environment} : R n c env env' → env.bindings = env'.bindings
  functions {n c : Nat} {env env' : Environment} : R n c env env' → env.functions = env'.functions
  store {n c : Nat} {env env' : Environment} : R n c env env' → env.store = env'.store
  callDepth {n c : Nat} {env env' : Environment} : R n c env env' → env.callDepth = env'.callDepth
  chain {n c : Nat} {env env' : Environment} : R (n + 1) c env env' → env.chain = env'.chain
  /-- Only the handler that gives the depths sees the number of frames. -/
  depth {n c : Nat} {env env' : Environment} {name : String} :
    setup.registry.find? name = some (.host .depths) → R n c env env' → env.depth = env'.depth
  change {n c : Nat} {env env' : Environment} (x : Change) :
    R n c env env' → R n c (env.change x) (env'.change x)
  setChain {n c : Nat} {env env' : Environment} (state : Option Bool) :
    R (n + 1) c env env' → R (n + 1) c (env.setChain state) (env'.setChain state)
  pushFrame {n c : Nat} {env env' : Environment} :
    R n c env env' → R (n + 1) c env.pushFrame env'.pushFrame
  popFrame {n c : Nat} {env env' : Environment} :
    R (n + 1) c env env' → R n c env.popFrame env'.popFrame
  startCall {n c : Nat} {env env' : Environment} : R n c env env' →
    R n (c + 1) { env with callDepth := env.callDepth + 1 }
      { env' with callDepth := env'.callDepth + 1 }
  endCall {n c : Nat} {env env' : Environment} : R n (c + 1) env env' →
    R n c { env with callDepth := env.callDepth - 1 } { env' with callDepth := env'.callDepth - 1 }

namespace Lockstep

open Exec Command

variable {setup : Setup} {R : Nat → Nat → Environment → Environment → Prop}

section Work

variable (L : Lockstep setup R) {n c : Nat}

include L

/-! ### The own work of the handlers -/

theorem makes (x : Change) : Agrees (R n c) (modify (·.change x) : Exec Unit) :=
  fun _ _ h => ⟨rfl, L.change x h⟩

theorem look {α : Type} (l : Look α) (line : Int) : Agrees (R n c) (l.run setup line) :=
  .of_looks (l.run_apply setup line) fun _ _ h => by rw [L.bindings h, L.store h]

theorem newList (elements : Array Value) :
    Agrees (R n c) (modifyGet (·.newList elements) : Exec Value) := by
  intro env env' h
  refine ⟨?_, L.change (.allocate elements) h⟩
  show Except.ok (Value.list env.store.lists.size) = .ok (.list env'.store.lists.size)
  rw [L.store h]

theorem readText (line : Int) (path : String) : Agrees (R n c) (readText setup line path) := by
  unfold Command.readText
  dsimp only
  split
  · exact .throw _
  · refine (L.makes (.ask path)).bind fun _ => ?_
    split
    · exact .throw _
    · split
      · exact .throw _
      · exact .pure _

theorem chooseBranch (taken : Bool) (value : Value) :
    Agrees (R (n + 1) c) (chooseBranch taken value) := by
  have hmark : Agrees (R (n + 1) c) (modify (·.setChain (some taken)) : Exec Unit) :=
    fun _ _ h => ⟨rfl, L.setChain _ h⟩
  exact hmark.bind fun _ => .pure _

theorem chooseNext (command : String) (line : Int) (value : Value) {branch : Exec Action}
    (hbranch : Agrees (R (n + 1) c) branch) :
    Agrees (R (n + 1) c) (chooseNext command line value branch) := by
  refine .of_get (fun env env' h => by rw [L.chain h]) fun env => ?_
  rcases env.chain with _ | _ | _
  · exact .failAt _ _
  · exact hbranch
  · exact .pure _

theorem chooseCall (line : Int) (name : String) (value : Value) :
    Agrees (R n c) (chooseCall setup line name value) := by
  refine .of_get (fun env env' h => by rw [L.functions h]) fun env => ?_
  cases env.functions.find? name with
  | none => exact .failAt _ _
  | some body =>
    refine .of_get (fun env env' h => by rw [L.callDepth h]) fun env => ?_
    split
    · exact .failAt _ _
    · exact .pure _

theorem ending {command : StandardCommand} (i : Invocation) (ending : Ending command)
    (hmark : IsBranch (.standard command) → ∃ outer, n = outer + 1) :
    Agrees (R n c) (ending.run setup i) := by
  cases ending with
  | wrongArity allowed => exact .failAt _ _
  | wrongInput needed => exact .wrongInput _ _ _ _
  | finish value => exact .pure _
  | bind name value => exact (L.makes (.bind name value)).bind fun _ => .pure _
  | define name => exact (L.makes (.define name (i.body.getD []))).bind fun _ => .pure _
  | allocate pieces => exact (L.newList _).map _
  | print text => exact (L.makes (.print text)).bind fun _ => .pure _
  | read path => exact (L.readText i.line path).bind fun text => .pure _
  | traverse address => exact .pure _
  | call name => exact L.chooseCall i.line name i.value
  | mark h taken =>
    obtain ⟨outer, rfl⟩ := hmark h
    exact L.chooseBranch taken i.value

theorem plan {command : StandardCommand} (i : Invocation) (plan : Plan command)
    (hmark : IsBranch (.standard command) → ∃ outer, n = outer + 1) :
    Agrees (R n c) (plan.run setup i) := by
  induction plan with
  | done ending => exact L.ending i ending hmark
  | look l next ih => exact (L.look l i.line).bind ih
  | ifOpen h next ih =>
    obtain ⟨outer, rfl⟩ := hmark h.isBranch
    exact L.chooseNext _ _ _ ih

/-- The own work of a handler agrees, if there is a frame of its own for a branch. -/
theorem prepare_of_mark {i : Invocation} {handler : Handler} {name : String}
    (hfind : setup.registry.find? name = some handler)
    (hmark : IsBranch handler → ∃ outer, n = outer + 1) :
    Agrees (R n c) (Command.prepare setup i handler) := by
  cases handler with
  | standard command =>
    rw [prepare_eq_plan]
    exact L.plan i _ hmark
  | host handler =>
    by_cases hdepths : handler = .depths
    · subst hdepths
      refine Agrees.map _ (.of_get (fun env env' h => ?_) fun env => L.newList _)
      rw [L.depth hfind h, L.callDepth h]
    · obtain ⟨result, hresult, -⟩ := prepare_host setup i hdepths
      rw [hresult]
      exact .lift result

/-- The own work of a handler that has nothing to do with branches agrees whatever the marks are. -/
theorem prepare_other {i : Invocation} {handler : Handler} {name : String}
    (hfind : setup.registry.find? name = some handler) (hbranch : ¬IsBranch handler) :
    Agrees (R n c) (Command.prepare setup i handler) :=
  L.prepare_of_mark hfind fun h => absurd h hbranch

theorem prepare {i : Invocation} {handler : Handler} {name : String}
    (hfind : setup.registry.find? name = some handler) :
    Agrees (R (n + 1) c) (Command.prepare setup i handler) :=
  L.prepare_of_mark hfind fun _ => ⟨n, rfl⟩

/-! ### Actions and nodes -/

theorem inFrame {α : Type} {m : Exec α} (hm : Agrees (R (n + 1) c) m) :
    Agrees (R n c) (inFrame m) := by
  intro env env' h
  obtain ⟨hresult, hleft⟩ := hm _ _ (L.pushFrame h)
  exact ⟨hresult, L.popFrame hleft⟩

theorem inCall {α : Type} {m : Exec α} (hm : Agrees (R n (c + 1)) m) :
    Agrees (R n c) (inCall m) := by
  intro env env' h
  obtain ⟨hresult, hleft⟩ := hm _ _ (L.startCall h)
  exact ⟨hresult, L.endCall hleft⟩

theorem replaceElements {run : Runner} (hrun : ∀ value, Agrees (R n c) (run value))
    (address index remaining : Nat) :
    Agrees (R n c) (replaceElements run address index remaining) := by
  induction remaining generalizing index with
  | zero => exact .pure ()
  | succ remaining ih =>
    refine .of_get (fun env env' h => by rw [L.store h]) fun env => ?_
    exact (hrun _).bind fun result => (L.makes (.write address index result)).bind fun _ =>
      ih (index + 1)

theorem perform {call : List Node → Runner} {run : Runner}
    (hcall : ∀ body value, Agrees (R n (c + 1)) (call body value))
    (hrun : ∀ value, Agrees (R n c) (run value)) (action : Action) :
    Agrees (R n c) (action.perform call run) := by
  cases action with
  | finish value => exact .pure value
  | enter value => exact hrun value
  | twice value => exact (hrun value).bind hrun
  | traverse address =>
    refine .of_get (fun env env' h => by rw [L.store h]) fun env => ?_
    exact (L.replaceElements hrun address 0 _).bind fun _ => .pure _
  | call body value => exact L.inCall (hcall body value)

theorem announce {env env' : Environment} (s : Statement) (h : R n c env env') :
    R n c (env.announce s) (env'.announce s) :=
  L.change (.count s.command) (L.change (.record _ _) h)

theorem report {env env' : Environment} (node : Node) (result : Except Fault Value)
    (h : R n c env env') : R n c (env.report setup node result) (env'.report setup node result) := by
  have hspan (span : Span) :
      R n c (if node.isBlock then env.addSpan span else env)
        (if node.isBlock then env'.addSpan span else env') := by
    split
    · exact L.change (.span span) h
    · exact h
  unfold Environment.report
  cases result with
  | error fault => exact hspan _
  | ok value =>
    dsimp only
    split
    · rw [L.store (hspan _)]
      exact L.change (.step _) (hspan _)
    · exact hspan _

theorem conclude {env env' : Environment} (node : Node) (result : Except Fault Value)
    (h : R (n + 1) c env env') :
    R (n + 1) c (env.conclude setup node result) (env'.conclude setup node result) := by
  have hreport := L.report node result h
  cases result with
  | error fault => exact hreport
  | ok value =>
    unfold Environment.conclude Environment.pass
    dsimp only
    split
    · exact hreport
    · exact L.setChain none hreport

theorem node {call : List Node → Runner} (hcall : ∀ n c body value, Agrees (R n c) (call body value))
    (node : Node) (hrun : ∀ value, Agrees (R (n + 1) c) (runBody setup call node.body? value))
    (value : Value) : Agrees (R (n + 1) c) (runNode setup call node value) := by
  intro env env' h
  rw [runNode_apply, runNode_apply]
  cases hfind : setup.registry.find? node.statement.command with
  | none => exact ⟨rfl, h⟩
  | some handler =>
    have hran := ((L.prepare (i := node.invocation value) hfind).bind fun action =>
      L.perform (fun body value => hcall _ _ body value) hrun action) _ _ (L.announce node.statement h)
    dsimp only
    rw [hran.1]
    exact ⟨rfl, L.conclude node _ hran.2⟩

end Work

mutual

theorem runNode (L : Lockstep setup R) {call : List Node → Runner}
    (hcall : ∀ n c body value, Agrees (R n c) (call body value)) (n c : Nat) :
    ∀ (node : Node) (value : Value), Agrees (R (n + 1) c) (runNode setup call node value)
  | .simple s, value => L.node hcall (.simple s) (fun value => .pure value) value
  | .block s body, value =>
    L.node hcall (.block s body) (fun value => L.inFrame (L.runNodes hcall (n + 1) c body value)) value

theorem runNodes (L : Lockstep setup R) {call : List Node → Runner}
    (hcall : ∀ n c body value, Agrees (R n c) (call body value)) (n c : Nat) :
    ∀ (nodes : List Node) (value : Value), Agrees (R (n + 1) c) (runNodes setup call nodes value)
  | [], value => .pure value
  | node :: rest, value =>
    (L.runNode hcall n c node value).bind fun next => L.runNodes hcall n c rest next

end

theorem callWithin (L : Lockstep setup R) (budget n c : Nat) (nodes : List Node) (value : Value) :
    Agrees (R n c) (callWithin setup budget nodes value) := by
  induction budget generalizing n c nodes value with
  | zero => exact .throw _
  | succ budget ih =>
    show Agrees (R n c) (runWithin setup budget nodes value)
    rw [runWithin_eq]
    exact L.inFrame (L.runNodes ih n c nodes value)

theorem runBody (L : Lockstep setup R) (budget n c : Nat) (body : Option (List Node))
    (value : Value) : Agrees (R n c) (runBody setup (Pipeline.callWithin setup budget) body value) := by
  cases body with
  | none => exact .pure value
  | some nodes => exact L.inFrame (L.runNodes (L.callWithin budget) n c nodes value)

/-- Execution keeps the relation, and ends in the same way on both sides. -/
theorem execute (L : Lockstep setup R) (n c : Nat) (nodes : List Node) (value : Value) :
    Agrees (R n c) (execute setup nodes value) :=
  .of_get (fun env env' h => by rw [L.callDepth h]) fun env => by
    rw [runWithin_eq]
    exact L.inFrame (L.runNodes (L.callWithin _) n c nodes value)

end Lockstep

end Pipeline
