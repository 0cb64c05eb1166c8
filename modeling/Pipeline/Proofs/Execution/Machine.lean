import Pipeline.Proofs.Execution.Lockstep
import Pipeline.Proofs.Value.Elements
import Pipeline.Proofs.Value.Reach

/-!
# The machine

Execution step by step, without a bound on anything.  A machine is about to run nodes, or has a result
and goes on with the task on top of a stack.  A recorded body is run whenever the number of running
calls allows it, and a loop goes on to the next element for as long as its list has one at the moment;
nothing in a step knows how many calls or how many elements are still to come.

So it is a theorem that the machine ends:

* `Machine.reaches_runNodes` : from every sequence of nodes the machine gets to the result of executing
  them.  The induction is on the calls that may still be nested, then on the nodes, then on the elements
  that a loop has not met yet.
* `Environment.Extends` : what keeps a loop from going on forever.  No change of an environment makes a
  list longer or shorter that is already there.
* `Command.asks_prepare` : what a handler asks for, and when.
* `execute_terminates` : every execution is a finite number of steps.
-/

namespace Pipeline

/-! ### Steps -/

/-- What is to be done when there is a result. -/
inductive Task where
  /-- Goes on with the nodes that are left. -/
  | sequence (rest : List Node)
  /-- Concludes the statement of a node whose handler has returned. -/
  | conclude (node : Node)
  /-- Closes the innermost frame. -/
  | closeFrame
  /-- Counts one running call less. -/
  | endCall
  /-- Replaces an element of a list, and goes on with the next one. -/
  | element (body : Option (List Node)) (address index : Nat)
  /-- Runs a body once more. -/
  | again (body : Option (List Node))

/-- What a machine is about. -/
inductive Control where
  /-- Nodes are to be run, from a value. -/
  | run (nodes : List Node) (value : Value)
  /-- The task on top is to go on with a result. -/
  | result (result : Except Fault Value)

/-- An execution at one moment. -/
structure Machine where
  control : Control
  tasks : List Task
  env : Environment

namespace Machine

/-- A machine with a result. -/
def returning (result : Except Fault Value) (tasks : List Task) (env : Environment) : Machine :=
  ⟨.result result, tasks, env⟩

/-- Starts to run a body, which has a frame of its own; without a body the value is the result. -/
def enter (body : Option (List Node)) (value : Value) (tasks : List Task) (env : Environment) :
    Machine :=
  match body with
  | none => returning (.ok value) tasks env
  | some nodes => ⟨.run nodes value, .closeFrame :: tasks, env.pushFrame⟩

/-- Starts to run a body for an element of a list, if the list has that element now. -/
def nextElement (body : Option (List Node)) (address index : Nat) (tasks : List Task)
    (env : Environment) : Machine :=
  match (env.store.elements address)[index]? with
  | none => returning (.ok (.list address)) tasks env
  | some element => enter body element (.element body address index :: tasks) env

/-- Starts to carry out what a handler asks for. -/
def perform (body : Option (List Node)) (tasks : List Task) (env : Environment) : Action → Machine
  | .finish value => returning (.ok value) tasks env
  | .enter value => enter body value tasks env
  | .twice value => enter body value (.again body :: tasks) env
  | .traverse address => nextElement body address 0 tasks env
  | .call nodes value =>
    enter (some nodes) value (.endCall :: tasks) { env with callDepth := env.callDepth + 1 }

/-- Calls the handler of a node: it does its own work, and asks for more or fails. -/
def invoke (setup : Setup) (node : Node) (value : Value) (handler : Handler) (tasks : List Task)
    (env : Environment) : Machine :=
  match Command.prepare setup (node.invocation value) handler (env.announce node.statement) with
  | (.ok action, env) => perform node.body? tasks env action
  | (.error fault, env) => returning (.error fault) tasks env

/-- Goes on with a task that waits for a result. -/
def resume (setup : Setup) (result : Except Fault Value) (tasks : List Task) (env : Environment) :
    Task → Machine
  | .sequence rest =>
    match result with
    | .ok value => ⟨.run rest value, tasks, env⟩
    | .error fault => returning (.error fault) tasks env
  | .conclude node => returning result tasks (env.conclude setup node result)
  | .closeFrame => returning result tasks env.popFrame
  | .endCall => returning result tasks { env with callDepth := env.callDepth - 1 }
  | .element body address index =>
    match result with
    | .ok value =>
      nextElement body address (index + 1) tasks
        { env with store := env.store.write address index value }
    | .error fault => returning (.error fault) tasks env
  | .again body =>
    match result with
    | .ok value => enter body value tasks env
    | .error fault => returning (.error fault) tasks env

/-- The machine one step later; a machine with a result and without tasks has come to its end. -/
def step? (setup : Setup) (m : Machine) : Option Machine :=
  match m.control with
  | .run [] value => some (returning (.ok value) m.tasks m.env)
  | .run (node :: rest) value =>
    match setup.registry.find? node.statement.command with
    | none =>
      some (returning (.error (.script (.unknownCommand node.statement.command)
        (.ofLine node.statement.line))) m.tasks m.env)
    | some handler =>
      some (invoke setup node value handler (.conclude node :: .sequence rest :: m.tasks) m.env)
  | .result result =>
    match m.tasks with
    | [] => none
    | task :: tasks => some (resume setup result tasks m.env task)

/-- Whether the next step calls a handler. -/
def callsHandler (setup : Setup) (m : Machine) : Bool :=
  match m.control with
  | .run (node :: _) _ => (setup.registry.find? node.statement.command).isSome
  | _ => false

/-- The machine that is about to execute nodes. -/
def start (nodes : List Node) (value : Value) (env : Environment) : Machine :=
  enter (some nodes) value [] env

/-- Some steps lead from one machine to another, with a number of calls of handlers. -/
inductive Takes (setup : Setup) : (calls : Nat) → Machine → Machine → Prop where
  | refl (m : Machine) : Takes setup 0 m m
  | step {m next last : Machine} {calls : Nat} : m.step? setup = some next →
    Takes setup calls next last → Takes setup (calls + if m.callsHandler setup then 1 else 0) m last

end Machine

/-! ### What no change of an environment does -/

/-- An environment comes from another one while some calls more are running: the lists that were
there are there, and none of them is longer or shorter. -/
structure Environment.Extends (start : Environment) (calls : Nat) (env : Environment) : Prop where
  callDepth : env.callDepth = start.callDepth + calls
  size : start.store.lists.size ≤ env.store.lists.size
  elements (address : Nat) : address < start.store.lists.size →
    (env.store.elements address).size = (start.store.elements address).size

theorem Environment.Extends.refl (env : Environment) : env.Extends 0 env :=
  ⟨(Int.add_zero _).symm, Nat.le_refl _, fun _ _ => rfl⟩

/-- No list that is there becomes longer or shorter in an execution. -/
theorem lockstep_extends (setup : Setup) (start : Environment) :
    Lockstep setup fun _ c env env' => env = env' ∧ start.Extends c env where
  bindings := by rintro n c env env' ⟨rfl, -⟩; rfl
  functions := by rintro n c env env' ⟨rfl, -⟩; rfl
  store := by rintro n c env env' ⟨rfl, -⟩; rfl
  callDepth := by rintro n c env env' ⟨rfl, -⟩; rfl
  chain := by rintro n c env env' ⟨rfl, -⟩; rfl
  depth := by rintro n c env env' name - ⟨rfl, -⟩; rfl
  change := by
    rintro n c env env' x ⟨rfl, hcalls, hsize, helements⟩
    cases x with
    | allocate elements =>
      refine ⟨rfl, hcalls, ?_, fun address h => ?_⟩
      · show _ ≤ (env.store.lists.push elements).size
        rw [Array.size_push]
        omega
      · rw [← helements address h]
        exact congrArg Array.size (Store.elements_alloc_of_ne _ (by omega))
    | write address index value =>
      refine ⟨rfl, hcalls, ?_, fun other h => ?_⟩
      · show _ ≤ (env.store.lists.modify _ _).size
        rw [Array.size_modify]
        exact hsize
      · rw [← helements other h]
        exact Store.size_elements_write other
    | _ => exact ⟨rfl, hcalls, hsize, helements⟩
  setChain := by
    rintro n c env env' state ⟨rfl, hcalls, hsize, helements⟩
    unfold Environment.setChain
    split <;> exact ⟨rfl, hcalls, hsize, helements⟩
  pushFrame := by
    rintro n c env env' ⟨rfl, hcalls, hsize, helements⟩
    exact ⟨rfl, hcalls, hsize, helements⟩
  popFrame := by
    rintro n c env env' ⟨rfl, hcalls, hsize, helements⟩
    exact ⟨rfl, hcalls, hsize, helements⟩
  startCall := by
    rintro n c env env' ⟨rfl, hcalls, hsize, helements⟩
    refine ⟨rfl, ?_, hsize, helements⟩
    dsimp only
    omega
  endCall := by
    rintro n c env env' ⟨rfl, hcalls, hsize, helements⟩
    refine ⟨rfl, ?_, hsize, helements⟩
    dsimp only
    omega

section

variable (setup : Setup) (budget : Nat)

theorem extends_of_agrees {setup : Setup} {α : Type} {m : Exec α}
    (hm : ∀ {R}, Lockstep setup R → Exec.Agrees (R 1 0) m) (env : Environment) :
    env.Extends 0 (m env).2 :=
  (hm (lockstep_extends setup env) env env ⟨rfl, .refl env⟩).2.2

theorem extends_runBody (body : Option (List Node)) (value : Value) (env : Environment) :
    env.Extends 0 (runBody setup (callWithin setup budget) body value env).2 :=
  extends_of_agrees (fun L => L.runBody budget 1 0 body value) env

theorem extends_runNode (node : Node) (value : Value) (env : Environment) :
    env.Extends 0 (runNode setup (callWithin setup budget) node value env).2 :=
  extends_of_agrees (fun L => L.runNode (L.callWithin budget) 0 0 node value) env

end

/-! ### What a handler asks for -/

namespace Command

variable (setup : Setup)

/-- What the own work of a handler can ask for: the elements of a list only in a loop over this list, a
recorded body only when another call is allowed. -/
inductive Asks (i : Invocation) (handler : Handler) : Action → Environment → Prop where
  | finish (value : Value) (env : Environment) : Asks i handler (.finish value) env
  | enter (value : Value) (env : Environment) : Asks i handler (.enter value) env
  | twice (value : Value) (env : Environment) : Asks i handler (.twice value) env
  | traverse {address : Nat} (env : Environment) : handler = .standard .foreach → i.args = [] →
    i.value = .list address → Asks i handler (.traverse address) env
  | call {env : Environment} (body : List Node) (value : Value) :
    env.callDepth < setup.settings.maxCallDepth → Asks i handler (.call body value) env

/-- What holds of every action that a computation gives. -/
abbrev Always (P : Action → Environment → Prop) (m : Exec Action) : Prop :=
  ∀ env, Exec.Ended P (fun _ _ => True) (m env)

theorem always_bind {α : Type} {P : Action → Environment → Prop} {m : Exec α} {f : α → Exec Action}
    (hf : ∀ a, Always P (f a)) : Always P (m >>= f) :=
  fun _ => .bind (.of_forall (fun a => hf a) (fun _ _ => trivial) _)

section

variable {i : Invocation} {handler : Handler}

theorem asks_finish (m : Exec Value) : Always (Asks setup i handler) (.finish <$> m) :=
  fun _ => .map (.of_forall (fun value env => .finish value env) (fun _ _ => trivial) _)

theorem asks_chooseBranch (taken : Bool) (value : Value) :
    Always (Asks setup i handler) (chooseBranch taken value) := by
  cases taken
  · exact fun _ => .finish value _
  · exact fun _ => .enter value _

theorem asks_chooseNext (command : String) (line : Int) (value : Value) {branch : Exec Action}
    (hbranch : Always (Asks setup i handler) branch) :
    Always (Asks setup i handler) (chooseNext command line value branch) := by
  refine always_bind fun env => ?_
  rcases env.chain with _ | _ | _
  · exact fun _ => trivial
  · exact hbranch
  · exact fun _ => .finish value _

theorem asks_chooseCall (line : Int) (name : String) (value : Value) :
    Always (Asks setup i handler) (chooseCall setup line name value) := by
  intro env
  rw [chooseCall, Exec.bind_apply, Exec.get_apply]
  dsimp only
  cases env.functions.find? name with
  | none => exact trivial
  | some body =>
    dsimp only
    rw [Exec.bind_apply, Exec.get_apply]
    dsimp only
    split
    · exact trivial
    · next h => exact .call body value (Int.not_le.1 h)

end

theorem asks_prepare (i : Invocation) (handler : Handler) :
    Always (Asks setup i handler) (prepare setup i handler) := by
  obtain ⟨value, args, line, body⟩ := i
  cases handler with
  | standard command =>
    cases command with
    | foreach =>
      rcases args with _ | _
      · cases value with
        | list address => exact fun env => .traverse env rfl rfl rfl
        | _ => exact fun _ => trivial
      · exact fun _ => trivial
    | ifBranch =>
      rcases args with _ | ⟨condition, _ | _⟩
      · exact fun _ => trivial
      · exact always_bind fun tested => always_bind fun taken => asks_chooseBranch setup taken value
      · exact fun _ => trivial
    | elifBranch =>
      rcases args with _ | ⟨condition, _ | _⟩
      · exact fun _ => trivial
      · exact asks_chooseNext setup _ _ _
          (always_bind fun tested => always_bind fun taken => asks_chooseBranch setup taken value)
      · exact fun _ => trivial
    | elseBranch =>
      rcases args with _ | _
      · exact asks_chooseNext setup _ _ _ (asks_chooseBranch setup true value)
      · exact fun _ => trivial
    | call =>
      rcases args with _ | ⟨name, _ | _⟩
      · exact fun _ => trivial
      · exact always_bind fun name => asks_chooseCall setup line name value
      · exact fun _ => trivial
    | _ => exact asks_finish setup _
  | host handler =>
    cases handler with
    | twice => exact fun env => .twice value env
    | _ => exact asks_finish setup _

/-- A recorded body is asked for only when another call is allowed. -/
def Guarded (action : Action) (env : Environment) : Prop :=
  ∀ body value, action = .call body value → env.callDepth < setup.settings.maxCallDepth

theorem always_prepare (i : Invocation) (handler : Handler) :
    Always (Guarded setup) (prepare setup i handler) := by
  intro env
  have hasks := asks_prepare setup i handler env
  generalize prepare setup i handler env = ran at hasks ⊢
  obtain ⟨fault | action, left⟩ := ran
  · exact trivial
  · rintro body value rfl
    cases hasks with
    | call _ _ hguard => exact hguard

end Command

/-! ### What the machine gets to -/

namespace Machine

variable {setup : Setup}

theorem Takes.trans {m next last : Machine} {calls more : Nat} (h : Takes setup calls m next)
    (hmore : Takes setup more next last) : Takes setup (calls + more) m last := by
  induction h with
  | refl => rwa [Nat.zero_add]
  | step hstep _ ih =>
    have htakes := Takes.step hstep (ih hmore)
    rwa [Nat.add_right_comm] at htakes

/-- A machine gets to a result, with some tasks still to be done. -/
def Reaches (setup : Setup) (m : Machine) (tasks : List Task)
    (ran : Except Fault Value × Environment) : Prop :=
  ∃ calls, Takes setup calls m (returning ran.1 tasks ran.2)

namespace Reaches

variable {m next : Machine} {tasks rest : List Task} {ran left : Except Fault Value × Environment}

theorem refl (result : Except Fault Value) (tasks : List Task) (env : Environment) :
    Reaches setup (returning result tasks env) tasks (result, env) :=
  ⟨0, .refl _⟩

theorem step (hstep : m.step? setup = some next) (h : Reaches setup next tasks ran) :
    Reaches setup m tasks ran := by
  obtain ⟨calls, h⟩ := h
  exact ⟨_, .step hstep h⟩

theorem trans (h : Reaches setup m tasks ran)
    (hrest : Reaches setup (returning ran.1 tasks ran.2) rest left) : Reaches setup m rest left := by
  obtain ⟨calls, h⟩ := h
  obtain ⟨more, hrest⟩ := hrest
  exact ⟨_, h.trans hrest⟩

/-- With a result the machine goes on with the task on top. -/
theorem resume {task : Task} (h : Reaches setup m (task :: tasks) ran)
    (hrest : Reaches setup (Machine.resume setup ran.1 tasks ran.2 task) rest left) :
    Reaches setup m rest left :=
  h.trans (hrest.step rfl)

end Reaches

/-- A body that is run gets to its result if its nodes do. -/
theorem reaches_enter {call : List Node → Runner} {nodes : List Node} {value : Value}
    {env : Environment} {tasks : List Task}
    (hnodes : Reaches setup ⟨.run nodes value, .closeFrame :: tasks, env.pushFrame⟩
      (.closeFrame :: tasks) (runNodes setup call nodes value env.pushFrame)) :
    Reaches setup (enter (some nodes) value tasks env) tasks
      (runBody setup call (some nodes) value env) :=
  hnodes.resume (.refl _ _ _)

/-- As many calls as a budget has may be nested in an environment before the settings refuse one. -/
def Room (setup : Setup) (budget : Nat) (env : Environment) : Prop :=
  (setup.settings.maxCallDepth : Int) ≤ env.callDepth + budget

theorem Room.of_extends {budget : Nat} {env left : Environment} (h : Room setup budget env)
    (hleft : env.Extends 0 left) : Room setup budget left := by
  unfold Room at h ⊢
  rw [hleft.callDepth]
  omega

section Body

variable {budget : Nat} {body : Option (List Node)}
  (hbody : ∀ {value env tasks}, Room setup budget env → Reaches setup (enter body value tasks env) tasks
    (runBody setup (callWithin setup budget) body value env))

include hbody

/-- A loop comes to its end: the list is as long as it was, whatever the body does. -/
theorem reaches_elements (address index remaining : Nat) (tasks : List Task) {env : Environment}
    (hroom : Room setup budget env)
    (hsize : (env.store.elements address).size = index + remaining) :
    Reaches setup (nextElement body address index tasks env) tasks
      ((Command.replaceElements (runBody setup (callWithin setup budget) body) address index
        remaining >>= fun _ => pure (.list address)) env) := by
  induction remaining generalizing index env with
  | zero =>
    have hnone : (env.store.elements address)[index]? = none := by
      rw [Array.getElem?_eq_none_iff]
      omega
    rw [nextElement, hnone]
    exact .refl _ tasks env
  | succ remaining ih =>
    have hindex : index < (env.store.elements address).size := by omega
    have hsome := Array.getElem?_eq_getElem hindex
    have haddress := Store.lt_size_of_mem (Array.getElem_mem hindex)
    generalize (env.store.elements address)[index] = element at hsome
    rw [nextElement, hsome]
    refine (hbody hroom).resume ?_
    have hleft := extends_runBody setup budget body element env
    rw [Command.replaceElements, bind_assoc, Exec.bind_apply, Exec.get_apply]
    dsimp only
    rw [hsome, Option.getD_some, bind_assoc, Exec.bind_apply]
    rcases hran : runBody setup (callWithin setup budget) body element env with ⟨result, left⟩
    rw [hran] at hleft
    cases result with
    | error fault => exact .refl _ tasks left
    | ok value =>
      have hroom : Room setup budget left := hroom.of_extends hleft
      refine ih (index + 1) hroom ?_
      rw [Store.size_elements_write, hleft.elements address haddress]
      omega

/-- An action comes to its end. -/
theorem reaches_perform {action : Action} {env : Environment} (hroom : Room setup budget env)
    (hcall : ∀ nodes value, action = .call nodes value → ∀ tasks, Reaches setup
      (enter (some nodes) value tasks { env with callDepth := env.callDepth + 1 }) tasks
      (callWithin setup budget nodes value { env with callDepth := env.callDepth + 1 }))
    (tasks : List Task) :
    Reaches setup (perform body tasks env action) tasks
      (action.perform (callWithin setup budget) (runBody setup (callWithin setup budget) body)
        env) := by
  cases action with
  | finish value => exact .refl (.ok value) tasks env
  | enter value => exact hbody hroom
  | twice value =>
    refine (hbody hroom).resume ?_
    have hleft := extends_runBody setup budget body value env
    rw [Action.perform, Exec.bind_apply]
    rcases hran : runBody setup (callWithin setup budget) body value env with ⟨result, left⟩
    rw [hran] at hleft
    cases result with
    | error fault => exact .refl _ tasks left
    | ok value => exact hbody (hroom.of_extends hleft)
  | traverse address => exact reaches_elements hbody address 0 _ tasks hroom (Nat.zero_add _).symm
  | call nodes value => exact (hcall nodes value rfl (.endCall :: tasks)).resume (.refl _ _ _)

end Body

/-- The nodes of a body come to their end when the recorded bodies do. -/
def Calls (setup : Setup) (budget : Nat) : Prop :=
  ∀ nodes value env tasks, Room setup budget env → env.callDepth < setup.settings.maxCallDepth →
    Reaches setup (enter (some nodes) value tasks { env with callDepth := env.callDepth + 1 }) tasks
      (callWithin setup budget nodes value { env with callDepth := env.callDepth + 1 })

section Nodes

variable {budget : Nat} {node : Node} (hcalls : Calls setup budget)
  (hbody : ∀ {value env tasks}, Room setup budget env →
    Reaches setup (enter node.body? value tasks env) tasks
      (runBody setup (callWithin setup budget) node.body? value env))

include hcalls hbody

/-- A handler that is called comes to its end. -/
theorem reaches_invoke {handler : Handler}
    (hfind : setup.registry.find? node.statement.command = some handler) (value : Value)
    {env : Environment} (hroom : Room setup budget env) (tasks : List Task) :
    Reaches setup (invoke setup node value handler tasks env) tasks
      ((Command.prepare setup (node.invocation value) handler >>=
        Action.perform (callWithin setup budget) (runBody setup (callWithin setup budget) node.body?))
        (env.announce node.statement)) := by
  have hannounced : Room setup budget (env.announce node.statement) := hroom
  have hleft := extends_of_agrees (m := Command.prepare setup (node.invocation value) handler)
    (fun L => L.prepare hfind) (env.announce node.statement)
  have hguard := Command.always_prepare setup (node.invocation value) handler
    (env.announce node.statement)
  rw [invoke, Exec.bind_apply]
  rcases hran : Command.prepare setup (node.invocation value) handler
    (env.announce node.statement) with ⟨fault | action, left⟩
  · exact .refl _ tasks left
  · rw [hran] at hleft hguard
    have hroom : Room setup budget left := hannounced.of_extends hleft
    exact reaches_perform hbody hroom (fun nodes value hcall tasks =>
      hcalls nodes value left tasks hroom (hguard nodes value hcall)) tasks

theorem reaches_cons {rest : List Node}
    (hrest : ∀ {value env tasks}, Room setup budget env → Reaches setup ⟨.run rest value, tasks, env⟩
      tasks (runNodes setup (callWithin setup budget) rest value env))
    {value : Value} {env : Environment} {tasks : List Task} (hroom : Room setup budget env) :
    Reaches setup ⟨.run (node :: rest) value, tasks, env⟩ tasks
      (runNodes setup (callWithin setup budget) (node :: rest) value env) := by
  have hleft := extends_runNode setup budget node value env
  rw [runNode_apply] at hleft
  rw [runNodes]
  dsimp only
  rw [Exec.bind_apply, runNode_apply]
  cases hfind : setup.registry.find? node.statement.command with
  | none =>
    refine .step ?_ (.refl _ tasks env)
    rw [step?]
    dsimp only
    rw [hfind]
  | some handler =>
    rw [hfind] at hleft
    have hstep : step? setup ⟨.run (node :: rest) value, tasks, env⟩ =
        some (invoke setup node value handler (.conclude node :: .sequence rest :: tasks) env) := by
      rw [step?]
      dsimp only
      rw [hfind]
    have hinvoke := reaches_invoke hcalls hbody hfind value hroom
      (.conclude node :: .sequence rest :: tasks)
    refine .step hstep (hinvoke.resume (.resume (.refl _ _ _) ?_))
    dsimp only at hleft ⊢
    rcases hran : (Command.prepare setup (node.invocation value) handler >>=
      Action.perform (callWithin setup budget) (runBody setup (callWithin setup budget) node.body?))
      (env.announce node.statement) with ⟨result, left⟩
    rw [hran] at hleft
    cases result with
    | error fault => exact .refl _ tasks _
    | ok value => exact hrest (hroom.of_extends hleft)

end Nodes

mutual

theorem reaches_body {budget : Nat} (hcalls : Calls setup budget) :
    ∀ (node : Node) {value : Value} {env : Environment} {tasks : List Task},
      Room setup budget env → Reaches setup (enter node.body? value tasks env) tasks
        (runBody setup (callWithin setup budget) node.body? value env)
  | .simple _, value, env, tasks, _ => .refl (.ok value) tasks env
  | .block _ nodes, _, _, _, hroom =>
    reaches_enter (reaches_runNodes hcalls nodes hroom)

theorem reaches_runNodes {budget : Nat} (hcalls : Calls setup budget) :
    ∀ (nodes : List Node) {value : Value} {env : Environment} {tasks : List Task},
      Room setup budget env → Reaches setup ⟨.run nodes value, tasks, env⟩ tasks
        (runNodes setup (callWithin setup budget) nodes value env)
  | [], value, env, tasks, _ => .step rfl (.refl (.ok value) tasks env)
  | node :: rest, _, _, _, hroom =>
    reaches_cons hcalls (reaches_body hcalls node) (reaches_runNodes hcalls rest) hroom

end

theorem calls (setup : Setup) (budget : Nat) : Calls setup budget := by
  induction budget with
  | zero =>
    intro nodes value env tasks hroom hguard
    unfold Room at hroom
    omega
  | succ budget ih =>
    intro nodes value env tasks hroom _
    have hroom' : Room setup budget { env with callDepth := env.callDepth + 1 } := by
      unfold Room at hroom ⊢
      dsimp only
      omega
    rw [callWithin, runWithin_eq]
    exact reaches_enter (reaches_runNodes ih nodes hroom')

/-- From a machine that is about to execute nodes, some steps lead to their result. -/
theorem reaches_execute (setup : Setup) (nodes : List Node) (value : Value) (env : Environment) :
    Reaches setup (start nodes value env) [] (execute setup nodes value env) := by
  have hroom : Room setup (setup.settings.maxCallDepth - env.callDepth).toNat env.pushFrame := by
    show (setup.settings.maxCallDepth : Int) ≤ env.callDepth + _
    omega
  rw [execute, Exec.bind_apply, Exec.get_apply]
  dsimp only
  rw [runWithin_eq]
  exact reaches_enter (reaches_runNodes (calls setup _) nodes hroom)

/-- A run that comes to an end passes through every state that is reached on the way. -/
theorem Takes.exists_rest {setup : Setup} {m next last : Machine} {calls all : Nat}
    (h : Takes setup calls m next) (hall : Takes setup all m last)
    (hlast : last.step? setup = none) : ∃ more, all = calls + more ∧ Takes setup more next last := by
  induction h generalizing all with
  | refl => exact ⟨all, (Nat.zero_add all).symm, hall⟩
  | step hstep _ ih =>
    cases hall with
    | refl => rw [hlast] at hstep; cases hstep
    | step hstep' hall =>
      obtain rfl := Option.some.inj (hstep.symm.trans hstep')
      obtain ⟨more, rfl, hrest⟩ := ih hall
      exact ⟨more, Nat.add_right_comm _ _ _, hrest⟩

end Machine

/-- **Every execution ends.**  The machine that is about to execute nodes gets to an end, where it
holds the result and the environment of the execution; on the way it calls handlers a number of times,
and no part of its run calls them more often. -/
theorem execute_terminates (setup : Setup) (nodes : List Node) (value : Value) (env : Environment) :
    ∃ (calls : Nat) (last : Machine),
      Machine.Takes setup calls (.start nodes value env) last ∧ last.step? setup = none ∧
      last.control = .result (execute setup nodes value env).1 ∧
      last.env = (execute setup nodes value env).2 ∧
      ∀ part next, Machine.Takes setup part (.start nodes value env) next → part ≤ calls := by
  obtain ⟨calls, h⟩ := Machine.reaches_execute setup nodes value env
  refine ⟨calls, _, h, rfl, rfl, rfl, fun part next hpart => ?_⟩
  obtain ⟨more, rfl, -⟩ := hpart.exists_rest h rfl
  exact Nat.le_add_right part more

end Pipeline
