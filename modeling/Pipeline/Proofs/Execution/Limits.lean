import Pipeline.Proofs.Execution.Soundness
import Pipeline.Proofs.Execution.WellFormed

/-!
# The limits on nesting

Two limits are set on a run: how deep blocks may be nested in a program that is read, and how many calls
may be nested in its execution.  Together they bound the frames that are open.  What carries the bound is
that nodes fit in where they are run: the frames that are open there and the blocks in the nodes are no
more than the limit allows for the main program and for each running call.  Every body that is recorded
stood in a block of the program, so it is one level less deep than a program may be, and the frame in
which it is called makes up for this level.

* `nesting_le_of_build` : programs that are built are no deeper than the limit.
* `Machine.Within` : what holds of the tasks and the environment of a machine; the frames and the calls
  of the environment are those that are waiting to be ended.
* `Machine.bounded_step`, `Machine.bounded_takes` : a machine keeps within the limits.
-/

namespace Pipeline

/-! ### Programs that are built -/

namespace Program

theorem nesting_le_of_buildBody {settings : Settings} {inChain chainOpen : Bool} {depth : Nat}
    {statements : List Statement} {nodes : List Node} {stop : Stop} {rest : Rest statements}
    (h : buildBody settings inChain depth chainOpen statements = .ok (nodes, stop, rest)) :
    nesting nodes ≤ settings.maxDepth - depth := by
  fun_induction buildBody settings inChain depth chainOpen statements generalizing nodes stop with
  | case1 => cases h; exact Nat.zero_le _
  | case2 => cases h; exact Nat.zero_le _
  | case3 => cases h; exact Nat.zero_le _
  | case4 => cases h
  | case5 => cases h
  | case6 => cases h
  | case7 => cases h
  | case8 => cases h
  | case9 inChain depth chainOpen s rest _ hne hopens hplaced hroom body stop₁ rest₁ h₁ hended hbody
      nodes₂ stop₂ rest₂ h₂ hrest ihbody ihrest =>
    cases h
    have hnesting₁ := ihbody hbody
    have hnesting₂ := ihrest hrest
    rw [nesting_block]
    omega
  | case10 => cases h
  | case11 inChain depth chainOpen s rest _ hne hopens nodes₁ stop₁ rest₁ h₁ hrest ih =>
    cases h
    rw [nesting_simple]
    exact ih hrest

theorem nesting_le_of_build {settings : Settings} {statements : List Statement} {nodes : List Node}
    (h : build settings statements = .ok nodes) : nesting nodes ≤ settings.maxDepth := by
  obtain ⟨stop, rest, hbody⟩ := exists_buildBody_of_build h
  exact nesting_le_of_buildBody hbody

end Program

namespace Environment

theorem depth_setChain (env : Environment) (state : Option Bool) :
    (env.setChain state).depth = env.depth := by
  rcases hframes : env.frames with _ | ⟨mark, below⟩
  · rw [setChain, hframes]
  · rw [setChain_of_frames hframes, depth, depth, hframes]
    rfl

theorem depth_conclude (env : Environment) (setup : Setup) (node : Node)
    (result : Except Fault Value) : (env.conclude setup node result).depth = env.depth := by
  obtain ⟨journal, hreport⟩ := env.exists_report_eq setup node result
  cases result with
  | error fault =>
    rw [conclude, hreport]
    rfl
  | ok value =>
    rw [conclude, hreport, pass]
    split
    · rfl
    · exact depth_setChain _ none

end Environment

namespace Machine

/-! ### Open frames and running calls -/

/-- The number of frames that are waiting to be closed. -/
def frames : List Task → Nat
  | [] => 0
  | .closeFrame :: tasks => frames tasks + 1
  | _ :: tasks => frames tasks

/-- The number of calls that are waiting to be ended: their bodies are running. -/
def running : List Task → Nat
  | [] => 0
  | .endCall :: tasks => running tasks + 1
  | _ :: tasks => running tasks

/-- Nodes fit in above some tasks: a frame is open for them, and the limit on blocks is kept by the nodes
alone, and by the frames and the nodes together, if it is counted once for the program and once for each
running call. -/
def Fits (limit : Nat) (tasks : List Task) (nodes : List Node) : Prop :=
  nodes ≠ [] → 1 ≤ frames tasks ∧ Program.nesting nodes ≤ limit ∧
    frames tasks + Program.nesting nodes ≤ 1 + limit * (running tasks + 1)

/-- A body fits in with a frame of its own. -/
def BodyFits (limit : Nat) (tasks : List Task) (body : Option (List Node)) : Prop :=
  ∀ nodes, body = some nodes → Fits limit (.closeFrame :: tasks) nodes

/-- What a task runs fits in above the tasks below it. -/
def TaskFits (limit : Nat) (tasks : List Task) : Task → Prop
  | .sequence rest => Fits limit tasks rest
  | .element body _ _ | .again body => BodyFits limit tasks body
  | .conclude _ | .closeFrame | .endCall => True

/-- What every task runs fits in. -/
def TasksFit (limit : Nat) : List Task → Prop
  | [] => True
  | task :: tasks => TaskFits limit tasks task ∧ TasksFit limit tasks

/-- The tasks and the environment of a machine keep within the limits.  A body that is recorded is less
deep than a program may be. -/
structure Within (settings : Settings) (tasks : List Task) (env : Environment) : Prop where
  depth : env.depth = frames tasks
  callDepth : env.callDepth = running tasks
  running_le : running tasks ≤ settings.maxCallDepth
  functions : ∀ name body, env.functions.find? name = some body →
    body ≠ [] → Program.nesting body < settings.maxDepth
  tasks : TasksFit settings.maxDepth tasks

/-- A machine keeps within the limits, and the nodes that it is about to run fit in. -/
structure Bounded (settings : Settings) (m : Machine) : Prop extends Within settings m.tasks m.env where
  control : ∀ nodes value, m.control = .run nodes value → Fits settings.maxDepth m.tasks nodes

variable {settings : Settings} {setup : Setup} {body : Option (List Node)} {value : Value}
  {task : Task} {tasks : List Task} {env left : Environment}

/-- Nothing else of an environment matters. -/
theorem Within.of_eq (h : Within settings tasks env) (hdepth : left.depth = env.depth)
    (hcallDepth : left.callDepth = env.callDepth) (hfunctions : left.functions = env.functions) :
    Within settings tasks left where
  depth := hdepth.trans h.depth
  callDepth := hcallDepth.trans h.callDepth
  running_le := h.running_le
  functions := hfunctions ▸ h.functions
  tasks := h.tasks

/-- A task that closes no frame and ends no call is put on top. -/
theorem Within.push (h : Within settings tasks env) (hframes : frames (task :: tasks) = frames tasks)
    (hrunning : running (task :: tasks) = running tasks)
    (htask : TaskFits settings.maxDepth tasks task) : Within settings (task :: tasks) env where
  depth := hframes ▸ h.depth
  callDepth := hrunning ▸ h.callDepth
  running_le := hrunning ▸ h.running_le
  functions := h.functions
  tasks := ⟨htask, h.tasks⟩

/-- Such a task is taken away. -/
theorem Within.pop (h : Within settings (task :: tasks) env)
    (hframes : frames (task :: tasks) = frames tasks)
    (hrunning : running (task :: tasks) = running tasks) : Within settings tasks env where
  depth := hframes ▸ h.depth
  callDepth := hrunning ▸ h.callDepth
  running_le := hrunning ▸ h.running_le
  functions := h.functions
  tasks := h.tasks.2

theorem bounded_returning (h : Within settings tasks env) (result : Except Fault Value) :
    (returning result tasks env).Bounded settings :=
  ⟨h, nofun⟩

section

variable (h : Within settings tasks env)

include h

theorem bounded_enter (hbody : BodyFits settings.maxDepth tasks body) :
    (enter body value tasks env).Bounded settings := by
  cases body with
  | none => exact bounded_returning h (.ok value)
  | some nodes =>
    refine ⟨⟨congrArg (· + 1) h.depth, h.callDepth, h.running_le, h.functions, trivial, h.tasks⟩, ?_⟩
    intro nodes' value' hcontrol
    cases hcontrol
    exact hbody nodes rfl

theorem bounded_nextElement (hbody : BodyFits settings.maxDepth tasks body) (address index : Nat) :
    (nextElement body address index tasks env).Bounded settings := by
  unfold nextElement
  cases (env.store.elements address)[index]? with
  | none => exact bounded_returning h _
  | some element =>
    exact bounded_enter (h.push rfl rfl hbody) hbody

/-- What a handler asks for keeps within the limits if the frames that are open do, and if a call is
allowed and of a body that is less deep than a program may be. -/
theorem bounded_perform {action : Action} (hbody : BodyFits settings.maxDepth tasks body)
    (hframes : frames tasks ≤ 1 + settings.maxDepth * (running tasks + 1))
    (hcall : ∀ nodes value, action = .call nodes value →
      env.callDepth < settings.maxCallDepth ∧
        (nodes ≠ [] → Program.nesting nodes < settings.maxDepth)) :
    (perform body tasks env action).Bounded settings := by
  cases action with
  | finish value => exact bounded_returning h _
  | enter value => exact bounded_enter h hbody
  | twice value =>
    exact bounded_enter (h.push rfl rfl hbody) hbody
  | traverse address => exact bounded_nextElement h hbody address 0
  | call nodes value =>
    obtain ⟨hguard, hshallow⟩ := hcall nodes value rfl
    have hrunning := h.callDepth
    have habove : Within settings (.endCall :: tasks)
        { env with callDepth := env.callDepth + 1 } := by
      refine ⟨h.depth, ?_, ?_, h.functions, trivial, h.tasks⟩
      · show env.callDepth + 1 = ((running tasks + 1 : Nat) : Int)
        omega
      · show running tasks + 1 ≤ settings.maxCallDepth
        omega
    refine bounded_enter habove (?_ : BodyFits _ _ (some nodes))
    intro nodes' hnodes hne
    cases hnodes
    have hnesting := hshallow hne
    have hmul : settings.maxDepth * (running tasks + 1 + 1) =
        settings.maxDepth * (running tasks + 1) + settings.maxDepth := Nat.mul_succ _ _
    refine ⟨Nat.le_add_left _ _, hnesting.le, ?_⟩
    show frames tasks + 1 + Program.nesting nodes ≤ 1 + settings.maxDepth * (running tasks + 1 + 1)
    omega

end

/-! ### Steps -/

/-- The nodes behind a node fit in where it does. -/
theorem Fits.rest {limit : Nat} {node : Node} {rest : List Node}
    (h : Fits limit tasks (node :: rest)) : Fits limit tasks rest := by
  intro _
  obtain ⟨hframe, hnesting, hsum⟩ := h (List.cons_ne_nil node rest)
  have hmax : Program.nesting rest ≤ Program.nesting (node :: rest) := Nat.le_max_right _ _
  exact ⟨hframe, by omega, by omega⟩

/-- So does its body. -/
theorem Fits.inside {limit : Nat} {node : Node} {rest : List Node}
    (h : Fits limit tasks (node :: rest)) : BodyFits limit tasks node.body? := by
  intro nodes hbody _
  obtain ⟨hframe, hnesting, hsum⟩ := h (List.cons_ne_nil node rest)
  cases node with
  | simple s => cases hbody
  | block s body =>
    cases hbody
    rw [Program.nesting_block] at hnesting hsum
    refine ⟨Nat.le_add_left _ _, by omega, ?_⟩
    show frames tasks + 1 + Program.nesting nodes ≤ 1 + limit * (running tasks + 1)
    omega

/-- A body that is recorded stood in a block. -/
theorem Fits.nesting_lt {limit : Nat} {node : Node} {rest : List Node}
    (h : Fits limit tasks (node :: rest)) (hne : node.body?.getD [] ≠ []) :
    Program.nesting (node.body?.getD []) < limit := by
  obtain ⟨-, hnesting, -⟩ := h (List.cons_ne_nil node rest)
  cases node with
  | simple s => exact absurd rfl hne
  | block s body =>
    rw [Program.nesting_block] at hnesting
    show Program.nesting body < limit
    omega

/-- The own work of a handler closes no frame and ends no call, and records nothing but the body of its
statement. -/
theorem within_prepare {node : Node} {rest : List Node} {handler : Handler} {action : Action}
    (h : Within setup.settings tasks env)
    (hnodes : Fits setup.settings.maxDepth tasks (node :: rest))
    (hfind : setup.registry.find? node.statement.command = some handler)
    (hran : Command.prepare setup (node.invocation value) handler (env.announce node.statement) =
      (.ok action, left)) : Within setup.settings tasks left := by
  have hframe := (hnodes (List.cons_ne_nil node rest)).1
  have hwork := Command.prepare_ended setup (node.invocation value) handler
    (env.announce node.statement)
  have hleft : (env.announce node.statement).Extends 0
      (Command.prepare setup (node.invocation value) handler (env.announce node.statement)).2 :=
    extends_of_agrees (fun L => L.prepare hfind) _
  have hdepth : env.frames.length = frames tasks := h.depth
  obtain ⟨mark, below, hframes⟩ : ∃ mark below, env.frames = mark :: below :=
    List.exists_cons_of_length_pos (by omega)
  have hmark : ∃ mark', (Command.prepare setup (node.invocation value) handler
      (env.announce node.statement)).2.frames = mark' :: below :=
    exists_mark_of_agrees (fun L => L.prepare hfind) hframes
  rw [hran] at hwork hleft hmark
  obtain ⟨mark', hmark⟩ := hmark
  have hcallDepth : left.callDepth = env.callDepth := hleft.callDepth.trans (Int.add_zero _)
  refine ⟨?_, hcallDepth.trans h.callDepth, h.running_le, ?_, h.tasks⟩
  · rw [hframes] at hdepth
    rw [Environment.depth, hmark]
    exact hdepth
  · intro name body hbody hne
    rcases hwork.functions with heq | ⟨defined, heq⟩
    · rw [heq] at hbody
      exact h.functions name body hbody hne
    · rw [heq, Table.find?_insert] at hbody
      split at hbody
      · cases hbody
        exact hnodes.nesting_lt hne
      · exact h.functions name body hbody hne

/-- A handler keeps a machine within the limits. -/
theorem bounded_invoke {node : Node} {rest : List Node} {handler : Handler}
    (h : Within setup.settings tasks env)
    (hnodes : Fits setup.settings.maxDepth tasks (node :: rest))
    (hfind : setup.registry.find? node.statement.command = some handler)
    (hnext : (invoke setup node value handler (.conclude node :: .sequence rest :: tasks) env).Unfailed) :
    (invoke setup node value handler (.conclude node :: .sequence rest :: tasks) env).Bounded
      setup.settings := by
  obtain ⟨hframe, -, hsum⟩ := hnodes (List.cons_ne_nil node rest)
  have hwork := Command.prepare_ended setup (node.invocation value) handler
    (env.announce node.statement)
  have hguard := Command.always_prepare setup (node.invocation value) handler
    (env.announce node.statement)
  rw [invoke] at hnext ⊢
  rcases hran : Command.prepare setup (node.invocation value) handler
    (env.announce node.statement) with ⟨fault | action, left⟩
  · rw [hran] at hnext
    exact absurd rfl (hnext fault)
  · have hkept := within_prepare h hnodes hfind hran
    rw [hran] at hwork hguard
    have hrest : TaskFits setup.settings.maxDepth tasks (.sequence rest) := hnodes.rest
    have habove : Within setup.settings (.conclude node :: .sequence rest :: tasks) left :=
      (hkept.push rfl rfl hrest).push rfl rfl trivial
    refine bounded_perform habove hnodes.inside (?_ : frames tasks ≤ _) fun nodes value hcall => ?_
    · show frames tasks ≤ 1 + setup.settings.maxDepth * (running tasks + 1)
      omega
    · obtain ⟨name, hrecorded⟩ := hwork.called nodes value hcall
      exact ⟨hguard nodes value hcall, h.functions name nodes hrecorded⟩

/-- A task that goes on keeps a machine within the limits. -/
theorem bounded_resume (h : Within setup.settings (task :: tasks) env) :
    (resume setup (.ok value) tasks env task).Bounded setup.settings := by
  obtain ⟨htask, htasks⟩ := h.tasks
  cases task with
  | sequence rest =>
    refine ⟨h.pop rfl rfl, ?_⟩
    intro nodes' value' hcontrol
    cases hcontrol
    exact htask
  | conclude node =>
    obtain ⟨frames', journal, hconcluded⟩ := env.exists_conclude_eq setup node (.ok value)
    refine bounded_returning ((h.pop rfl rfl).of_eq (env.depth_conclude setup node (.ok value)) ?_ ?_) _
    · rw [hconcluded]
    · rw [hconcluded]
  | closeFrame =>
    have hdepth : env.frames.length = frames tasks + 1 := h.depth
    have hclosed : env.frames.tail.length = frames tasks := by
      rw [List.length_tail, hdepth]
      rfl
    have hbelow : Within setup.settings tasks env.popFrame :=
      ⟨hclosed, h.callDepth, h.running_le, h.functions, htasks⟩
    exact bounded_returning hbelow _
  | endCall =>
    have hcallDepth : env.callDepth = ((running tasks + 1 : Nat) : Int) := h.callDepth
    have hrunning : running tasks + 1 ≤ setup.settings.maxCallDepth := h.running_le
    have hended : env.callDepth - 1 = running tasks := by omega
    have hbelow : Within setup.settings tasks { env with callDepth := env.callDepth - 1 } :=
      ⟨h.depth, hended, by omega, h.functions, htasks⟩
    exact bounded_returning hbelow _
  | element body address index =>
    have hbelow : Within setup.settings tasks
        { env with store := env.store.write address index value } :=
      (h.pop rfl rfl).of_eq rfl rfl rfl
    exact bounded_nextElement hbelow htask address (index + 1)
  | again body => exact bounded_enter (h.pop rfl rfl) htask

/-- **A step keeps a machine within the limits**, unless it meets a fault. -/
theorem bounded_step {m next : Machine} (h : m.Bounded setup.settings)
    (hstep : m.step? setup = some next) (hm : m.Unfailed) (hnext : next.Unfailed) :
    next.Bounded setup.settings := by
  obtain ⟨control, tasks, env⟩ := m
  obtain ⟨hwithin, hcontrol⟩ := h
  cases control with
  | run nodes value =>
    cases nodes with
    | nil =>
      cases hstep
      exact bounded_returning hwithin (.ok value)
    | cons node rest =>
      rw [step?] at hstep
      dsimp only at hstep
      cases hfind : setup.registry.find? node.statement.command with
      | none =>
        rw [hfind] at hstep
        cases hstep
        exact bounded_returning hwithin _
      | some handler =>
        rw [hfind] at hstep
        cases hstep
        exact bounded_invoke hwithin (hcontrol _ _ rfl) hfind hnext
  | result result =>
    cases tasks with
    | nil => cases hstep
    | cons task tasks =>
      cases hstep
      cases result with
      | error fault => exact absurd rfl (hm fault)
      | ok value => exact bounded_resume hwithin

/-- Some steps keep a machine within the limits. -/
theorem bounded_takes {m last : Machine} {calls : Nat} (h : m.Bounded setup.settings)
    (htakes : Takes setup calls m last) (hlast : last.Unfailed) : last.Bounded setup.settings := by
  induction htakes with
  | refl => exact h
  | @step m next last calls hstep htakes ih =>
    -- A fault on the way is a fault at the end.
    have hm : m.Unfailed := fun fault hfault =>
      hlast fault (eq_error_of_takes (.step hstep htakes) hfault)
    have hnext : next.Unfailed := fun fault hfault =>
      hlast fault (eq_error_of_takes htakes hfault)
    exact ih (bounded_step h hstep hm hnext) hlast

/-! ### What a handler finds -/

/-- A machine that starts with a program keeps within the limits. -/
theorem bounded_start {nodes : List Node} (hnodes : Program.nesting nodes ≤ settings.maxDepth)
    (hdepth : env.depth = 0) (hcallDepth : env.callDepth = 0)
    (hfunctions : env.functions = {}) : (start nodes value env).Bounded settings := by
  have hwithin : Within settings [] env :=
    ⟨hdepth, hcallDepth, Nat.zero_le _, hfunctions ▸ nofun, trivial⟩
  refine bounded_enter hwithin ?_
  intro nodes' hbody _
  cases hbody
  refine ⟨Nat.le_refl 1, hnodes, ?_⟩
  show 1 + Program.nesting nodes ≤ 1 + settings.maxDepth * (0 + 1)
  omega

/-- **Where a handler is called, the limits are kept.** -/
theorem Bounded.of_callsHandler {m : Machine} (h : m.Bounded settings)
    (hcalls : m.callsHandler setup = true) :
    m.env.callDepth = running m.tasks ∧ running m.tasks ≤ settings.maxCallDepth ∧
      1 ≤ m.env.depth ∧ m.env.depth ≤ 1 + settings.maxDepth * (running m.tasks + 1) := by
  obtain ⟨control, tasks, env⟩ := m
  obtain ⟨⟨hdepth, hcallDepth, hrunning, -, -⟩, hcontrol⟩ := h
  dsimp only at *
  cases control with
  | result result => cases hcalls
  | run nodes value =>
    cases nodes with
    | nil => cases hcalls
    | cons node rest =>
      obtain ⟨hframe, -, hsum⟩ := hcontrol _ _ rfl (List.cons_ne_nil node rest)
      rw [hdepth]
      exact ⟨hcallDepth, hrunning, hframe, by omega⟩

/-- A call of a recorded body is refused when as many calls are running as the settings allow, and else
the body is run. -/
theorem step?_call {node : Node} {rest : List Node} {line : Int} {name : String} {nodes : List Node}
    (hfind : setup.registry.find? "call" = some (.standard .call))
    (hnode : node.statement = ⟨line, "call", [.operand ⟨.variable, name⟩]⟩)
    (hrecorded : env.functions.find? name = some nodes) :
    ∃ next, step? setup ⟨.run (node :: rest) value, tasks, env⟩ = some next ∧
      next.control =
        if (setup.settings.maxCallDepth : Int) ≤ env.callDepth then
          .result (.error (.script (.callsTooDeep setup.settings.maxCallDepth) (.ofLine line)))
        else .run nodes value := by
  have hprepare : Command.prepare setup (node.invocation value) (.standard .call)
      (env.announce node.statement) =
      Command.chooseCall setup line name value (env.announce node.statement) := by
    rw [Node.invocation, hnode]
    rfl
  have hchoose : Command.chooseCall setup line name value (env.announce node.statement) =
      if (setup.settings.maxCallDepth : Int) ≤ env.callDepth then
        (.error (.script (.callsTooDeep setup.settings.maxCallDepth) (.ofLine line)),
          env.announce node.statement)
      else (.ok (.call nodes value), env.announce node.statement) := by
    rw [Command.chooseCall, Exec.bind_apply, Exec.get_apply]
    dsimp only
    rw [show (env.announce node.statement).functions = env.functions from rfl, hrecorded]
    dsimp only
    rw [Exec.bind_apply, Exec.get_apply]
    dsimp only
    rw [show (env.announce node.statement).callDepth = env.callDepth from rfl]
    split <;> rfl
  have hcommand : node.statement.command = "call" := by rw [hnode]
  refine ⟨invoke setup node value (.standard .call) (.conclude node :: .sequence rest :: tasks) env,
    ?_, ?_⟩
  · rw [step?]
    dsimp only
    rw [hcommand, hfind]
  · rw [invoke, hprepare, hchoose]
    by_cases hfull : (setup.settings.maxCallDepth : Int) ≤ env.callDepth
    · rw [if_pos hfull, if_pos hfull]
      rfl
    · rw [if_neg hfull, if_neg hfull]
      rfl

end Machine

end Pipeline
