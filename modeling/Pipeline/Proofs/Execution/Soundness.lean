import Pipeline.Proofs.Execution.Handlers
import Pipeline.Proofs.Execution.Machine

/-!
# Soundness of runs

In every state that a run of the standard commands gets to, the accumulator, the variables and the
elements of the lists are values of the language.  Every fault of a run was raised by a statement that
was about to be executed in such a state, and says so: it is on the line of that statement, apart from
the few faults that are none of the script.

* `Machine.sound_step` : a step of the machine keeps what a run may rely on.
* `Machine.sound_takes` : so does a run, and the faults of a run are raised on the way.
* `Machine.eq_error_of_takes` : a fault that is raised is what the run ends with.
-/

namespace Pipeline

namespace Machine

open Command

/-! ### Sound machines -/

/-- The statements of a body are of a kind. -/
def BodyOf (P : Statement → Prop) (body : Option (List Node)) : Prop :=
  ∀ nodes, body = some nodes → ∀ s ∈ Program.statements nodes, P s

/-- The nodes that a task runs have statements of a kind. -/
def TaskOf (P : Statement → Prop) : Task → Prop
  | .sequence rest => ∀ s ∈ Program.statements rest, P s
  | .element body _ _ | .again body => BodyOf P body
  | .conclude _ | .closeFrame | .endCall => True

/-- The nodes that are to be run have statements of a kind, and the accumulator is a value of the
language. -/
def ControlOf (P : Statement → Prop) : Control → Prop
  | .run nodes value => (∀ s ∈ Program.statements nodes, P s) ∧ value.IsScript
  | .result (.ok value) => value.IsScript
  | .result (.error _) => True

/-- What a run may rely on. -/
structure Sound (P : Statement → Prop) (m : Machine) : Prop where
  control : ControlOf P m.control
  tasks : ∀ task ∈ m.tasks, TaskOf P task
  env : m.env.Sound P

/-- A machine has not met a fault. -/
def Unfailed (m : Machine) : Prop :=
  ∀ fault, m.control ≠ .result (.error fault)

section

variable {P : Statement → Prop} {setup : Setup} {body : Option (List Node)} {value : Value}
  {tasks : List Task} {env : Environment} (hbody : BodyOf P body)
  (htasks : ∀ task ∈ tasks, TaskOf P task) (henv : env.Sound P)

include hbody htasks henv

theorem sound_enter (hvalue : value.IsScript) : (enter body value tasks env).Sound P := by
  cases body with
  | none => exact ⟨hvalue, htasks, henv⟩
  | some nodes =>
    exact ⟨⟨hbody nodes rfl, hvalue⟩, List.forall_mem_cons.2 ⟨trivial, htasks⟩,
      henv.of_eq rfl rfl rfl⟩

theorem sound_nextElement (address index : Nat) :
    (nextElement body address index tasks env).Sound P := by
  unfold nextElement
  cases helement : (env.store.elements address)[index]? with
  | none => exact ⟨trivial, htasks, henv⟩
  | some element =>
    have hmem := Array.mem_of_getElem? helement
    have hall : ∀ task ∈ .element body address index :: tasks, TaskOf P task :=
      List.forall_mem_cons.2 ⟨hbody, htasks⟩
    exact sound_enter hbody hall henv (henv.elements address element hmem)

theorem sound_perform {action : Action} (haction : action.Sound P) :
    (perform body tasks env action).Sound P := by
  cases action with
  | finish value => exact ⟨haction, htasks, henv⟩
  | enter value => exact sound_enter hbody htasks henv haction
  | twice value =>
    have hall : ∀ task ∈ .again body :: tasks, TaskOf P task :=
      List.forall_mem_cons.2 ⟨hbody, htasks⟩
    exact sound_enter hbody hall henv haction
  | traverse address => exact sound_nextElement hbody htasks henv address 0
  | call nodes value =>
    have hnodes : BodyOf P (some nodes) := fun _ h => Option.some.inj h ▸ haction.1
    have hall : ∀ task ∈ .endCall :: tasks, TaskOf P task :=
      List.forall_mem_cons.2 ⟨trivial, htasks⟩
    exact sound_enter hnodes hall (henv.of_eq rfl rfl rfl) haction.2

end

section

variable {body : Option (List Node)} {value : Value} {tasks : List Task} {env : Environment}

theorem unfailed_enter : (enter body value tasks env).Unfailed := by
  cases body <;> exact fun _ h => nomatch h

theorem unfailed_nextElement {address index : Nat} :
    (nextElement body address index tasks env).Unfailed := by
  unfold nextElement
  split
  · exact fun _ h => nomatch h
  · exact unfailed_enter

theorem unfailed_perform {action : Action} : (perform body tasks env action).Unfailed := by
  cases action with
  | finish value => exact fun _ h => nomatch h
  | traverse address => exact unfailed_nextElement
  | _ => exact unfailed_enter

end

/-! ### Steps -/

/-- Every command is one of the language. -/
def Standard (setup : Setup) : Prop :=
  ∀ name handler, setup.registry.find? name = some handler →
    ∃ command : StandardCommand, name = command.word ∧ handler = .standard command

/-- The arguments of the statements of a kind can be written. -/
def WritableArgs (P : Statement → Prop) : Prop :=
  ∀ s, P s → ∀ arg ∈ s.args, arg.Writable

section Steps

variable {P : Statement → Prop} {setup : Setup} (hP : WritableArgs P) (hstandard : Standard setup)

include hP hstandard

theorem completes_prepare {node : Node} {rest : List Node} {value : Value} {tasks : List Task}
    {env : Environment} {handler : Handler} (h : Sound P ⟨.run (node :: rest) value, tasks, env⟩)
    (hfind : setup.registry.find? node.statement.command = some handler) :
    Completes P setup node.statement value (env.announce node.statement)
      (fun action _ => action.Sound P)
      (prepare setup (node.invocation value) handler (env.announce node.statement)) := by
  obtain ⟨command, hcommand, rfl⟩ := hstandard _ _ hfind
  obtain ⟨⟨hnodes, hvalue⟩, -, henv⟩ := h
  have hnode : ∀ s ∈ node.statements, P s := fun s hs =>
    hnodes s (Program.mem_statements_cons.2 (.inl hs))
  have hready : Ready P node.statement value node.body? (env.announce node.statement) := {
    args := hP _ (hnode _ node.statement_mem)
    value := hvalue
    env := henv.of_eq rfl rfl rfl
    body := fun nodes hbody s hs => hnode s (node.statements_body hbody s hs) }
  exact hready.prepare hcommand

/-- A command that is run keeps a machine sound, and a fault that it meets was raised by its
statement. -/
theorem sound_run {node : Node} {rest : List Node} {value : Value} {tasks : List Task}
    {env : Environment} {next : Machine} (h : Sound P ⟨.run (node :: rest) value, tasks, env⟩)
    (hstep : step? setup ⟨.run (node :: rest) value, tasks, env⟩ = some next) :
    next.Sound P ∧ ∀ fault, next.control = .result (.error fault) →
      Raised setup node.statement value env fault := by
  obtain ⟨⟨hnodes, -⟩, htasks, henv⟩ := id h
  rw [step?] at hstep
  dsimp only at hstep
  cases hfind : setup.registry.find? node.statement.command with
  | none =>
    rw [hfind] at hstep
    cases hstep
    refine ⟨⟨trivial, htasks, henv⟩, fun fault hfault => ?_⟩
    cases hfault
    exact .onLine (Fault.onLine_ofLine _ _)
  | some handler =>
    rw [hfind] at hstep
    have hcompletes := completes_prepare hP hstandard h hfind
    cases hstep
    have hall : ∀ task ∈ .conclude node :: .sequence rest :: tasks, TaskOf P task :=
      List.forall_mem_cons.2 ⟨trivial, List.forall_mem_cons.2
        ⟨fun s hs => hnodes s (Program.mem_statements_cons.2 (.inr hs)), htasks⟩⟩
    have hbody : BodyOf P node.body? := fun nodes hnode s hs =>
      hnodes s (Program.mem_statements_cons.2 (.inl (node.statements_body hnode s hs)))
    rw [invoke]
    rcases hran : prepare setup (node.invocation value) handler (env.announce node.statement) with
      ⟨fault | action, left⟩
    · rw [hran] at hcompletes
      obtain ⟨hraised, hleft⟩ := hcompletes
      refine ⟨⟨trivial, hall, hleft⟩, fun fault' hfault => ?_⟩
      cases hfault
      exact hraised.of_announce
    · rw [hran] at hcompletes
      obtain ⟨haction, hleft⟩ := hcompletes
      exact ⟨sound_perform hbody hall hleft haction, fun fault hfault =>
        (unfailed_perform fault hfault).elim⟩

omit hP hstandard in
/-- A task that goes on keeps a machine sound, and passes a fault on unchanged. -/
theorem sound_resume {result : Except Fault Value} {task : Task} {tasks : List Task}
    {env : Environment} (h : Sound P ⟨.result result, task :: tasks, env⟩) :
    (resume setup result tasks env task).Sound P ∧
      ∀ fault, (resume setup result tasks env task).control = .result (.error fault) →
        result = .error fault := by
  obtain ⟨hresult, hall, henv⟩ := h
  obtain ⟨htask, htasks⟩ := List.forall_mem_cons.1 hall
  cases task with
  | sequence rest =>
    cases result with
    | ok value => exact ⟨⟨⟨htask, hresult⟩, htasks, henv⟩, fun _ h => nomatch h⟩
    | error fault => exact ⟨⟨trivial, htasks, henv⟩, fun _ h => Control.result.inj h⟩
  | conclude node =>
    exact ⟨⟨hresult, htasks, henv.conclude setup node result⟩, fun _ h => Control.result.inj h⟩
  | closeFrame =>
    exact ⟨⟨hresult, htasks, henv.of_eq rfl rfl rfl⟩,
      fun _ h => Control.result.inj h⟩
  | endCall =>
    exact ⟨⟨hresult, htasks, henv.of_eq rfl rfl rfl⟩,
      fun _ h => Control.result.inj h⟩
  | element body address index =>
    cases result with
    | ok value =>
      exact ⟨sound_nextElement htask htasks (henv.write address index hresult) address (index + 1),
        fun fault h => (unfailed_nextElement fault h).elim⟩
    | error fault => exact ⟨⟨trivial, htasks, henv⟩, fun _ h => Control.result.inj h⟩
  | again body =>
    cases result with
    | ok value => exact ⟨sound_enter htask htasks henv hresult, fun fault h =>
        (unfailed_enter fault h).elim⟩
    | error fault => exact ⟨⟨trivial, htasks, henv⟩, fun _ h => Control.result.inj h⟩

omit hP hstandard in
/-- A machine is about to execute a statement of a kind, and a fault says of this statement what
`Raised` says. -/
def Blames (P : Statement → Prop) (setup : Setup) (m : Machine) (fault : Fault) : Prop :=
  ∃ node rest value, m.control = .run (node :: rest) value ∧ P node.statement ∧
    Raised setup node.statement value m.env fault

/-- **A step keeps a machine sound.**  A fault that is there afterwards was there before, or was
raised by the statement that was about to be executed. -/
theorem sound_step {m next : Machine} (h : m.Sound P) (hstep : m.step? setup = some next) :
    next.Sound P ∧ ∀ fault, next.control = .result (.error fault) →
      m.control = .result (.error fault) ∨ m.Blames P setup fault := by
  obtain ⟨control, tasks, env⟩ := m
  cases control with
  | run nodes value =>
    cases nodes with
    | nil =>
      cases hstep
      exact ⟨⟨h.control.2, h.tasks, h.env⟩, fun _ h => nomatch h⟩
    | cons node rest =>
      obtain ⟨hnext, hraised⟩ := sound_run hP hstandard h hstep
      have hnode := h.control.1 _ (Program.mem_statements_cons.2 (.inl node.statement_mem))
      exact ⟨hnext, fun fault hfault => .inr ⟨node, rest, value, rfl, hnode, hraised fault hfault⟩⟩
  | result result =>
    cases tasks with
    | nil => cases hstep
    | cons task tasks =>
      cases hstep
      obtain ⟨hnext, hpassed⟩ := sound_resume h
      exact ⟨hnext, fun fault hfault => .inl (congrArg Control.result (hpassed fault hfault))⟩

omit hP hstandard in
/-- A machine that is about to execute a statement has not met a fault. -/
theorem Blames.unfailed {m : Machine} {fault : Fault} (h : m.Blames P setup fault) : m.Unfailed := by
  obtain ⟨node, rest, value, hcontrol, -⟩ := h
  intro fault hfault
  cases hcontrol.symm.trans hfault

/-- Some steps keep a machine sound, and a fault that is there afterwards was there before, or was
raised on the way: one of the steps gave it, and it is about the statement that this step executed. -/
theorem sound_takes {m last : Machine} {calls : Nat} (h : m.Sound P)
    (htakes : Takes setup calls m last) :
    last.Sound P ∧ ∀ fault, last.control = .result (.error fault) →
      m.control = .result (.error fault) ∨
        ∃ part raising next, Takes setup part m raising ∧ raising.step? setup = some next ∧
          next.control = .result (.error fault) ∧ raising.Blames P setup fault := by
  induction htakes with
  | refl => exact ⟨h, fun fault hfault => .inl hfault⟩
  | @step m next last calls hstep htakes ih =>
    obtain ⟨hnext, hraised⟩ := sound_step hP hstandard h hstep
    obtain ⟨hlast, hfaults⟩ := ih hnext
    refine ⟨hlast, fun fault hfault => ?_⟩
    rcases hfaults fault hfault with hthere | ⟨part, raising, after, hpart, hraise⟩
    · -- The fault is there after the first step: it was there before, or this is the step that gave it.
      rcases hraised fault hthere with hbefore | hblames
      · exact .inl hbefore
      · exact .inr ⟨0, m, next, .refl m, hstep, hthere, hblames⟩
    · exact .inr ⟨_, raising, after, .step hstep hpart, hraise⟩

end Steps

/-- A machine that has met a fault ends with it. -/
theorem eq_error_of_takes {setup : Setup} {m last : Machine} {calls : Nat} {fault : Fault}
    (htakes : Takes setup calls m last) (hm : m.control = .result (.error fault)) :
    last.control = .result (.error fault) := by
  induction htakes with
  | refl => exact hm
  | @step m next last calls hstep _ ih =>
    refine ih ?_
    obtain ⟨control, tasks, env⟩ := m
    cases hm
    cases tasks with
    | nil => cases hstep
    | cons task tasks =>
      cases hstep
      cases task <;> rfl

end Machine

end Pipeline
