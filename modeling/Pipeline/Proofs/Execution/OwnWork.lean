import Pipeline.Proofs.Execution.Branches
import Pipeline.Proofs.Value.Reach

/-!
# The own work of handlers

The own work of a handler ends with an action or with a fault.  It records at most one body, that of its
command, and asks for the call of a recorded body only.  Faults of the grammar are those of continuations
without a mark; no other work of a handler has any.

* `Command.Look.category?_of_see` : nothing that a command looks at gives a fault of the grammar.
* `Command.prepare_ended` : the own work of all handlers.
-/

namespace Pipeline

/-! ### Branches at an environment -/

namespace Command

/-- What a branch that looks at its condition asks for. -/
def chooseTest (setup : Setup) (line : Int) (condition : Expr) (value : Value) : Exec Action := do
  let taken ← truth (← evalArg setup line 0 condition)
  chooseBranch taken value

variable {setup : Setup} (env : Environment)

theorem chooseBranch_apply (taken : Bool) (value : Value) :
    chooseBranch taken value env =
      (.ok (if taken then .enter value else .finish value), env.setChain (some taken)) := by
  cases taken <;> rfl

theorem chooseNext_apply (command : String) (line : Int) (value : Value) (branch : Exec Action) :
    chooseNext command line value branch env =
      match env.chain with
      | none => (.error (.script (.misplacedContinuation command) (.ofLine line)), env)
      | some true => (.ok (.finish value), env)
      | some false => branch env := by
  rw [chooseNext, Exec.bind_apply, Exec.get_apply]
  dsimp only
  rcases env.chain with _ | _ | _ <;> rfl

end Command

/-! ### Faults of the handlers -/

theorem Expr.category?_of_eval {strict : Bool} {bindings : Table Value} {arg : Expr} {fault : Fault}
    (h : arg.eval strict bindings = .error fault) : fault.category? ≠ some .grammar := by
  have number {symbol : String} {x : Value} {fault : Fault}
      (h : operandNumber symbol x = .error fault) : fault.category? ≠ some .grammar := by
    cases x <;> cases h <;> exact nofun
  induction arg generalizing fault with
  | operand o =>
    obtain ⟨_ | _ | _, text⟩ := o <;> rw [eval] at h
    · split at h
      · cases h
      · split at h <;> cases h
        exact nofun
    · split at h <;> cases h
      exact nofun
    · cases h
  | binary symbol left right ihleft ihright =>
    rw [eval] at h
    rcases eq_error_or_of_bind h with h | ⟨x, -, h⟩
    · exact ihleft h
    rcases eq_error_or_of_bind h with h | ⟨y, -, h⟩
    · exact ihright h
    rcases eq_error_or_of_bind h with h | ⟨a, -, h⟩
    · exact number h
    rcases eq_error_or_of_bind h with h | ⟨b, -, h⟩
    · exact number h
    split at h
    · cases h
      exact nofun
    · split at h <;> cases h
      exact nofun

theorem category?_of_locating {α : Type} {place : Place} {x : Except Fault α}
    (hx : ∀ fault, x = .error fault → fault.category? ≠ some .grammar) {fault : Fault}
    (h : locating place x = .error fault) : fault.category? ≠ some .grammar := by
  obtain ⟨inner, hinner, rfl⟩ := exists_of_locating_eq_error h
  have hcategory := hx inner hinner
  cases inner <;> exact hcategory

namespace Exec

theorem Ended.imp {α : Type} {Q Q' : α → Environment → Prop} {E E' : Fault → Environment → Prop}
    {ran : Except Fault α × Environment} (h : Ended Q E ran) (hQ : ∀ a env, Q a env → Q' a env)
    (hE : ∀ fault env, E fault env → E' fault env) : Ended Q' E' ran := by
  obtain ⟨fault | a, left⟩ := ran
  · exact hE fault left h
  · exact hQ a left h

theorem Ended.of_error {α : Type} {Q : α → Environment → Prop} {E : Fault → Environment → Prop}
    {ran : Except Fault α × Environment} (h : Ended Q E ran) {fault : Fault}
    (hfault : ran.1 = .error fault) : E fault ran.2 := by
  obtain ⟨result, left⟩ := ran
  obtain rfl : result = .error fault := hfault
  exact h

end Exec

namespace Command

open Exec

variable (setup : Setup)

/-! ### Looks -/

theorem Look.category?_of_see {α : Type} {l : Look α} {line : Int} {bindings : Table Value}
    {store : Store} {fault : Fault} (h : l.see setup line bindings store = .error fault) :
    fault.category? ≠ some .grammar := by
  have heval {arg : Expr} : ∀ fault, arg.eval setup.settings.strictVariables bindings = .error fault →
      fault.category? ≠ some .grammar := fun _ => Expr.category?_of_eval
  have hother {fault : Fault} (h : fault.isScript = false) : fault.category? ≠ some .grammar :=
    fun hcategory => by cases h.symm.trans (Fault.isScript_of_category? hcategory)
  cases l with
  | value number arg => exact category?_of_locating heval h
  | string number arg =>
    rcases eq_error_or_of_bind h with h | ⟨x, -, h⟩
    · exact category?_of_locating heval h
    · cases x <;> cases h <;> exact nofun
  | name arg =>
    refine category?_of_locating (fun fault h => ?_) h
    unfold Expr.variableName at h
    split at h <;> cases h
    exact nofun
  | truth x =>
    cases x <;> cases h
    exact nofun
  | text x => exact hother (Store.isScript_of_render h)
  | texts address =>
    obtain ⟨x, -, h⟩ := exists_of_mapM_eq_error h
    exact hother (Store.isScript_of_render h)
  | same x y =>
    rw [(Store.endless_of_same h).1]
    exact nofun

/-- What follows a look goes on in the environment in which it was made. -/
theorem ended_look {α β : Type} {Q : β → Environment → Prop} {E : Fault → Environment → Prop}
    {l : Look α} {line : Int} {f : α → Exec β} {env : Environment}
    (hE : ∀ fault, fault.category? ≠ some .grammar → E fault env)
    (hf : ∀ a, Ended Q E (f a env)) : Ended Q E ((l.run setup line >>= f) env) := by
  refine .bind ?_
  rw [l.run_apply]
  cases hsee : l.see setup line env.bindings env.store with
  | error fault => exact hE fault (l.category?_of_see setup hsee)
  | ok a => exact hf a

/-- A branch that looks at its condition marks the chain, or has a fault that is not of the grammar. -/
theorem ended_chooseTest (line : Int) (condition : Expr) (value : Value) (env : Environment) :
    Ended (fun action left => ∃ taken, left = env.setChain (some taken) ∧
        action = if taken then .enter value else .finish value)
      (fun fault _ => fault.category? ≠ some .grammar)
      (chooseTest setup line condition value env) := by
  rw [chooseTest, evalArg_eq_look]
  refine ended_look setup (fun _ h => h) fun tested => ?_
  rw [truth_eq_look setup line]
  refine ended_look setup (fun _ h => h) fun taken => ?_
  rw [chooseBranch_apply]
  exact ⟨taken, rfl, rfl⟩

/-! ### Endings -/

/-- What the own work of a handler has come to: the recorded bodies are those that were there, or the
body of the command besides, and a body that is to be called is one of them. -/
structure Worked (i : Invocation) (env : Environment) (action : Action) (left : Environment) :
    Prop where
  functions : left.functions = env.functions ∨
    ∃ name, left.functions = env.functions.insert name (i.body.getD [])
  called : ∀ body value, action = .call body value → ∃ name, env.functions.find? name = some body

/-- How the own work of a handler ends: it has a fault of the grammar only if it is to continue a chain
and there is no mark. -/
abbrev WorkEnds (i : Invocation) (handler : Handler) (env : Environment) :
    Except Fault Action × Environment → Prop :=
  Ended (Worked i env) fun fault _ =>
    fault.category? = some .grammar → env.chain = none ∧ Continues handler

section

variable {i : Invocation} {handler : Handler} {env : Environment}

theorem worked_setChain (state : Option Bool) (taken : Bool) (value : Value) :
    Worked i env (if taken then .enter value else .finish value) (env.setChain state) := by
  refine ⟨.inl ?_, fun body value h => ?_⟩
  · obtain ⟨frames, hframes⟩ := env.exists_setChain_eq state
    rw [hframes]
  · cases taken <;> cases h

theorem workEnds_readText (line : Int) (path : String) : WorkEnds i handler env
    ((do return .finish (.string (← readText setup line path)) : Exec Action) env) := by
  unfold readText
  dsimp only
  split
  · exact nofun
  · rw [bind_assoc, bind_apply, modify_apply]
    dsimp only
    split
    · exact nofun
    · split
      · exact nofun
      · exact ⟨.inl rfl, nofun⟩

theorem workEnds_chooseNext (command : String) (line : Int) (value : Value) {branch : Exec Action}
    (hhandler : Continues handler) (hbranch : WorkEnds i handler env (branch env)) :
    WorkEnds i handler env (chooseNext command line value branch env) := by
  rw [chooseNext_apply]
  rcases hchain : env.chain with _ | _ | _
  · exact fun _ => ⟨hchain, hhandler⟩
  · exact hbranch
  · exact ⟨.inl rfl, nofun⟩

theorem workEnds_chooseCall (line : Int) (name : String) (value : Value) :
    WorkEnds i handler env (chooseCall setup line name value env) := by
  rw [chooseCall, bind_apply, get_apply]
  dsimp only
  cases hbody : env.functions.find? name with
  | none => exact nofun
  | some body =>
    dsimp only
    rw [bind_apply, get_apply]
    dsimp only
    split
    · exact nofun
    · refine ⟨.inl rfl, fun body' value' h => ?_⟩
      cases h
      exact ⟨name, hbody⟩

variable {command : StandardCommand}

theorem workEnds_ending (ending : Ending command) :
    WorkEnds i (.standard command) env (ending.run setup i env) := by
  cases ending with
  | wrongArity allowed => exact nofun
  | wrongInput needed =>
    obtain ⟨value, args, line, body⟩ := i
    cases value <;> exact nofun
  | finish value => exact ⟨.inl rfl, nofun⟩
  | bind name value => exact ⟨.inl rfl, nofun⟩
  | define name => exact ⟨.inr ⟨name, rfl⟩, nofun⟩
  | allocate pieces => exact ⟨.inl rfl, nofun⟩
  | print text => exact ⟨.inl rfl, nofun⟩
  | read path => exact workEnds_readText setup i.line path
  | traverse address => exact ⟨.inl rfl, nofun⟩
  | call name => exact workEnds_chooseCall setup i.line name i.value
  | mark h taken =>
    rw [Ending.run, chooseBranch_apply]
    exact worked_setChain _ taken i.value

theorem workEnds_plan (plan : Plan command) :
    WorkEnds i (.standard command) env (plan.run setup i env) := by
  induction plan with
  | done ending => exact workEnds_ending setup ending
  | look l next ih => exact ended_look setup (fun fault h hgrammar => absurd hgrammar h) ih
  | ifOpen h next ih => exact workEnds_chooseNext _ _ _ h ih

end

theorem prepare_ended (i : Invocation) (handler : Handler) (env : Environment) :
    WorkEnds i handler env (prepare setup i handler env) := by
  cases handler with
  | standard command =>
    rw [prepare_eq_plan]
    exact workEnds_plan setup _
  | host handler =>
    by_cases hdepths : handler = .depths
    · subst hdepths
      exact ⟨.inl rfl, nofun⟩
    · obtain ⟨result, hresult, hcall, hgrammar⟩ := prepare_host setup i hdepths
      rw [hresult, lift_apply]
      cases result with
      | error fault => exact fun h => absurd h (hgrammar fault rfl)
      | ok action =>
        refine ⟨.inl rfl, fun body value h => ?_⟩
        exact absurd (congrArg Except.ok h) (hcall body value)

end Command

end Pipeline
