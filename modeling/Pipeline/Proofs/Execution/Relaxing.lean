import Pipeline.Proofs.Execution.Soundness
import Pipeline.Proofs.Settings.Relaxing

/-!
# Runs under relaxed settings

The same nodes are run twice with the standard commands, once under settings that are more relaxed and
with other numbers of lines.  The two runs go through the same states, but for the journal and for the
numbers of lines in the recorded bodies, until the first one meets a fault that the other settings
lift.  From there on the second run goes its own way, but what is printed stays printed.

* `Exec.Tracks` : a computation tracks another one, from environments that are related.
* `Setup.Relaxes.prepare`, `.perform` : the own work of the handlers, and their actions.
* `Setup.Relaxes.execute` : whole executions.  A call is allowed in both runs or the first one fails,
  so the budgets that bound the nesting of calls are not exhausted on either side.
-/

namespace Pipeline

/-! ### Growing output -/

namespace Exec

variable {α β : Type}

/-- What is printed stays printed. -/
def Grows (m : Exec α) : Prop :=
  ∀ env, env.printed.toList <+: (m env).2.printed.toList

theorem grows_bind {m : Exec α} {g : α → Exec β} (hm : Grows m) (hg : ∀ a, Grows (g a)) :
    Grows (m >>= g) := by
  intro env
  have hfirst := hm env
  rw [bind_apply]
  rcases hran : m env with ⟨fault | a, left⟩ <;> rw [hran] at hfirst
  · exact hfirst
  · exact hfirst.trans (hg a left)

/-- A computation that changes what is not printed, or nothing at all. -/
theorem grows_of_printed {m : Exec α} (hm : ∀ env, (m env).2.printed = env.printed) : Grows m :=
  fun env => by rw [hm env]

end Exec

theorem Environment.printed_setChain (env : Environment) (state : Option Bool) :
    (env.setChain state).printed = env.printed := by
  obtain ⟨frames, hframes⟩ := env.exists_setChain_eq state
  rw [hframes]

theorem lockstep_printed (setup : Setup) (printed : List String) :
    Lockstep setup fun _ _ env env' => env = env' ∧ printed <+: env.printed.toList where
  bindings := by rintro n c env env' ⟨rfl, -⟩; rfl
  functions := by rintro n c env env' ⟨rfl, -⟩; rfl
  store := by rintro n c env env' ⟨rfl, -⟩; rfl
  callDepth := by rintro n c env env' ⟨rfl, -⟩; rfl
  chain := by rintro n c env env' ⟨rfl, -⟩; rfl
  depth := by rintro n c env env' name - ⟨rfl, -⟩; rfl
  change := by
    rintro n c env env' x ⟨rfl, hprinted⟩
    cases x with
    | print line =>
      refine ⟨rfl, hprinted.trans ?_⟩
      show env.printed.toList <+: (env.printed.push line).toList
      rw [Array.toList_push]
      exact List.prefix_append _ _
    | _ => exact ⟨rfl, hprinted⟩
  setChain := by
    rintro n c env env' state ⟨rfl, hprinted⟩
    exact ⟨rfl, Environment.printed_setChain env state ▸ hprinted⟩
  pushFrame := by rintro n c env env' ⟨rfl, hprinted⟩; exact ⟨rfl, hprinted⟩
  popFrame := by rintro n c env env' ⟨rfl, hprinted⟩; exact ⟨rfl, hprinted⟩
  startCall := by rintro n c env env' ⟨rfl, hprinted⟩; exact ⟨rfl, hprinted⟩
  endCall := by rintro n c env env' ⟨rfl, hprinted⟩; exact ⟨rfl, hprinted⟩

theorem grows_of_agrees {setup : Setup} {α : Type} {m : Exec α}
    (hm : ∀ {R}, Lockstep setup R → Exec.Agrees (R 1 0) m) : Exec.Grows m :=
  fun env => (hm (lockstep_printed setup env.printed.toList) env env ⟨rfl, ⟨[], List.append_nil _⟩⟩).2.2

theorem grows_perform (setup : Setup) (budget : Nat) (body : Option (List Node)) (action : Action) :
    Exec.Grows (action.perform (callWithin setup budget)
      (runBody setup (callWithin setup budget) body)) :=
  grows_of_agrees fun L => L.perform (fun body value => L.callWithin budget 1 1 body value)
    (fun value => L.runBody budget 1 0 body value) action

/-! ### Related environments -/

/-- An environment in which some calls are running, and one that differs from it in the numbers of
lines in the recorded bodies and in the journal. -/
def Environment.Renumbered (f : Int → Int) (calls : Int) (env env' : Environment) : Prop :=
  env.callDepth = calls ∧ ∃ journal, env' =
    { env with functions := env.functions.map (Program.renumber f), journal := journal }

namespace Environment.Renumbered

variable {f : Int → Int} {calls : Int} {env env' : Environment}

theorem bindings (h : Renumbered f calls env env') : env'.bindings = env.bindings := by
  obtain ⟨-, journal, rfl⟩ := h
  rfl

theorem functions (h : Renumbered f calls env env') :
    env'.functions = env.functions.map (Program.renumber f) := by
  obtain ⟨-, journal, rfl⟩ := h
  rfl

theorem printed (h : Renumbered f calls env env') : env'.printed = env.printed := by
  obtain ⟨-, journal, rfl⟩ := h
  rfl

theorem store (h : Renumbered f calls env env') : env'.store = env.store := by
  obtain ⟨-, journal, rfl⟩ := h
  rfl

theorem chain (h : Renumbered f calls env env') : env'.chain = env.chain := by
  obtain ⟨-, journal, rfl⟩ := h
  rfl

theorem callDepth (h : Renumbered f calls env env') : env'.callDepth = env.callDepth := by
  obtain ⟨-, journal, rfl⟩ := h
  rfl

theorem setChain (h : Renumbered f calls env env') (state : Option Bool) :
    Renumbered f calls (env.setChain state) (env'.setChain state) := by
  obtain ⟨hcalls, journal, rfl⟩ := h
  unfold Environment.setChain
  dsimp only
  split <;> exact ⟨hcalls, journal, rfl⟩

theorem announce (h : Renumbered f calls env env') (s : Statement) :
    Renumbered f calls (env.announce s) (env'.announce (s.renumber f)) := by
  obtain ⟨hcalls, journal, rfl⟩ := h
  exact ⟨hcalls, _, rfl⟩

theorem report (h : Renumbered f calls env env') (setup setup' : Setup) (node node' : Node)
    (result result' : Except Fault Value) :
    Renumbered f calls (env.report setup node result) (env'.report setup' node' result') := by
  obtain ⟨hcalls, journal, rfl⟩ := h
  obtain ⟨left, hleft⟩ := exists_report_eq env setup node result
  obtain ⟨left', hleft'⟩ := exists_report_eq
    { env with functions := env.functions.map (Program.renumber f), journal := journal }
    setup' node' result'
  rw [hleft, hleft']
  exact ⟨hcalls, left', rfl⟩

theorem pass (h : Renumbered f calls env env') (command : String) :
    Renumbered f calls (env.pass command) (env'.pass command) := by
  unfold Environment.pass
  split
  · exact h
  · exact h.setChain none

end Environment.Renumbered

/-! ### Computations that track others -/

namespace Exec

/-- Two computations end in the same way in environments that are related; or the first one has met a
fault which is lifted, and then the other one has printed what the first one had, and maybe more. -/
inductive Ends (s s' : Settings) (f : Int → Int) (calls : Int) {α β : Type} (V : α → β → Prop) :
    Except Fault α × Environment → Except Fault β × Environment → Prop where
  | ok {a : α} {b : β} {env env' : Environment} : V a b → env.Renumbered f calls env' →
      Ends s s' f calls V (.ok a, env) (.ok b, env')
  | fault (fault : Fault) {env env' : Environment} : env.Renumbered f calls env' →
      Ends s s' f calls V (.error fault, env) (.error (fault.renumber f), env')
  | lifted {fault : Fault} {env : Environment} (ran' : Except Fault β × Environment) :
      s.Lifts s' fault → env.printed.toList <+: ran'.2.printed.toList →
      Ends s s' f calls V (.error fault, env) ran'

/-- Started in environments that are related, two computations end so that they are related; and what
is printed in the second one stays printed. -/
structure Tracks (s s' : Settings) (f : Int → Int) (calls : Int) {α β : Type} (V : α → β → Prop)
    (m : Exec α) (m' : Exec β) : Prop where
  ends {env env' : Environment} : env.Renumbered f calls env' →
    Ends s s' f calls V (m env) (m' env')
  grows : Grows m'

section Rules

variable {s s' : Settings} {f : Int → Int} {calls : Int} {α β γ δ : Type} {V : α → β → Prop}
  {W : γ → δ → Prop}

theorem Ends.bind {m : Exec α} {m' : Exec β} {g : α → Exec γ} {g' : β → Exec δ}
    {env env' : Environment} (h : Ends s s' f calls V (m env) (m' env'))
    (hg : ∀ a b left left', m env = (.ok a, left) → V a b → left.Renumbered f calls left' →
      Ends s s' f calls W (g a left) (g' b left'))
    (hgrows : ∀ b, Grows (g' b)) : Ends s s' f calls W ((m >>= g) env) ((m' >>= g') env') := by
  rw [bind_apply, bind_apply]
  generalize hran : m env = ran at h
  generalize m' env' = ran' at h
  cases h with
  | ok hV hleft => exact hg _ _ _ _ hran hV hleft
  | fault fault hleft => exact .fault fault hleft
  | lifted ran' hlifts hprinted =>
    obtain ⟨fault' | b, left'⟩ := ran'
    · exact .lifted _ hlifts hprinted
    · exact .lifted _ hlifts (hprinted.trans (hgrows b left'))

namespace Tracks

theorem pure {a : α} {b : β} (h : V a b) : Tracks s s' f calls V (pure a) (pure b) :=
  ⟨fun henv => .ok h henv, grows_of_printed fun _ => rfl⟩

theorem throw (fault : Fault) : Tracks s s' f calls V (throw fault) (throw (fault.renumber f)) :=
  ⟨fun henv => .fault fault henv, grows_of_printed fun _ => rfl⟩

theorem failAt (line : Int) (cause : Cause) :
    Tracks s s' f calls V (failAt line cause) (failAt (f line) cause) :=
  throw (.script cause (.ofLine line))

theorem bind {m m' : Exec α} {g : α → Exec γ} {g' : α → Exec δ} (hm : Tracks s s' f calls Eq m m')
    (hg : ∀ a, Tracks s s' f calls W (g a) (g' a)) :
    Tracks s s' f calls W (m >>= g) (m' >>= g') where
  ends henv := (hm.ends henv).bind (fun a _ _ _ _ hab hleft => hab ▸ (hg a).ends hleft)
    fun b => (hg b).grows
  grows := grows_bind hm.grows fun a => (hg a).grows

theorem map {m m' : Exec α} {g : α → γ} {g' : α → δ} (hm : Tracks s s' f calls Eq m m')
    (hg : ∀ a, W (g a) (g' a)) : Tracks s s' f calls W (g <$> m) (g' <$> m') := by
  rw [← bind_pure_comp, ← bind_pure_comp]
  exact hm.bind fun a => pure (hg a)

/-- Computations that only look track each other where what they see does. -/
theorem of_looks {m : Exec α} {m' : Exec β} {look : Environment → Except Fault α}
    {look' : Environment → Except Fault β} (hm : ∀ env, m env = (look env, env))
    (hm' : ∀ env, m' env = (look' env, env))
    (hlook : ∀ env env' : Environment, env.Renumbered f calls env' →
      Pipeline.Tracks s s' f V (look env) (look' env')) : Tracks s s' f calls V m m' where
  ends {env env'} henv := by
    have htracks := hlook env env' henv
    rw [hm, hm']
    generalize look env = x at htracks
    generalize look' env' = x' at htracks
    cases htracks with
    | ok hV => exact .ok hV henv
    | fault fault => exact .fault fault henv
    | lifted x' hlifts => exact .lifted _ hlifts (by rw [henv.printed])
  grows := grows_of_printed fun env => by rw [hm']

/-- So do those that go on by what they saw. -/
theorem of_get {g : Environment → Exec α} {g' : Environment → Exec β}
    (hsame : ∀ env env', env.Renumbered f calls env' → g' env' = g' env)
    (hg : ∀ env, Tracks s s' f calls V (g env) (g' env)) :
    Tracks s s' f calls V (get >>= g) (get >>= g') where
  ends {env env'} henv := by
    rw [bind_apply, bind_apply, get_apply, get_apply]
    dsimp only
    rw [hsame env env' henv]
    exact (hg env).ends henv
  grows := grows_bind (grows_of_printed fun _ => rfl) fun env => (hg env).grows

theorem of_modify {change change' : Environment → Environment}
    (h : ∀ env env', env.Renumbered f calls env' → (change env).Renumbered f calls (change' env'))
    (hgrows : ∀ env, env.printed.toList <+: (change' env).printed.toList) :
    Tracks s s' f calls Eq (modify change) (modify change') :=
  ⟨fun henv => .ok rfl (h _ _ henv), hgrows⟩

/-- Both computations run between the same two changes, which print nothing. -/
theorem between {inner : Int} {enter leave : Environment → Environment} {m : Exec α} {m' : Exec β}
    (henter : ∀ env env', env.Renumbered f calls env' → (enter env).Renumbered f inner (enter env'))
    (hleave : ∀ env env', env.Renumbered f inner env' → (leave env).Renumbered f calls (leave env'))
    (hprinted : ∀ env, (enter env).printed = env.printed ∧ (leave env).printed = env.printed)
    (hm : Tracks s s' f inner V m m') :
    Tracks s s' f calls V (between enter leave m) (between enter leave m') where
  ends {env env'} henv := by
    have hends := hm.ends (henter env env' henv)
    unfold Pipeline.between
    generalize m (enter env) = ran at hends
    generalize m' (enter env') = ran' at hends
    cases hends with
    | ok hV hleft => exact .ok hV (hleave _ _ hleft)
    | fault fault hleft => exact .fault fault (hleave _ _ hleft)
    | lifted ran' hlifts hgrown =>
      obtain ⟨result', left'⟩ := ran'
      refine .lifted _ hlifts ?_
      rw [(hprinted _).2, (hprinted _).2]
      exact hgrown
  grows env := by
    have hgrown := hm.grows (enter env)
    rw [(hprinted env).1] at hgrown
    show _ <+: (leave (m' (enter env)).2).printed.toList
    rw [(hprinted _).2]
    exact hgrown

end Tracks

end Rules

end Exec

/-! ### Evaluation -/

/-- What an operator is applied to does not depend on settings. -/
theorem Expr.tracks_eval {s s' : Settings} (h : s.Relaxes s') (bindings : Table Value) (arg : Expr) :
    Tracks s s' id Eq (arg.eval s.strictVariables bindings) (arg.eval s'.strictVariables bindings) := by
  induction arg with
  | operand o =>
    obtain ⟨_ | _ | _, text⟩ := o
    · by_cases hsame : s'.strictVariables = s.strictVariables
      · rw [hsame]
        exact .refl _
      · have hlenient := h.strictVariables.resolve_left hsame
        have hstrict : s.strictVariables = true := by
          rw [hlenient] at hsame
          exact Bool.of_not_eq_false (Ne.symm hsame)
        rw [eval, eval, hstrict]
        cases bindings.find? text with
        | some value => exact .refl _
        | none => exact .lifted _ hsame
    · exact .refl _
    · exact .refl _
  | binary symbol left right ihleft ihright =>
    refine ihleft.bind fun x x' hx => ihright.bind fun y y' hy => ?_
    rw [hx, hy]
    exact .refl _

/-! ### The own work of the handlers -/

/-- What a handler is called with, with other numbers of lines. -/
def Invocation.renumber (f : Int → Int) (i : Invocation) : Invocation :=
  ⟨i.value, i.args, f i.line, i.body.map (Program.renumber f)⟩

theorem Node.invocation_renumber (f : Int → Int) (node : Node) (value : Value) :
    (node.renumber f).invocation value = (node.invocation value).renumber f := by
  cases node <;> rfl

/-- An action with other numbers of lines. -/
def Action.renumber (f : Int → Int) : Action → Action
  | .call body value => .call (Program.renumber f body) value
  | action => action

/-- A run with the standard commands is repeated under relaxed settings. -/
structure Setup.Relaxes (setup setup' : Setup) : Prop where
  settings : setup.settings.Relaxes setup'.settings
  registry : setup'.registry = setup.registry
  files : setup'.files = setup.files
  standard : Machine.Standard setup

namespace Setup.Relaxes

open Exec Command

variable {setup setup' : Setup} (h : setup.Relaxes setup') {f : Int → Int} {calls : Int}

section Work

include h

/-- A look sees the same, or a fault on the renumbered line, or meets a variable that may be undefined
now. -/
theorem see {α : Type} (l : Look α) (line : Int) (bindings : Table Value) (store : Store) :
    Pipeline.Tracks setup.settings setup'.settings f Eq (l.see setup line bindings store)
      (l.see setup' (f line) bindings store) := by
  have heval (number : Nat) (arg : Expr) : Pipeline.Tracks setup.settings setup'.settings f Eq
      (locating (.ofArgument line number) (arg.eval setup.settings.strictVariables bindings))
      (locating (.ofArgument (f line) number) (arg.eval setup'.settings.strictVariables bindings)) :=
    (Expr.tracks_eval h.settings bindings arg).locating (.ofArgument line number)
  cases l with
  | value number arg => exact heval number arg
  | string number arg =>
    refine (heval number arg).bind fun x x' hx => ?_
    subst hx
    cases x with
    | string text => exact .ok rfl
    | foreign shown => exact .fault (.notValue shown)
    | _ => exact .fault (.script .stringNeeded (.ofArgument line number))
  | name arg => exact (Pipeline.Tracks.refl _).locating (.ofArgument line 0)
  | truth x =>
    refine .of_isScript fun fault hfault => ?_
    cases x <;> cases hfault
    rfl
  | text x => exact .of_isScript fun fault => Store.isScript_of_render
  | texts address =>
    refine .of_isScript fun fault hfault => ?_
    obtain ⟨x, -, hx⟩ := exists_of_mapM_eq_error hfault
    exact Store.isScript_of_render hx
  | same x y =>
    refine .of_isScript fun fault hfault => ?_
    rw [(Store.endless_of_same hfault).1]
    rfl

theorem look {α : Type} (l : Look α) (line : Int) :
    Exec.Tracks setup.settings setup'.settings f calls Eq (l.run setup line)
      (l.run setup' (f line)) := by
  refine .of_looks (l.run_apply setup line) (l.run_apply setup' (f line)) fun env env' henv => ?_
  rw [henv.bindings, henv.store]
  exact h.see l line env.bindings env.store

theorem readText (line : Int) (path : String) :
    Exec.Tracks setup.settings setup'.settings f calls Eq (readText setup line path)
      (readText setup' (f line) path) := by
  have unreadable (problem : ReadProblem) : Exec.Tracks setup.settings setup'.settings f calls
      (@Eq String) (throw (.script (.unreadable path problem) (.ofArgument line 0)))
      (throw (.script (.unreadable path problem) (.ofArgument (f line) 0))) :=
    .throw (.script (.unreadable path problem) (.ofArgument line 0))
  have asking : Exec.Tracks setup.settings setup'.settings f calls Eq (modify (·.ask path))
      (modify (·.ask path)) := by
    refine .of_modify (fun env env' henv => ?_) fun _ => ⟨[], List.append_nil _⟩
    obtain ⟨hcalls, journal, rfl⟩ := henv
    exact ⟨hcalls, _, rfl⟩
  unfold Command.readText
  dsimp only
  rw [h.files]
  split
  · exact .throw .nulInPath
  · refine asking.bind fun _ => ?_
    split
    · exact unreadable _
    · split
      · exact unreadable _
      · exact .pure rfl

end Work

section Work

variable {s s' : Settings}

theorem wrongInput {α : Type} (V : α → α → Prop) (command : String) (needed : ValueKind)
    (value : Value) (line : Int) : Exec.Tracks s s' f calls V
      (wrongInput command needed value line) (wrongInput command needed value (f line)) := by
  cases value with
  | foreign shown => exact .throw (.notValue shown)
  | _ => exact .failAt line _

theorem bindVariable (name : String) (value : Value) :
    Exec.Tracks s s' f calls Eq (bindVariable name value) (bindVariable name value) := by
  refine .of_modify (fun env env' henv => ?_) fun _ => ⟨[], List.append_nil _⟩
  obtain ⟨hcalls, journal, rfl⟩ := henv
  exact ⟨hcalls, journal, rfl⟩

theorem define (name : String) (body : List Node) :
    Exec.Tracks s s' f calls Eq
      (modify fun env => { env with functions := env.functions.insert name body })
      (modify fun env =>
        { env with functions := env.functions.insert name (Program.renumber f body) }) := by
  refine .of_modify (fun env env' henv => ?_) fun _ => ⟨[], List.append_nil _⟩
  obtain ⟨hcalls, journal, rfl⟩ := henv
  refine ⟨hcalls, journal, ?_⟩
  dsimp only
  rw [Table.map_insert]

theorem printLine (text : String) :
    Exec.Tracks s s' f calls Eq (printLine text) (printLine text) := by
  refine .of_modify (fun env env' henv => ?_) fun env => ?_
  · obtain ⟨hcalls, journal, rfl⟩ := henv
    exact ⟨hcalls, journal, rfl⟩
  · dsimp only
    rw [Array.toList_push]
    exact List.prefix_append _ _

theorem newList (elements : Array Value) :
    Exec.Tracks s s' f calls Eq (modifyGet (·.newList elements))
      (modifyGet (·.newList elements)) where
  ends {env env'} henv := by
    obtain ⟨hcalls, journal, rfl⟩ := henv
    exact .ok rfl ⟨hcalls, journal, rfl⟩
  grows := grows_of_printed fun _ => rfl

theorem chooseBranch (taken : Bool) (value : Value) :
    Exec.Tracks s s' f calls (fun action action' => action' = action.renumber f)
      (chooseBranch taken value) (chooseBranch taken value) := by
  have hmark : Exec.Tracks s s' f calls Eq (modify (·.setChain (some taken)))
      (modify (·.setChain (some taken))) :=
    .of_modify (fun env env' henv => henv.setChain _)
      fun env => by rw [Environment.printed_setChain]
  exact hmark.bind fun _ => .pure (by cases taken <;> rfl)

theorem chooseNext (command : String) (line : Int) (value : Value) {branch branch' : Exec Action}
    (hbranch : Exec.Tracks s s' f calls (fun action action' => action' = action.renumber f)
      branch branch') :
    Exec.Tracks s s' f calls (fun action action' => action' = action.renumber f)
      (chooseNext command line value branch) (chooseNext command (f line) value branch') := by
  refine .of_get (fun env env' henv => by rw [henv.chain]) fun env => ?_
  rcases env.chain with _ | _ | _
  · exact .failAt line _
  · exact hbranch
  · exact .pure rfl

end Work

section Work

include h

/-- A call that is refused is refused in the other run too, unless more calls are allowed there. -/
theorem chooseCall (line : Int) (name : String) (value : Value) :
    Exec.Tracks setup.settings setup'.settings f calls
      (fun action action' => action' = action.renumber f)
      (chooseCall setup line name value) (chooseCall setup' (f line) name value) where
  ends {env env'} henv := by
    unfold Command.chooseCall
    simp only [bind_apply, get_apply, henv.functions, Table.find?_map]
    cases env.functions.find? name with
    | none => exact .fault _ henv
    | some body =>
      dsimp only [Option.map]
      rw [bind_apply, bind_apply, get_apply, get_apply]
      dsimp only
      rw [henv.callDepth]
      have hlimit := h.settings.maxCallDepth
      by_cases hdeep : (setup.settings.maxCallDepth : Int) ≤ env.callDepth
      · rw [if_pos hdeep]
        by_cases hsame : setup'.settings.maxCallDepth = setup.settings.maxCallDepth
        · rw [hsame, if_pos hdeep]
          exact .fault _ henv
        · refine .lifted _ hsame ?_
          rw [← henv.printed]
          split <;> exact ⟨[], List.append_nil _⟩
      · rw [if_neg hdeep, if_neg (by omega)]
        exact .ok rfl henv
  grows := grows_of_printed fun env => by
    unfold Command.chooseCall
    simp only [bind_apply, get_apply]
    cases env.functions.find? name with
    | none => rfl
    | some body =>
      dsimp only
      rw [bind_apply, get_apply]
      dsimp only
      split <;> rfl

theorem ending {command : StandardCommand} (i : Invocation) (ending : Ending command) :
    Exec.Tracks setup.settings setup'.settings f calls
      (fun action action' => action' = action.renumber f)
      (ending.run setup i) (ending.run setup' (i.renumber f)) := by
  cases ending with
  | wrongArity allowed => exact .failAt i.line _
  | wrongInput needed => exact wrongInput _ _ _ _ i.line
  | finish value => exact .pure rfl
  | bind name value => exact (bindVariable name value).bind fun _ => .pure rfl
  | define name =>
    have hbody : (i.body.map (Program.renumber f)).getD [] = Program.renumber f (i.body.getD []) := by
      cases i.body <;> rfl
    refine Exec.Tracks.bind ?_ fun _ => .pure rfl
    show Exec.Tracks _ _ _ _ _ _ (modify fun env => { env with
      functions := env.functions.insert name ((i.body.map (Program.renumber f)).getD []) })
    rw [hbody]
    exact define name _
  | allocate pieces => exact (newList _).map fun _ => rfl
  | print text => exact (printLine text).bind fun _ => .pure rfl
  | read path => exact (h.readText i.line path).bind fun text => .pure rfl
  | traverse address => exact .pure rfl
  | call name => exact h.chooseCall i.line name i.value
  | mark hbranch taken => exact chooseBranch taken i.value

theorem plan {command : StandardCommand} (i : Invocation) (plan : Plan command) :
    Exec.Tracks setup.settings setup'.settings f calls
      (fun action action' => action' = action.renumber f)
      (plan.run setup i) (plan.run setup' (i.renumber f)) := by
  induction plan with
  | done ending => exact h.ending i ending
  | look l next ih => exact (h.look l i.line).bind ih
  | ifOpen hcontinues next ih => exact chooseNext _ i.line _ ih

/-- The value and the arguments are the same in both runs, and so is the plan of the command. -/
theorem prepare (i : Invocation) (command : StandardCommand) :
    Exec.Tracks setup.settings setup'.settings f calls
      (fun action action' => action' = action.renumber f)
      (Command.prepare setup i (.standard command))
      (Command.prepare setup' (i.renumber f) (.standard command)) := by
  rw [prepare_eq_plan, prepare_eq_plan]
  exact h.plan i (Command.plan i.value i.args command)

end Work

/-! ### Actions and nodes -/

section Bodies

variable {s s' : Settings} {m m' : Exec Value}

theorem inFrame (hm : Exec.Tracks s s' f calls Eq m m') :
    Exec.Tracks s s' f calls Eq (inFrame m) (inFrame m') := by
  refine .between ?_ ?_ (fun _ => ⟨rfl, rfl⟩) hm <;>
  · rintro env env' ⟨hcalls, journal, rfl⟩
    exact ⟨hcalls, journal, rfl⟩

theorem inCall (hm : Exec.Tracks s s' f (calls + 1) Eq m m') :
    Exec.Tracks s s' f calls Eq (inCall m) (inCall m') := by
  refine .between ?_ ?_ (fun _ => ⟨rfl, rfl⟩) hm
  · rintro env env' ⟨hcalls, journal, rfl⟩
    exact ⟨congrArg (· + 1) hcalls, journal, rfl⟩
  · rintro env env' ⟨hcalls, journal, rfl⟩
    refine ⟨?_, journal, rfl⟩
    dsimp only
    omega

theorem replaceElements {run run' : Runner}
    (hrun : ∀ value, Exec.Tracks s s' f calls Eq (run value) (run' value))
    (address index remaining : Nat) :
    Exec.Tracks s s' f calls Eq (replaceElements run address index remaining)
      (replaceElements run' address index remaining) := by
  induction remaining generalizing index with
  | zero => exact .pure rfl
  | succ remaining ih =>
    have writing (result : Value) : Exec.Tracks s s' f calls Eq
        (modify fun env => { env with store := env.store.write address index result })
        (modify fun env => { env with store := env.store.write address index result }) := by
      refine .of_modify (fun env env' henv => ?_) fun _ => ⟨[], List.append_nil _⟩
      obtain ⟨hcalls, journal, rfl⟩ := henv
      exact ⟨hcalls, journal, rfl⟩
    refine .of_get (fun env env' henv => by rw [henv.store]) fun env => ?_
    exact (hrun _).bind fun result => (writing result).bind fun _ => ih (index + 1)

theorem perform {call call' : List Node → Runner} {run run' : Runner} {action : Action}
    (hcall : ∀ body value, action = .call body value →
      Exec.Tracks s s' f (calls + 1) Eq (call body value) (call' (Program.renumber f body) value))
    (hrun : ∀ value, Exec.Tracks s s' f calls Eq (run value) (run' value)) :
    Exec.Tracks s s' f calls Eq (action.perform call run)
      ((action.renumber f).perform call' run') := by
  cases action with
  | finish value => exact .pure rfl
  | enter value => exact hrun value
  | twice value => exact (hrun value).bind hrun
  | traverse address =>
    refine .of_get (fun env env' henv => by rw [henv.store]) fun env => ?_
    exact (replaceElements hrun address 0 _).bind fun _ => .pure rfl
  | call body value => exact inCall (hcall body value rfl)

end Bodies

section Nodes

/-- While so many calls are running, another one is run in the same way on both sides, if the first
side allows it. -/
def CallsTrack (setup setup' : Setup) (f : Int → Int) (calls : Int) (budget budget' : Nat) : Prop :=
  ∀ body value, calls < setup.settings.maxCallDepth →
    Exec.Tracks setup.settings setup'.settings f (calls + 1) Eq
      (Pipeline.callWithin setup budget body value)
      (Pipeline.callWithin setup' budget' (Program.renumber f body) value)

theorem conclude {node : Node} {ran ran' : Except Fault Value × Environment}
    (hran : Ends setup.settings setup'.settings f calls Eq ran ran') :
    Ends setup.settings setup'.settings f calls Eq (ran.1, ran.2.conclude setup node ran.1)
      (ran'.1, ran'.2.conclude setup' (node.renumber f) ran'.1) := by
  cases hran with
  | ok hV hleft =>
    refine .ok hV ?_
    unfold Environment.conclude
    rw [Node.statement_renumber]
    exact (hleft.report _ _ _ _ _ _).pass _
  | fault fault hleft =>
    exact .fault fault (hleft.report setup setup' _ _ (.error _) (.error _))
  | lifted ran' hlifts hgrown =>
    refine .lifted _ hlifts ?_
    obtain ⟨frames, journal, hconcluded⟩ := Environment.exists_conclude_eq _ setup node (.error _)
    obtain ⟨frames', journal', hconcluded'⟩ :=
      ran'.2.exists_conclude_eq setup' (node.renumber f) ran'.1
    rw [hconcluded, hconcluded']
    exact hgrown

variable {budget budget' : Nat}

include h

theorem node (hcalls : CallsTrack setup setup' f calls budget budget') (node : Node)
    (hrun : ∀ value, Exec.Tracks setup.settings setup'.settings f calls Eq
      (Pipeline.runBody setup (Pipeline.callWithin setup budget) node.body? value)
      (Pipeline.runBody setup' (Pipeline.callWithin setup' budget') (node.renumber f).body? value))
    (value : Value) :
    Exec.Tracks setup.settings setup'.settings f calls Eq
      (Pipeline.runNode setup (Pipeline.callWithin setup budget) node value)
      (Pipeline.runNode setup' (Pipeline.callWithin setup' budget') (node.renumber f) value) where
  ends {env env'} henv := by
    rw [runNode_apply, runNode_apply, h.registry, Node.invocation_renumber, Node.statement_renumber,
      Statement.command_renumber]
    cases hfind : setup.registry.find? node.statement.command with
    | none => exact .fault _ henv
    | some handler =>
      obtain ⟨command, -, rfl⟩ := h.standard _ _ hfind
      refine conclude (Ends.bind ((h.prepare (node.invocation value) command).ends
        (henv.announce node.statement)) ?_ fun action => grows_perform setup' budget' _ action)
      rintro action action' left left' hprepared rfl hleft
      -- A call is asked for only while it is allowed.
      have hguarded := always_prepare setup (node.invocation value) (.standard command)
        (env.announce node.statement)
      rw [hprepared] at hguarded
      refine (perform (fun body value haction => hcalls body value ?_) hrun).ends hleft
      exact hleft.1 ▸ hguarded body value haction
  grows := grows_of_agrees fun L => L.runNode (L.callWithin budget') 0 0 _ value

end Nodes

mutual

theorem runNode (h : setup.Relaxes setup') {budget budget' : Nat}
    (hcalls : CallsTrack setup setup' f calls budget budget') :
    ∀ (node : Node) (value : Value), Exec.Tracks setup.settings setup'.settings f calls Eq
      (Pipeline.runNode setup (Pipeline.callWithin setup budget) node value)
      (Pipeline.runNode setup' (Pipeline.callWithin setup' budget') (node.renumber f) value)
  | .simple s, value => h.node hcalls (.simple s) (fun _ => .pure rfl) value
  | .block s body, value =>
    h.node hcalls (.block s body) (fun value => inFrame (runNodes h hcalls body value)) value

theorem runNodes (h : setup.Relaxes setup') {budget budget' : Nat}
    (hcalls : CallsTrack setup setup' f calls budget budget') :
    ∀ (nodes : List Node) (value : Value), Exec.Tracks setup.settings setup'.settings f calls Eq
      (Pipeline.runNodes setup (Pipeline.callWithin setup budget) nodes value)
      (Pipeline.runNodes setup' (Pipeline.callWithin setup' budget') (Program.renumber f nodes) value)
  | [], _ => .pure rfl
  | node :: rest, value =>
    (runNode h hcalls node value).bind fun next => runNodes h hcalls rest next

end

section Executions

include h

/-- The budgets last for as many calls as are allowed. -/
theorem callsTrack (budget : Nat) {budget' : Nat} (hroom : setup.settings.maxCallDepth ≤ calls + budget)
    (hroom' : setup'.settings.maxCallDepth ≤ calls + budget') :
    CallsTrack setup setup' f calls budget budget' := by
  intro body value hallowed
  have hlimit := h.settings.maxCallDepth
  induction budget generalizing calls budget' body value with
  | zero => omega
  | succ budget ih =>
    rcases budget' with _ | budget'
    · omega
    show Exec.Tracks _ _ _ _ _ (runWithin setup budget body value)
      (runWithin setup' budget' (Program.renumber f body) value)
    rw [runWithin_eq, runWithin_eq]
    refine inFrame (runNodes h (fun body value hallowed => ih ?_ ?_ body value hallowed) body value) <;>
      omega

/-- A whole execution tracks that of the same nodes under other settings. -/
theorem execute (nodes : List Node) (value : Value) {env env' : Environment}
    (henv : env.Renumbered f calls env') :
    Ends setup.settings setup'.settings f calls Eq (execute setup nodes value env)
      (execute setup' (Program.renumber f nodes) value env') := by
  unfold Pipeline.execute
  rw [bind_apply, bind_apply, get_apply, get_apply]
  dsimp only
  rw [runWithin_eq, runWithin_eq, henv.callDepth, henv.1]
  refine (inFrame (runNodes h (h.callsTrack _ ?_ ?_) nodes value)).ends henv <;> omega

end Executions

end Setup.Relaxes

end Pipeline
