import Pipeline.Proofs.Execution.Actions
import Pipeline.Proofs.Expr.Evaluation
import Pipeline.Proofs.Program.Members
import Pipeline.Proofs.Value.Elements
import Pipeline.Proofs.Value.Reach

/-!
# The own work of the standard commands

A standard command that is called with values of the language, and with arguments that can be
written, asks for an action with values of the language and leaves only such values behind; or it
raises a fault.  The fault is one of the script, on the line of the statement, and there are four more
that are no faults of the script: a number token that is too long, a number without a text, a path
with a NUL character, and a list that contains itself where one is shown or compared.

* `Raised` : what a fault says about the statement that raised it.
* `Ready.prepare` : the two ends of every standard command.
-/

namespace Pipeline

open Exec Command

/-! ### Sound environments -/

/-- Every variable and every element of every list is a value of the language. -/
structure Environment.ScriptValues (env : Environment) : Prop where
  bindings : Expr.ScriptBindings env.bindings
  elements : ∀ address, ∀ value ∈ env.store.elements address, value.IsScript

/-- An environment holds values of the language, and recorded bodies with statements of a kind. -/
structure Environment.Sound (P : Statement → Prop) (env : Environment) : Prop
    extends env.ScriptValues where
  functions : ∀ name body, env.functions.find? name = some body →
    ∀ s ∈ Program.statements body, P s

/-- An action asks for values of the language, and for a body with statements of a kind. -/
def Action.Sound (P : Statement → Prop) : Action → Prop
  | .finish value | .enter value | .twice value => value.IsScript
  | .traverse _ => True
  | .call body value => (∀ s ∈ Program.statements body, P s) ∧ value.IsScript

namespace Environment.Sound

variable {P : Statement → Prop} {env : Environment} (h : env.Sound P)

include h

/-- Only the variables, the lists and the recorded bodies matter. -/
theorem of_eq {left : Environment} (hbindings : left.bindings = env.bindings)
    (hstore : left.store = env.store) (hfunctions : left.functions = env.functions) :
    left.Sound P :=
  ⟨⟨hbindings ▸ h.bindings, hstore ▸ h.elements⟩, hfunctions ▸ h.functions⟩

theorem setVariable {value : Value} (name : String) (hvalue : value.IsScript) :
    (env.setVariable name value).Sound P := by
  refine ⟨⟨fun other found hfind => ?_, h.elements⟩, h.functions⟩
  rw [Environment.setVariable, Table.find?_insert] at hfind
  split at hfind
  · exact Option.some.inj hfind ▸ hvalue
  · exact h.bindings other found hfind

/-- What a value of the language reaches is one, too. -/
theorem isScript_of_reaches {value reached : Value} (hvalue : value.IsScript)
    (hreaches : env.store.Reaches value reached) : reached.IsScript := by
  induction hreaches with
  | refl => exact hvalue
  | tail _ hholds _ =>
    obtain ⟨address, -, hmem⟩ := hholds
    exact h.elements address _ hmem

theorem define {body : List Node} (name : String) (hbody : ∀ s ∈ Program.statements body, P s) :
    Environment.Sound P { env with functions := env.functions.insert name body } := by
  refine ⟨⟨h.bindings, h.elements⟩, fun other found hfind => ?_⟩
  rw [Table.find?_insert] at hfind
  split at hfind
  · exact Option.some.inj hfind ▸ hbody
  · exact h.functions other found hfind

theorem newList {elements : Array Value} (helements : ∀ value ∈ elements, value.IsScript) :
    (env.newList elements).2.Sound P := by
  refine ⟨⟨h.bindings, fun address value hmem => ?_⟩, h.functions⟩
  rcases Store.mem_of_alloc hmem with hnew | hold
  · exact helements value hnew
  · exact h.elements address value hold

theorem setChain (state : Option Bool) : (env.setChain state).Sound P := by
  unfold Environment.setChain
  split <;> exact h.of_eq rfl rfl rfl

theorem write {value : Value} (address index : Nat) (hvalue : value.IsScript) :
    Environment.Sound P { env with store := env.store.write address index value } := by
  refine ⟨⟨h.bindings, fun other found hmem => ?_⟩, h.functions⟩
  rcases Store.mem_of_write hmem with hold | ⟨-, rfl⟩
  · exact h.elements other found hold
  · exact hvalue

theorem report (setup : Setup) (node : Node) (result : Except Fault Value) :
    (env.report setup node result).Sound P := by
  obtain ⟨journal, hreport⟩ := env.exists_report_eq setup node result
  rw [hreport]
  exact h.of_eq rfl rfl rfl

theorem conclude (setup : Setup) (node : Node) (result : Except Fault Value) :
    (env.conclude setup node result).Sound P := by
  have hreport := h.report setup node result
  cases result with
  | error fault => exact hreport
  | ok value =>
    unfold Environment.conclude Environment.pass
    dsimp only
    split
    · exact hreport
    · exact hreport.setChain none

end Environment.Sound

/-! ### Faults of a statement -/

section

variable (setup : Setup) (s : Statement) (value : Value) (env : Environment)

/-- What an argument stands for. -/
def Setup.valueOf (arg : Expr) : Except Fault Value :=
  arg.eval setup.settings.strictVariables env.bindings

theorem Setup.evalArg_valueOf (line : Int) (number : Nat) (arg : Expr) :
    evalArg setup line number arg env =
      (locating (.ofArgument line number) (setup.valueOf env arg), env) :=
  evalArg_apply env setup line number arg

/-- The values that a statement shows as texts: what it prints, and the elements that it joins. -/
inductive Shows : Value → Prop where
  | value : s.command = "print" → s.args = [] → Shows value
  | arg {arg : Expr} {shown : Value} : s.command = "print" → s.args = [arg] →
      setup.valueOf env arg = .ok shown → Shows shown
  | element {address : Nat} {element : Value} : s.command = "join" → value = .list address →
      element ∈ env.store.elements address → Shows element

/-- What a fault says about the statement that raised it, when it was run from a value in an
environment. -/
inductive Raised : Fault → Prop where
  /-- A fault of the script is on the line of the statement. -/
  | onLine {fault : Fault} : fault.OnLine s.line → Raised fault
  /-- An argument was evaluated that has a number token with too many digits. -/
  | longToken {arg : Expr} : arg ∈ s.args → setup.valueOf env arg = .error (.numeral .tooLong) →
      arg.HasLongNumber → Raised (.numeral .tooLong)
  /-- A number with too many digits was to be shown. -/
  | longText {shown : Value} {n : Int} : Shows setup s value env shown →
      env.store.Reaches shown (.number n) → Numeral.bound ≤ n.natAbs → Raised (.numeral .tooLong)
  /-- The path of a file had a NUL character. -/
  | nulInPath {arg : Expr} {path : String} : s.command = "use" → s.args = [arg] →
      setup.valueOf env arg = .ok (.string path) → hasNul path = true → Raised .nulInPath
  /-- A list that contains itself was to be shown. -/
  | endlessText {shown : Value} : Shows setup s value env shown → env.store.Endless shown →
      Raised .endless
  /-- Lists that contain themselves were to be compared. -/
  | endlessComparison {sought substitute : Expr} {other : Value} : s.command = "replace" →
      s.args = [sought, substitute] → setup.valueOf env sought = .ok other →
      env.store.Endless value → env.store.Endless other → Raised .endless

/-- Announcing a statement changes nothing that a fault is about. -/
theorem Shows.of_announce {setup : Setup} {s : Statement} {value shown : Value} {env : Environment}
    (h : Shows setup s value (env.announce s) shown) : Shows setup s value env shown := by
  cases h with
  | value hcommand hargs => exact .value hcommand hargs
  | arg hcommand hargs hvalue => exact .arg hcommand hargs hvalue
  | element hcommand hvalue hmem => exact .element hcommand hvalue hmem

theorem Raised.of_announce {setup : Setup} {s : Statement} {value : Value} {env : Environment}
    {fault : Fault} (h : Raised setup s value (env.announce s) fault) :
    Raised setup s value env fault := by
  cases h with
  | onLine hline => exact .onLine hline
  | longToken harg hvalue hlong => exact .longToken harg hvalue hlong
  | longText hshows hreaches hn => exact .longText hshows.of_announce hreaches hn
  | nulInPath hcommand hargs hvalue hnul => exact .nulInPath hcommand hargs hvalue hnul
  | endlessText hshows hendless => exact .endlessText hshows.of_announce hendless
  | endlessComparison hcommand hargs hvalue hleft hright =>
    exact .endlessComparison hcommand hargs hvalue hleft hright

end

/-! ### Rules -/

/-- A path with a NUL character is not asked for. -/
theorem readText_of_nul {path : String} (h : hasNul path = true) (setup : Setup) (line : Int)
    (env : Environment) : readText setup line path env = (.error .nulInPath, env) := by
  rw [readText]
  dsimp only
  rw [if_pos h]
  rfl

theorem isScript_of_variableName {arg : Expr} {fault : Fault} (h : arg.variableName = .error fault) :
    fault.isScript = true := by
  unfold Expr.variableName at h
  split at h
  · cases h
  · cases h
    rfl

/-- A statement is ready to run from a value in an environment, with a body or without one. -/
structure Ready (P : Statement → Prop) (s : Statement) (value : Value) (body : Option (List Node))
    (env : Environment) : Prop where
  args : ∀ arg ∈ s.args, arg.Writable
  value : value.IsScript
  env : env.Sound P
  body : ∀ nodes, body = some nodes → ∀ t ∈ Program.statements nodes, P t

/-- A computation of a statement ended as it should: a fault was raised by the statement, and in any
case the environment is sound. -/
def Completes {α : Type} (P : Statement → Prop) (setup : Setup) (s : Statement) (value : Value)
    (env : Environment) (Q : α → Environment → Prop) : Except Fault α × Environment → Prop :=
  Ended (fun a left => Q a left ∧ left.Sound P) fun fault left =>
    Raised setup s value env fault ∧ left.Sound P

namespace Ready

variable {P : Statement → Prop} {setup : Setup} {s : Statement} {value : Value}
  {body : Option (List Node)} {env : Environment} (h : Ready P s value body env)
  {α β : Type} {Q : α → Environment → Prop}

theorem fail {left : Environment} (hleft : left.Sound P) {fault : Fault} (hline : fault.OnLine s.line) :
    Completes P setup s value env Q (.error fault, left) :=
  ⟨.onLine hline, hleft⟩

theorem truth {x : Value} (hx : x.IsScript) {f : Bool → Exec α}
    (hf : ∀ taken, Completes P setup s value env Q (f taken env)) :
    Completes P setup s value env Q ((truth x >>= f) env) := by
  rw [bind_apply, truth_apply]
  cases x with
  | foreign shown => exact hx.elim
  | _ => exact hf _

include h

theorem failAt (cause : Cause) : Completes P setup s value env Q ((failAt s.line cause : Exec α) env) :=
  fail h.env (Fault.onLine_ofLine _ _)

theorem wrongInput (command : String) (needed : ValueKind) :
    Completes P setup s value env Q ((wrongInput command needed value s.line : Exec α) env) := by
  have hvalue := h.value
  cases value with
  | foreign shown => exact hvalue.elim
  | _ => exact fail h.env (Fault.onLine_ofLine _ _)

/-- What follows an evaluation goes on with a value of the language. -/
theorem evalArg {arg : Expr} (harg : arg ∈ s.args) (number : Nat) {f : Value → Exec α}
    (hf : ∀ x, x.IsScript → setup.valueOf env arg = .ok x →
      Completes P setup s value env Q (f x env)) :
    Completes P setup s value env Q ((evalArg setup s.line number arg >>= f) env) := by
  have hsound : arg.Evaluates (setup.valueOf env arg) :=
    Expr.eval_sound (h.args arg harg) h.env.bindings setup.settings.strictVariables
  rw [bind_apply, setup.evalArg_valueOf]
  cases hx : setup.valueOf env arg with
  | ok x =>
    rw [hx] at hsound
    exact hf x hsound hx
  | error fault =>
    rw [hx] at hsound
    refine ⟨?_, h.env⟩
    rcases hsound with hscript | ⟨rfl, hlong⟩
    · exact .onLine (Fault.onLine_locate hscript rfl)
    · exact .longToken harg hx hlong

theorem stringArg {arg : Expr} (harg : arg ∈ s.args) (number : Nat) {f : String → Exec α}
    (hf : ∀ text, setup.valueOf env arg = .ok (.string text) →
      Completes P setup s value env Q (f text env)) :
    Completes P setup s value env Q ((stringArg setup s.line number arg >>= f) env) := by
  rw [Command.stringArg, bind_assoc]
  refine h.evalArg harg number fun x hx hvalue => ?_
  cases x with
  | string text => exact hf text hvalue
  | foreign shown => exact hx.elim
  | _ => exact fail h.env ⟨_, _, rfl⟩

theorem nameArg (arg : Expr) {f : String → Exec α}
    (hf : ∀ name, Completes P setup s value env Q (f name env)) :
    Completes P setup s value env Q ((nameArg s.line arg >>= f) env) := by
  rw [bind_apply, nameArg_apply]
  cases hname : arg.variableName with
  | ok name => exact hf name
  | error fault => exact fail h.env (Fault.onLine_locate (isScript_of_variableName hname) rfl)

theorem textOf {x : Value} (hx : x.IsScript) (hshows : Shows setup s value env x) {f : String → Exec α}
    (hf : ∀ text, Completes P setup s value env Q (f text env)) :
    Completes P setup s value env Q ((textOf x >>= f) env) := by
  rw [bind_apply, textOf_apply]
  cases htext : env.store.render x with
  | ok text => exact hf text
  | error fault =>
    refine ⟨?_, h.env⟩
    cases Store.noText_of_render htext with
    | number hreaches hn => exact .longText hshows hreaches hn
    | foreign hreaches => exact (h.env.isScript_of_reaches hx hreaches).elim
    | endless hendless => exact .endlessText hshows hendless

/-- The texts of several values. -/
theorem mapM_textOf {items : List Value} (hitems : ∀ x ∈ items, x.IsScript ∧ Shows setup s value env x)
    {f : List String → Exec α} (hf : ∀ texts, Completes P setup s value env Q (f texts env)) :
    Completes P setup s value env Q ((items.mapM Command.textOf >>= f) env) := by
  induction items generalizing f with
  | nil =>
    rw [List.mapM_nil, pure_bind]
    exact hf []
  | cons x items ih =>
    obtain ⟨⟨hx, hshows⟩, hrest⟩ := List.forall_mem_cons.1 hitems
    rw [List.mapM_cons, bind_assoc]
    refine h.textOf hx hshows fun text => ?_
    rw [bind_assoc]
    exact ih hrest fun texts => by
      rw [pure_bind]
      exact hf (text :: texts)

/-! ### The standard commands -/

/-- The two ends of the own work of a handler. -/
abbrev Works (P : Statement → Prop) (setup : Setup) (s : Statement) (value : Value)
    (body : Option (List Node)) (env : Environment) (command : StandardCommand) : Prop :=
  Completes P setup s value env (fun action _ => action.Sound P)
    (prepare setup ⟨value, s.args, s.line, body⟩ (.standard command) env)

omit h in
/-- A handler that gives a value asks for nothing more. -/
theorem finish {m : Exec Value} (hm : Completes P setup s value env (fun x _ => x.IsScript) (m env)) :
    Completes P setup s value env (fun action _ => action.Sound P)
      ((.finish <$> m : Exec Action) env) :=
  Ended.map hm

omit h in
theorem readText {path : String} {f : String → Exec α} (hsound : env.Sound P)
    (hnul : hasNul path = true → Raised setup s value env .nulInPath)
    (hf : ∀ text left, left.Sound P → Completes P setup s value env Q (f text left)) :
    Completes P setup s value env Q ((readText setup s.line path >>= f) env) := by
  cases hpath : hasNul path with
  | true =>
    rw [bind_apply, readText_of_nul hpath]
    exact ⟨hnul hpath, hsound⟩
  | false =>
    have hasked : (env.ask path).Sound P := hsound.of_eq rfl rfl rfl
    rw [Command.readText]
    dsimp only
    rw [if_neg (hpath ▸ Bool.false_ne_true), bind_assoc, bind_apply, modify_apply]
    dsimp only
    cases setup.files path with
    | error problem => exact fail hasked ⟨_, _, rfl⟩
    | ok bytes =>
      dsimp only
      cases Text.decodeUtf8 bytes with
      | error offset => exact fail hasked ⟨_, _, rfl⟩
      | ok text => exact hf _ _ hasked

theorem use (hcommand : s.command = "use") : Works P setup s value body env .use := by
  refine finish ?_
  obtain ⟨line, command, args⟩ := s
  rcases args with _ | ⟨arg, _ | _⟩
  · exact h.failAt _
  · refine h.stringArg List.mem_cons_self 0 fun path hpath => ?_
    exact readText h.env (fun hnul => .nulInPath hcommand rfl hpath hnul)
      fun text left hleft => ⟨trivial, hleft⟩
  · exact h.failAt _

theorem set : Works P setup s value body env .set := by
  refine finish ?_
  obtain ⟨line, command, args⟩ := s
  rcases args with _ | ⟨arg, _ | _⟩
  · exact h.failAt _
  · show Completes _ _ _ _ _ _ (Command.evalArg setup line 0 arg env)
    rw [← bind_pure (Command.evalArg setup line 0 arg)]
    exact h.evalArg List.mem_cons_self 0 fun x hx _ => ⟨hx, h.env⟩
  · exact h.failAt _

theorem store : Works P setup s value body env .store := by
  refine finish ?_
  obtain ⟨line, command, args⟩ := s
  rcases args with _ | ⟨name, _ | ⟨arg, _ | _⟩⟩
  · exact h.failAt _
  · exact h.nameArg name fun name => ⟨h.value, h.env.setVariable name h.value⟩
  · refine h.nameArg name fun name => ?_
    exact h.evalArg (List.mem_cons_of_mem _ List.mem_cons_self) 1 fun x hx _ =>
      ⟨h.value, h.env.setVariable name hx⟩
  · exact h.failAt _

theorem split : Works P setup s value body env .split := by
  refine finish ?_
  obtain ⟨line, command, args⟩ := s
  cases value with
  | string text =>
    rcases args with _ | ⟨arg, _ | _⟩
    · exact h.failAt _
    · refine h.stringArg List.mem_cons_self 0 fun separator _ => ?_
      refine ⟨trivial, h.env.newList fun x hx => ?_⟩
      obtain ⟨piece, -, rfl⟩ := List.mem_map.1 (List.mem_toArray.1 hx)
      exact trivial
    · exact h.failAt _
  | _ => exact h.wrongInput "split" .string

theorem joined (hcommand : s.command = "join") {address : Nat} (hvalue : value = .list address)
    (separator : String) : Completes P setup s value env (fun x _ => x.IsScript) ((do
      let texts ← ((← get).store.elements address).toList.mapM Command.textOf
      return .string (separator.intercalate texts) : Exec Value) env) := by
  refine h.mapM_textOf (fun x hx => ?_) fun texts => ⟨trivial, h.env⟩
  have hmem := Array.mem_toList_iff.1 hx
  exact ⟨h.env.elements address x hmem, .element hcommand hvalue hmem⟩

theorem join (hcommand : s.command = "join") : Works P setup s value body env .join := by
  refine finish ?_
  obtain ⟨line, command, args⟩ := s
  cases value with
  | list address =>
    rcases args with _ | ⟨arg, _ | _⟩
    · exact h.joined hcommand rfl ""
    · exact h.stringArg List.mem_cons_self 0 fun separator _ => h.joined hcommand rfl separator
    · exact h.failAt _
  | _ => exact h.wrongInput "join" .list

theorem replace (hcommand : s.command = "replace") : Works P setup s value body env .replace := by
  refine finish ?_
  obtain ⟨line, command, args⟩ := s
  rcases args with _ | ⟨sought, _ | ⟨substitute, _ | _⟩⟩
  · exact h.failAt _
  · exact h.failAt _
  · refine h.evalArg List.mem_cons_self 0 fun x hx hsought => ?_
    refine h.evalArg (List.mem_cons_of_mem _ List.mem_cons_self) 1 fun y hy _ => ?_
    rw [bind_apply, get_apply]
    dsimp only
    rw [bind_apply, lift_apply]
    cases hsame : env.store.same value x with
    | error fault =>
      obtain ⟨rfl, hvalue, hother⟩ := Store.endless_of_same hsame
      exact ⟨.endlessComparison hcommand rfl hsought hvalue hother, h.env⟩
    | ok isSame =>
      cases isSame with
      | true => exact ⟨hy, h.env⟩
      | false => exact ⟨h.value, h.env⟩
  · exact h.failAt _

theorem print (hcommand : s.command = "print") : Works P setup s value body env .print := by
  refine finish ?_
  have hprinted (text : String) : Environment.Sound P { env with printed := env.printed.push text } :=
    h.env.of_eq rfl rfl rfl
  obtain ⟨line, command, args⟩ := s
  rcases args with _ | ⟨arg, _ | _⟩
  · exact h.textOf h.value (.value hcommand rfl) fun text => ⟨h.value, hprinted text⟩
  · refine h.evalArg List.mem_cons_self 0 fun x hx hshown => ?_
    exact h.textOf hx (.arg hcommand rfl hshown) fun text => ⟨h.value, hprinted text⟩
  · exact h.failAt _

theorem function : Works P setup s value body env .function := by
  refine finish ?_
  have hbody : ∀ t ∈ Program.statements (body.getD []), P t := by
    cases body with
    | none => exact fun _ hmem => nomatch hmem
    | some nodes => exact h.body nodes rfl
  obtain ⟨line, command, args⟩ := s
  rcases args with _ | ⟨name, _ | _⟩
  · exact h.failAt _
  · exact h.nameArg name fun name => ⟨h.value, h.env.define name hbody⟩
  · exact h.failAt _

theorem foreach : Works P setup s value body env .foreach := by
  obtain ⟨line, command, args⟩ := s
  rcases args with _ | _
  · cases value with
    | list address => exact ⟨trivial, h.env⟩
    | _ => exact h.wrongInput "foreach" .list
  · exact h.failAt _

theorem chooseBranch (taken : Bool) :
    Completes P setup s value env (fun action _ => action.Sound P)
      (Command.chooseBranch taken value env) := by
  cases taken <;> exact ⟨h.value, h.env.setChain _⟩

theorem chooseNext (command : String) {branch : Exec Action}
    (hbranch : Completes P setup s value env (fun action _ => action.Sound P) (branch env)) :
    Completes P setup s value env (fun action _ => action.Sound P)
      (Command.chooseNext command s.line value branch env) := by
  rw [Command.chooseNext, bind_apply, get_apply]
  dsimp only
  rcases env.chain with _ | _ | _
  · exact h.failAt _
  · exact hbranch
  · exact ⟨h.value, h.env⟩

theorem ifBranch : Works P setup s value body env .ifBranch := by
  obtain ⟨line, command, args⟩ := s
  rcases args with _ | ⟨condition, _ | _⟩
  · exact h.failAt _
  · exact h.evalArg List.mem_cons_self 0 fun x hx _ => truth hx fun taken => h.chooseBranch taken
  · exact h.failAt _

theorem elifBranch : Works P setup s value body env .elifBranch := by
  obtain ⟨line, command, args⟩ := s
  rcases args with _ | ⟨condition, _ | _⟩
  · exact h.failAt _
  · exact h.chooseNext _ (h.evalArg List.mem_cons_self 0 fun x hx _ =>
      truth hx fun taken => h.chooseBranch taken)
  · exact h.failAt _

theorem elseBranch : Works P setup s value body env .elseBranch := by
  obtain ⟨line, command, args⟩ := s
  rcases args with _ | _
  · exact h.chooseNext _ (h.chooseBranch true)
  · exact h.failAt _

theorem call : Works P setup s value body env .call := by
  obtain ⟨line, command, args⟩ := s
  rcases args with _ | ⟨name, _ | _⟩
  · exact h.failAt _
  · refine h.nameArg name fun name => ?_
    rw [chooseCall, bind_apply, get_apply]
    dsimp only
    cases hfind : env.functions.find? name with
    | none => exact h.failAt _
    | some nodes =>
      dsimp only
      rw [bind_apply, get_apply]
      dsimp only
      split
      · exact h.failAt _
      · exact ⟨⟨h.env.functions name nodes hfind, h.value⟩, h.env⟩
  · exact h.failAt _

/-- **The two ends of a standard command.**  It asks for an action with values of the language, or a
fault is raised by the statement; what it leaves is sound in both cases. -/
theorem prepare {command : StandardCommand} (hcommand : s.command = command.word) :
    Works P setup s value body env command := by
  cases command with
  | use => exact h.use hcommand
  | set => exact h.set
  | store => exact h.store
  | split => exact h.split
  | join => exact h.join hcommand
  | replace => exact h.replace hcommand
  | print => exact h.print hcommand
  | foreach => exact h.foreach
  | ifBranch => exact h.ifBranch
  | elifBranch => exact h.elifBranch
  | elseBranch => exact h.elseBranch
  | function => exact h.function
  | call => exact h.call

end Ready

end Pipeline
