import Pipeline.Proofs.Execution.Actions
import Pipeline.Proofs.Text.Cutting
import Pipeline.Proofs.Value.Elements

/-!
# Splitting a string and joining its pieces

`split` leaves the pieces of a string behind as the elements of a new list, and `join` puts a separator
between the texts of the elements of a list; the text of a string is the string.  So joining the pieces
with the separator at which they were cut gives the string back, at any later time at which the list
still has these elements.

* `execute_one` : a statement whose handler executes nothing.
* `split_apply`, `join_apply` : what the two handlers do.
* `join_undoes_split` : both of them, and what the pieces are.
-/

namespace Pipeline

/-- Executing one node is running its handler, between the announcement of the statement and its
conclusion. -/
theorem execute_one {setup : Setup} {node : Node} {handler : Handler}
    (hfind : setup.registry.find? node.statement.command = some handler) (value : Value)
    (env : Environment) :
    ∃ call run, execute setup [node] value env =
      let ran := Command.run setup call run (node.invocation value) handler
        (env.pushFrame.announce node.statement)
      (ran.1, (ran.2.conclude setup node ran.1).popFrame) := by
  let call := callWithin setup (setup.settings.maxCallDepth - env.callDepth).toNat
  refine ⟨call, runBody setup call node.body?, ?_⟩
  rw [execute, Exec.bind_apply, Exec.get_apply]
  dsimp only
  rw [runWithin_eq, inFrame, between]
  dsimp only [runNodes]
  rw [Exec.bind_apply, runNode_apply, hfind]
  dsimp only
  rw [← Command.run_eq]
  rcases Command.run _ _ _ _ _ _ with ⟨fault | result, left⟩ <;> rfl

theorem Environment.store_conclude (env : Environment) (setup : Setup) (node : Node)
    (result : Except Fault Value) : (env.conclude setup node result).store = env.store := by
  obtain ⟨frames, journal, heq⟩ := env.exists_conclude_eq setup node result
  rw [heq]

namespace Command

open Exec Text

/-- The arguments of `join` give a separator: a string, or the empty one where there are none. -/
inductive GivesSeparator (setup : Setup) (env : Environment) : List Expr → String → Prop where
  | argument {arg : Expr} {separator : String} :
      arg.eval setup.settings.strictVariables env.bindings = .ok (.string separator) →
      GivesSeparator setup env [arg] separator
  | none : GivesSeparator setup env [] ""

section Handlers

variable {setup : Setup} (env : Environment) {separator : String}

theorem stringArg_apply {arg : Expr}
    (harg : arg.eval setup.settings.strictVariables env.bindings = .ok (.string separator))
    (line : Int) (number : Nat) : stringArg setup line number arg env = (.ok separator, env) := by
  rw [stringArg, bind_apply, evalArg_apply, harg]
  rfl

variable (call : List Node → Runner) (run : Runner) (line : Int) (body : Option (List Node))

/-- Splitting adds a list of the pieces to the store, and changes nothing else. -/
theorem split_apply {arg : Expr}
    (harg : arg.eval setup.settings.strictVariables env.bindings = .ok (.string separator))
    (text : String) :
    standard setup call run ⟨.string text, [arg], line, body⟩ .split env =
      let pieces := (cut separator.toList text.toList).map String.ofList
      let added := env.store.alloc (pieces.map Value.string).toArray
      (.ok (.list added.1), { env with store := added.2 }) := by
  unfold standard
  dsimp only
  rw [bind_apply, stringArg_apply env harg, List.map_map]
  rfl

/-- The text of a string is the string. -/
theorem mapM_textOf_strings (texts : List String) :
    (texts.map Value.string).mapM textOf env = (.ok texts, env) := by
  induction texts with
  | nil => rfl
  | cons text texts ih =>
    rw [List.map_cons, List.mapM_cons, bind_apply, textOf_apply]
    show (((texts.map Value.string).mapM textOf >>= _ : Exec (List String)) env) = _
    rw [bind_apply, ih]
    rfl

/-- Joining strings puts the separator between them, and changes nothing. -/
theorem join_apply {args : List Expr} (hargs : GivesSeparator setup env args separator)
    {address : Nat} {texts : List String}
    (helements : env.store.elements address = (texts.map Value.string).toArray) :
    standard setup call run ⟨.list address, args, line, body⟩ .join env =
      (.ok (.string (separator.intercalate texts)), env) := by
  have hjoin (separator : String) : (do
      let texts ← ((← get).store.elements address).toList.mapM textOf
      return .string (separator.intercalate texts) : Exec Value) env =
        (.ok (.string (separator.intercalate texts)), env) := by
    rw [bind_apply, get_apply]
    dsimp only
    rw [helements, bind_apply, mapM_textOf_strings]
    rfl
  cases hargs with
  | none => exact hjoin ""
  | argument harg =>
    unfold standard
    dsimp only
    rw [bind_apply, stringArg_apply env harg]
    exact hjoin separator

end Handlers

end Command

open Text

/-! ### Statements -/

section Statements

variable {setup : Setup} {env : Environment} {node : Node} {separator : String}

/-- Splitting gives a new list of the pieces. -/
theorem execute_split {arg : Expr}
    (hfind : setup.registry.find? node.statement.command = some (.standard .split))
    (hargs : node.statement.args = [arg])
    (harg : arg.eval setup.settings.strictVariables env.bindings = .ok (.string separator))
    (text : String) :
    ∃ address left, execute setup [node] (.string text) env = (.ok (.list address), left) ∧
      left.store.elements address =
        (((cut separator.toList text.toList).map String.ofList).map Value.string).toArray := by
  obtain ⟨call, run, hexecute⟩ := execute_one hfind (.string text) env
  rw [Node.invocation, hargs, Command.run,
    Command.split_apply (env.pushFrame.announce node.statement) call run node.statement.line
      node.body? harg text] at hexecute
  refine ⟨_, _, hexecute, ?_⟩
  rw [Environment.popFrame, Environment.store_conclude]
  exact Store.elements_alloc_self _

/-- Joining a list of strings gives a string. -/
theorem execute_join {address : Nat} {texts : List String}
    (hfind : setup.registry.find? node.statement.command = some (.standard .join))
    (hargs : Command.GivesSeparator setup env node.statement.args separator)
    (helements : env.store.elements address = (texts.map Value.string).toArray) :
    (execute setup [node] (.list address) env).1 = .ok (.string (separator.intercalate texts)) := by
  have hopened : Command.GivesSeparator setup (env.pushFrame.announce node.statement)
      node.statement.args separator := by
    generalize node.statement.args = args at hargs
    cases hargs with
    | argument harg => exact .argument harg
    | none => exact .none
  obtain ⟨call, run, hexecute⟩ := execute_one hfind (.list address) env
  rw [hexecute, Node.invocation, Command.run,
    Command.join_apply (env.pushFrame.announce node.statement) call run node.statement.line
      node.body? hopened helements]

end Statements

theorem map_toList_ofList (pieces : List (List Char)) :
    (pieces.map String.ofList).map String.toList = pieces := by
  rw [List.map_map]
  exact List.map_id'' (fun _ => String.toList_ofList) pieces

/-- Joining strings is joining their characters. -/
theorem intercalate_ofList (separator : String) (pieces : List (List Char)) :
    separator.intercalate (pieces.map String.ofList) =
      String.ofList (joined separator.toList pieces) := by
  rw [← String.toList_inj, String.toList_ofList, String.toList_intercalate,
    map_toList_ofList, joined]

/-- **Joining undoes splitting.**  Splitting a string makes a new list of strings.  Whenever later the
list has these elements, joining it with the same separator gives the string.  At a separator that is
not empty, the pieces are those between the leftmost occurrences that do not overlap, there is at least
one, and none has the separator in it; at an empty separator they are the single characters. -/
theorem join_undoes_split {setup : Setup} {env : Environment} {splits joins : Node} {arg : Expr}
    {separator : String}
    (hfind : setup.registry.find? splits.statement.command = some (.standard .split))
    (hargs : splits.statement.args = [arg])
    (harg : arg.eval setup.settings.strictVariables env.bindings = .ok (.string separator))
    (hfind' : setup.registry.find? joins.statement.command = some (.standard .join))
    (text : String) :
    ∃ (pieces : List String) (address : Nat) (left : Environment),
      execute setup [splits] (.string text) env = (.ok (.list address), left) ∧
      left.store.elements address = (pieces.map Value.string).toArray ∧
      (∀ later : Environment, later.store.elements address = left.store.elements address →
        Command.GivesSeparator setup later joins.statement.args separator →
        (execute setup [joins] (.list address) later).1 = .ok (.string text)) ∧
      (separator ≠ "" →
        (∀ cuts, LeftmostCut separator.toList text.toList cuts ↔ cuts = pieces.map String.toList) ∧
        pieces ≠ [] ∧ ∀ piece ∈ pieces, ¬separator.toList <:+: piece.toList) ∧
      (separator = "" → pieces = text.toList.map String.singleton) := by
  obtain ⟨address, left, hsplit, helements⟩ := execute_split hfind hargs harg text
  refine ⟨_, address, left, hsplit, helements, ?join, ?nonempty, ?empty⟩
  case join =>
    intro later hlater hgives
    rw [execute_join hfind' hgives (hlater.trans helements), intercalate_ofList, joined_cut,
      String.ofList_toList]
  case nonempty =>
    intro hne
    have hseparator : separator.toList ≠ [] := fun h => hne (String.toList_eq_nil_iff.1 h)
    have hcut := (cut_eq_iff hseparator).1 (Eq.refl (cut separator.toList text.toList))
    refine ⟨fun pieces => ?_, ?_, ?_⟩
    · rw [← cut_eq_iff hseparator, map_toList_ofList]
      exact eq_comm
    · exact fun hnil => hcut.ne_nil (List.map_eq_nil_iff.1 hnil)
    · refine List.forall_mem_map.2 fun piece hpiece => ?_
      rw [String.toList_ofList]
      exact hcut.not_infix hseparator piece hpiece
  case empty =>
    rintro rfl
    show ((cut [] text.toList).map String.ofList) = _
    rw [cut_nil, List.map_map]
    rfl

/-- Splitting at a separator that overlaps itself: `aaab` at `aa`. -/
theorem join_undoes_split_overlapping :
    let splits : Node := .simple ⟨1, "split", [.operand ⟨.string, "aa"⟩]⟩
    let joins : Node := .simple ⟨2, "join", [.operand ⟨.variable, "x"⟩]⟩
    let later (left : Environment) : Environment := left.setVariable "x" (.string "aa")
    ∃ address left, execute {} [splits] (.string "aaab") {} = (.ok (.list address), left) ∧
      left.store.elements address = #[.string "", .string "ab"] ∧
      (execute {} [joins] (.list address) (later left)).1 = .ok (.string "aaab") := by
  intro splits joins later
  obtain ⟨pieces, address, left, hsplit, -, hjoin, -⟩ :=
    @join_undoes_split {} {} splits joins (.operand ⟨.string, "aa"⟩) "aa" rfl rfl rfl rfl "aaab"
  obtain rfl : (execute {} [splits] (.string "aaab") {}).2 = left := by rw [hsplit]
  obtain rfl : 0 = address := Value.list.inj (Except.ok.inj (congrArg Prod.fst hsplit))
  exact ⟨0, _, hsplit, rfl, hjoin _ rfl (.argument rfl)⟩

end Pipeline
