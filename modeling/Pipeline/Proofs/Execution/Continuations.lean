import Pipeline.Proofs.Execution.OwnWork

/-!
# Continuations

The builder looks at the node in front of a continuation, the handlers look at the mark in the innermost
frame.  Both come to the same: a branch that has run leaves a mark behind, every other node clears it,
and all that is executed inside of a node has frames of its own.  So behind nodes that have run there is
a mark exactly if the last of them is a branch, and exactly there a continuation is not refused.

* `mark_runNode`, `mark_runNodes` : the mark behind nodes.
* `reached_misplaced_iff` : where a continuation is refused.
-/

namespace Pipeline

/-! ### The mark behind nodes -/

/-- A node continues a chain, with as many arguments as its command takes. -/
inductive Node.IsContinuation : Node → Prop where
  | elif (b : Branch) : IsContinuation (b.node "elif")
  | last (b : LastBranch) : IsContinuation b.node

/-- What the handler of a node does itself, before it executes other nodes. -/
def Node.work (setup : Setup) (node : Node) (value : Value) : Exec Action := fun env =>
  match setup.registry.find? node.statement.command with
  | none =>
    (.error (.script (.unknownCommand node.statement.command) (.ofLine node.statement.line)), env)
  | some handler =>
    Command.prepare setup (node.invocation value) handler (env.announce node.statement)

/-- Whether the last of some nodes is a branch that can be continued. -/
def Program.endsInBranch (nodes : List Node) : Bool :=
  nodes.getLast?.any (chainCommands.contains ·.statement.command)

/-- A continuation is refused. -/
def misplaced (command : String) (line : Int) : Fault :=
  .script (.misplacedContinuation command) (.ofLine line)

section Marks

open Exec Command

variable {setup : Setup} {env left : Environment} {mark : Option Bool} {below : List (Option Bool)}

/-- Behind the own work of a branch there is a mark. -/
theorem mark_prepare {i : Invocation} {handler : Handler} {action : Action}
    (hhandler : handler = .standard .ifBranch ∨ handler = .standard .elifBranch)
    (hframes : env.frames = mark :: below) (h : prepare setup i handler env = (.ok action, left)) :
    ∃ taken, left.frames = some taken :: below := by
  obtain ⟨value, args, line, body⟩ := i
  have htest (condition : Expr) (h : chooseTest setup line condition value env = (.ok action, left)) :
      ∃ taken, left.frames = some taken :: below := by
    have hends := ended_chooseTest setup line condition value env
    rw [h] at hends
    obtain ⟨taken, rfl, -⟩ := hends
    exact ⟨taken, by rw [Environment.setChain_of_frames hframes]⟩
  rcases hhandler with rfl | rfl
  · rcases args with _ | ⟨condition, _ | _⟩
    · cases h
    · exact htest condition h
    · cases h
  · rcases args with _ | ⟨condition, _ | _⟩
    · cases h
    · change chooseNext "elif" line value (chooseTest setup line condition value) env = _ at h
      rw [chooseNext_apply, Environment.chain_of_frames hframes] at h
      rcases mark with _ | _ | _
      · cases h
      · exact htest condition h
      · cases h
        exact ⟨true, hframes⟩
    · cases h

/-- What a handler executes leaves the innermost frame as its own work did. -/
theorem exists_prepare_of_run {node : Node} {handler : Handler} {budget : Nat} {value result : Value}
    (hfind : setup.registry.find? node.statement.command = some handler)
    (hframes : env.frames = mark :: below)
    (h : (prepare setup (node.invocation value) handler >>= Action.perform (callWithin setup budget)
      (runBody setup (callWithin setup budget) node.body?)) env = (.ok result, left)) :
    ∃ action prepared mark',
      prepare setup (node.invocation value) handler env = (.ok action, prepared) ∧
      prepared.frames = mark' :: below ∧ left.frames = mark' :: below := by
  have hprepared := exists_mark_of_agrees (m := prepare setup (node.invocation value) handler)
    (fun L => L.prepare hfind) hframes
  rw [bind_apply] at h
  generalize hran : prepare setup (node.invocation value) handler env = ran at h hprepared
  obtain ⟨fault | action, prepared⟩ := ran
  · cases h
  · obtain ⟨mark', hmark'⟩ := hprepared
    have hperformed := frames_of_agrees (m := Action.perform (callWithin setup budget)
      (runBody setup (callWithin setup budget) node.body?) action)
      (fun L => L.perform (fun body value => L.callWithin budget 0 1 body value)
        (fun value => L.runBody budget 0 0 node.body? value) action) prepared
    dsimp only at h
    rw [h] at hperformed
    exact ⟨action, prepared, mark', rfl, hmark', hperformed.trans hmark'⟩

/-- The commands of branches are run by the handlers of branches. -/
theorem Registry.HasChains.branch_of_chain {registry : Registry} (hchains : registry.HasChains)
    {command : String} {handler : Handler} (hfind : registry.find? command = some handler)
    (hcommand : chainCommands.contains command = true) :
    handler = .standard .ifBranch ∨ handler = .standard .elifBranch := by
  simp only [chainCommands, List.contains_cons, List.contains_nil, Bool.or_false, Bool.or_eq_true,
    beq_iff_eq] at hcommand
  rcases hcommand with rfl | rfl
  · exact .inl (Option.some.inj (hfind.symm.trans hchains.find?_if))
  · exact .inr (Option.some.inj (hfind.symm.trans hchains.find?_elif))

/-- Behind a node that has run there is a mark exactly if its command is that of a branch. -/
theorem mark_runNode (hchains : setup.registry.HasChains) {budget : Nat} {node : Node}
    {value result : Value} (hframes : env.frames = mark :: below)
    (h : runNode setup (callWithin setup budget) node value env = (.ok result, left)) :
    ∃ mark', left.frames = mark' :: below ∧
      mark'.isSome = chainCommands.contains node.statement.command := by
  rw [runNode_apply] at h
  cases hfind : setup.registry.find? node.statement.command with
  | none =>
    rw [hfind] at h
    cases h
  | some handler =>
    rw [hfind] at h
    dsimp only at h
    generalize hran : (prepare setup _ handler >>= _) (env.announce node.statement) = ran at h
    obtain ⟨fault | value', behind⟩ := ran
    · cases h
    obtain ⟨-, rfl⟩ := Prod.mk.inj h
    have hannounced : (env.announce node.statement).frames = mark :: below := hframes
    obtain ⟨action, prepared, mark', hprepared, hmark', hbehind⟩ :=
      exists_prepare_of_run hfind hannounced hran
    obtain ⟨journal, hreport⟩ := behind.exists_report_eq setup node (.ok value')
    have hreported : (behind.report setup node (.ok value')).frames = mark' :: below := by
      rw [hreport]
      exact hbehind
    unfold Environment.conclude Environment.pass
    dsimp only
    by_cases hcommand : chainCommands.contains node.statement.command = true
    · -- The mark of a branch is kept.
      obtain ⟨taken, htaken⟩ :=
        mark_prepare (hchains.branch_of_chain hfind hcommand) hannounced hprepared
      obtain ⟨rfl, -⟩ := List.cons.inj (hmark'.symm.trans htaken)
      rw [if_pos hcommand]
      exact ⟨_, hreported, hcommand.symm⟩
    · rw [if_neg hcommand, Environment.setChain_of_frames hreported]
      exact ⟨none, rfl, (Bool.eq_false_iff.2 hcommand).symm⟩

/-- Behind nodes that have run in a frame of their own there is a mark exactly if the last of them is a
branch. -/
theorem mark_runNodes (hchains : setup.registry.HasChains) {budget : Nat} {nodes : List Node}
    {value result : Value} (hframes : env.frames = none :: below)
    (h : runNodes setup (callWithin setup budget) nodes value env = (.ok result, left)) :
    ∃ mark', left.frames = mark' :: below ∧ mark'.isSome = Program.endsInBranch nodes := by
  rcases List.eq_nil_or_concat nodes with rfl | ⟨front, node, rfl⟩
  · cases h
    exact ⟨none, hframes, rfl⟩
  · rw [List.concat_eq_append, runNodes_append, bind_apply] at h
    have hmiddle := exists_mark_of_agrees (m := runNodes setup (callWithin setup budget) front value)
      (fun L => L.runNodes (L.callWithin budget) 0 0 front value) hframes
    rcases hran : runNodes setup (callWithin setup budget) front value env with
      ⟨fault | next, middle⟩ <;> rw [hran] at h hmiddle
    · cases h
    obtain ⟨mark, hmark⟩ := hmiddle
    -- Behind the last node nothing follows.
    dsimp only [runNodes] at h
    rw [show (runNode setup (callWithin setup budget) node next >>= fun next => pure next) =
      runNode setup (callWithin setup budget) node next from bind_pure _] at h
    obtain ⟨mark', hframes', hmark'⟩ := mark_runNode hchains hmark h
    refine ⟨mark', hframes', hmark'.trans ?_⟩
    rw [Program.endsInBranch, List.concat_eq_append, List.getLast?_concat]
    rfl

/-! ### Continuations behind nodes -/

/-- What the own work of a handler fails with, the node fails with. -/
theorem runNode_of_work_error (call : List Node → Runner) {node : Node} {value : Value} {fault : Fault}
    (h : (node.work setup value env).1 = .error fault) :
    (runNode setup call node value env).1 = .error fault := by
  rw [runNode_apply]
  unfold Node.work at h
  cases hfind : setup.registry.find? node.statement.command with
  | none =>
    rw [hfind] at h
    exact congrArg Except.error (Except.error.inj h)
  | some handler =>
    rw [hfind] at h
    dsimp only at h ⊢
    rw [bind_apply]
    generalize prepare setup (node.invocation value) handler (env.announce node.statement) = ran at h ⊢
    obtain ⟨result, left⟩ := ran
    obtain rfl : result = .error fault := h
    rfl

theorem chooseNext_misplaced_iff {command : String} {line : Int} {value : Value}
    {branch : Exec Action} (hbranch : (branch env).1 ≠ .error (misplaced command line)) :
    (chooseNext command line value branch env).1 = .error (misplaced command line) ↔
      env.chain = none := by
  rw [chooseNext_apply]
  rcases env.chain with _ | _ | _
  · exact ⟨fun _ => rfl, fun _ => rfl⟩
  · exact ⟨fun h => absurd h hbranch, nofun⟩
  · exact ⟨nofun, nofun⟩

/-- A continuation is refused exactly where there is no mark. -/
theorem work_misplaced_iff (hchains : setup.registry.HasChains) {node : Node}
    (hnode : node.IsContinuation) (value : Value) (env : Environment) :
    (node.work setup value env).1 =
        .error (misplaced node.statement.command node.statement.line) ↔
      env.chain = none := by
  unfold Node.work
  cases hnode with
  | elif b =>
    rw [Branch.node, Node.invocation_ofStatement, Node.statement_ofStatement, hchains.find?_elif]
    refine chooseNext_misplaced_iff fun h => ?_
    -- The branch itself has no fault of the grammar.
    exact (ended_chooseTest setup b.line b.condition value _).of_error h rfl
  | last b =>
    rw [LastBranch.node, Node.invocation_ofStatement, Node.statement_ofStatement, hchains.find?_else]
    exact chooseNext_misplaced_iff fun h => by cases h

/-- A continuation that is reached is refused exactly if no branch stands in front of it. -/
theorem reached_misplaced_iff (hchains : setup.registry.HasChains) {budget : Nat} {before : List Node}
    {node : Node} (hnode : node.IsContinuation) {value reached : Value}
    (h : runNodes setup (callWithin setup budget) before value env.pushFrame = (.ok reached, left)) :
    (node.work setup reached left).1 =
        .error (misplaced node.statement.command node.statement.line) ↔
      Program.endsInBranch before = false := by
  obtain ⟨mark, hframes, hmark⟩ := mark_runNodes hchains rfl h
  rw [work_misplaced_iff hchains hnode, Environment.chain_of_frames hframes, ← hmark,
    Option.isSome_eq_false_iff, Option.isNone_iff_eq_none]

/-- A node that is reached and fails is the end of all nodes. -/
theorem runWithin_of_work_error {budget : Nat} {before rest : List Node} {node : Node}
    {value reached : Value} {fault : Fault}
    (h : runNodes setup (callWithin setup budget) before value env.pushFrame = (.ok reached, left))
    (hwork : (node.work setup reached left).1 = .error fault) :
    (runWithin setup budget (before ++ node :: rest) value env).1 = .error fault := by
  have hnode := runNode_of_work_error (callWithin setup budget) hwork
  rw [runWithin_eq, inFrame, between, runNodes_append, bind_apply, h]
  dsimp only [runNodes]
  rw [bind_apply]
  generalize runNode setup (callWithin setup budget) node reached left = ran at hnode ⊢
  obtain ⟨result, behind⟩ := ran
  obtain rfl : result = .error fault := hnode
  rfl

end Marks

end Pipeline
