import Pipeline.Proofs.Execution.Chains
import Pipeline.Proofs.Execution.WellFormed

/-!
# Sequences of nodes

Executing one sequence of nodes behind another one is executing the first and then the second, where
the second starts from the value and the environment that the first has left, and is not started if the
first fails.  In one go both stand in one frame, so the second finds the mark that the first has left
there; one after the other each has a frame of its own, and the second finds none.

No node finds out, unless it continues a chain.  A node that starts a chain sets the mark, and any
other node takes it away when it has run, so behind the first node of the second sequence the frames
are the same.  If that node fails, the frame is left, and the mark with it.

* `meets_runNode` : the first node of the second sequence.
* `inFrame_runNodes_append` : what stands in one frame may stand in two.
* `execute_append` : the whole run.
-/

namespace Pipeline

/-! ### Marks that nobody sees -/

/-- Two computations ended in the same way: with a value in the same environment, and with a fault in
environments that differ at most in the mark of the innermost frame. -/
inductive Meets : (ran ran' : Except Fault Value × Environment) → Prop where
  | same (ran : Except Fault Value × Environment) : Meets ran ran
  | failed (fault : Fault) {mark : Option Bool} {env env' : Environment} :
      env.Marked mark env' → Meets (.error fault, env) (.error fault, env')

/-- Two computations ended in the same way, and in the same environment once the innermost frame is
left. -/
def EndAlike (ran ran' : Except Fault Value × Environment) : Prop :=
  ran.1 = ran'.1 ∧ ran.2.popFrame = ran'.2.popFrame

namespace Meets

variable {m m' : Exec Value} {env env' : Environment}

theorem endAlike {ran ran' : Except Fault Value × Environment} (h : Meets ran ran') :
    EndAlike ran ran' := by
  cases h with
  | same => exact ⟨rfl, rfl⟩
  | failed fault h => exact ⟨rfl, h.popFrame.symm⟩

theorem bind (h : Meets (m env) (m' env')) (f : Runner) :
    Meets ((m >>= f) env) ((m' >>= f) env') := by
  rw [Exec.bind_apply, Exec.bind_apply]
  generalize m env = ran, m' env' = ran' at h ⊢
  cases h with
  | same => exact .same _
  | failed fault h => exact .failed fault h

end Meets

namespace Environment.Marked

variable {mark : Option Bool} {env env' : Environment}

/-- A mark that is set takes the place of the one that was there. -/
theorem setChain_eq (h : env.Marked mark env') (next : Option Bool) :
    env.setChain next = env'.setChain next := by
  obtain ⟨below, other, hframes, rfl⟩ := h
  rw [setChain_of_frames hframes, setChain_of_frames rfl]

/-- In a frame that is opened in place of another one there is no mark. -/
theorem reopen (h : env.Marked mark env') : env.Marked mark env.popFrame.pushFrame := by
  obtain ⟨below, -, hframes, -⟩ := h
  exact ⟨below, none, hframes, by rw [Environment.popFrame, hframes]; rfl⟩

/-- A node is concluded without a look at the mark; behind a command that does not keep the chain open
there is none. -/
theorem meets_conclude (h : env.Marked mark env') (setup : Setup) {node : Node}
    {result : Except Fault Value}
    (hcommand : ∀ value, result = .ok value →
      chainCommands.contains node.statement.command = false) :
    Meets (result, env.conclude setup node result) (result, env'.conclude setup node result) := by
  have hreport : (env.report setup node result).Marked mark (env'.report setup node result) :=
    h.keep (f := fun e => e.report setup node result) fun L h => L.report node _ h
  cases result with
  | error fault => exact .failed fault hreport
  | ok value =>
    have hpass : env.conclude setup node (.ok value) = env'.conclude setup node (.ok value) := by
      rw [conclude, conclude, pass, pass, hcommand value rfl]
      exact hreport.setChain_eq none
    rw [hpass]
    exact .same _

end Environment.Marked

theorem Meets.conclude {ran ran' : Except Fault Value × Environment} (h : Meets ran ran')
    (setup : Setup) (node : Node) :
    Meets (ran.1, ran.2.conclude setup node ran.1) (ran'.1, ran'.2.conclude setup node ran'.1) := by
  cases h with
  | same => exact .same _
  | failed fault h => exact h.meets_conclude setup nofun

/-! ### The first node -/

section Nodes

variable {setup : Setup} {mark : Option Bool} {env env' : Environment}

variable (setup) in
/-- A branch that starts a chain sets the mark, unless its condition fails. -/
theorem meets_ifBranch (call : List Node → Runner) (run : Runner) (i : Invocation)
    (h : env.Marked mark env') :
    Meets ((Command.prepare setup i (.standard .ifBranch) >>= Action.perform call run) env)
      ((Command.prepare setup i (.standard .ifBranch) >>= Action.perform call run) env') := by
  obtain ⟨value, args, line, body⟩ := i
  rw [← Command.run_eq]
  rcases args with _ | ⟨condition, _ | _⟩
  · exact .failed _ h
  · let b : Branch := ⟨line, condition, body⟩
    have htest := @testBranch_apply setup b run value
    have hholds : b.holds setup env = b.holds setup env' := Branch.holds_of_seesAs h.seesAs b
    refine (congrArg₂ Meets (htest env) (htest env')).mpr ?_
    rw [← hholds]
    cases b.holds setup env with
    | error fault => exact .failed fault h
    | ok taken =>
      have hset : Command.takeBranch run taken value env = Command.takeBranch run taken value env' := by
        rw [Command.takeBranch, Exec.bind_apply, Exec.bind_apply, Exec.modify_apply,
          Exec.modify_apply, h.setChain_eq]
      dsimp only
      rw [hset]
      exact .same _
  · exact .failed _ h

/-- A handler that has nothing to do with branches does not look at the mark. -/
theorem marked_other (budget : Nat) (body : Option (List Node)) (i : Invocation) {handler : Handler}
    {name : String} (hfind : setup.registry.find? name = some handler)
    (hbranch : ¬Command.IsBranch handler) (h : env.Marked mark env') :
    Follows mark
      ((Command.prepare setup i handler >>=
        Action.perform (callWithin setup budget) (runBody setup (callWithin setup budget) body)) env)
      ((Command.prepare setup i handler >>=
        Action.perform (callWithin setup budget) (runBody setup (callWithin setup budget) body))
        env') :=
  h.follows fun L => (L.prepare_other hfind hbranch).bind fun action =>
    L.perform (fun body value => L.callWithin budget 0 1 body value)
      (fun value => L.runBody budget 0 0 body value) action

/-- A command that does not continue a chain and keeps one open is the one that starts it. -/
theorem Registry.KeepsChains.ifBranch_of_chain {registry : Registry} (hkeeps : registry.KeepsChains)
    {command : String} {handler : Handler} (hfind : registry.find? command = some handler)
    (hfirst : continuationCommands.contains command = false)
    (hchain : chainCommands.contains command = true) : handler = .standard .ifBranch := by
  refine (hkeeps.branch_of_chain hfind hchain).resolve_right fun hcontinues => ?_
  rw [hkeeps.continues hfind (.inl hcontinues)] at hfirst
  cases hfirst

/-- The handlers of branches that are found under other words than those of continuations start
chains. -/
theorem Registry.KeepsChains.ifBranch_of_isBranch {registry : Registry}
    (hkeeps : registry.KeepsChains) {command : String} {handler : Handler}
    (hfind : registry.find? command = some handler)
    (hfirst : continuationCommands.contains command = false) (hbranch : Command.IsBranch handler) :
    handler = .standard .ifBranch := by
  have hcontinues (h : Command.Continues handler) : False := by
    rw [hkeeps.continues hfind h] at hfirst
    cases hfirst
  cases hbranch with
  | ifBranch => rfl
  | elifBranch => exact (hcontinues (.inl rfl)).elim
  | elseBranch => exact (hcontinues (.inr rfl)).elim

variable (hkeeps : setup.registry.KeepsChains) (budget : Nat)

include hkeeps

/-- A node that does not continue a chain ends in the same way whatever the mark in front of it is, and
leaves the same mark. -/
theorem meets_runNode {node : Node} (value : Value)
    (hfirst : continuationCommands.contains node.statement.command = false)
    (h : env.Marked mark env') :
    Meets (runNode setup (callWithin setup budget) node value env)
      (runNode setup (callWithin setup budget) node value env') := by
  rw [runNode_apply, runNode_apply]
  cases hfind : setup.registry.find? node.statement.command with
  | none => exact .failed _ h
  | some handler =>
    have hannounced := Chain.marked_announce h node.statement
    dsimp only
    by_cases hbranch : Command.IsBranch handler
    · obtain rfl := hkeeps.ifBranch_of_isBranch hfind hfirst hbranch
      have hwork := meets_ifBranch setup (callWithin setup budget)
        (runBody setup (callWithin setup budget) node.body?) (node.invocation value) hannounced
      exact hwork.conclude setup node
    · obtain ⟨hresult, left, hleft, -⟩ := marked_other budget node.body? (node.invocation value)
        hfind hbranch hannounced
      rw [← hresult]
      refine hleft.meets_conclude setup fun _ _ => Bool.eq_false_iff.2 fun hchain => hbranch ?_
      rw [hkeeps.ifBranch_of_chain hfind hfirst hchain]
      exact .ifBranch

/-- Nodes of which the first does not continue a chain end alike whatever the mark in front of them
is. -/
theorem endAlike_runNodes {nodes : List Node} (value : Value)
    (hfirst : Program.continues nodes = false) (h : env.Marked mark env') :
    EndAlike (runNodes setup (callWithin setup budget) nodes value env)
      (runNodes setup (callWithin setup budget) nodes value env') := by
  cases nodes with
  | nil => exact ⟨rfl, h.popFrame.symm⟩
  | cons node rest =>
    rw [runNodes]
    exact ((meets_runNode hkeeps budget value hfirst h).bind _).endAlike

/-! ### Sequences -/

/-- Two sequences of nodes in one frame are the first in a frame of its own, and then the second. -/
theorem inFrame_runNodes_append (before : List Node) {after : List Node} (value : Value)
    (hfirst : Program.continues after = false) :
    inFrame (runNodes setup (callWithin setup budget) (before ++ after) value) =
      inFrame (runNodes setup (callWithin setup budget) before value) >>= fun next =>
        inFrame (runNodes setup (callWithin setup budget) after next) := by
  funext env
  rw [Exec.bind_apply, runNodes_append]
  simp only [inFrame, between, Exec.bind_apply]
  rcases hran : runNodes setup (callWithin setup budget) before value env.pushFrame with
    ⟨fault | next, left⟩
  · rfl
  · obtain ⟨mark, hmarked⟩ := marked_runNodes rfl hran
    obtain ⟨hresult, hleft⟩ := endAlike_runNodes hkeeps budget next hfirst hmarked.reopen
    exact Prod.ext hresult hleft

end Nodes

/-- **Sequencing is composition.**  Where the handlers of branches are found under their words, and the
second of two sequences of nodes does not start with a continuation, executing both in one go is
executing the first and then, unless that has failed, the second. -/
theorem execute_append {setup : Setup} (hkeeps : setup.registry.KeepsChains)
    (before after : List Node) (hfirst : Program.continues after = false) (value : Value)
    (env : Environment) :
    execute setup (before ++ after) value env =
      match execute setup before value env with
      | (.ok next, left) => execute setup after next left
      | (.error fault, left) => (.error fault, left) := by
  have hexecute (nodes : List Node) (value : Value) (env : Environment) :
      execute setup nodes value env =
        inFrame (runNodes setup (callWithin setup
          (setup.settings.maxCallDepth - env.callDepth).toNat) nodes value) env := by
    rw [← runWithin_eq]
    rfl
  obtain ⟨-, opened, -, -, -, hdepth⟩ := apart_execute setup before value env env.frames (.inl rfl)
  rw [hexecute, inFrame_runNodes_append hkeeps _ before value hfirst, Exec.bind_apply, ← hexecute]
  rcases hran : execute setup before value env with ⟨fault | next, left⟩
  · rfl
  · rw [hran] at hdepth
    dsimp only at hdepth ⊢
    rw [hexecute, hdepth, Int.natCast_zero, Int.add_zero]

/-- The first sequence leaves a chain open of which a branch was taken; the second starts a chain of its
own, in which no branch was taken before the last one.  Both run inside a call. -/
theorem execute_append_open_chain :
    let constant (digits : String) : Expr := .operand ⟨.number, digits⟩
    let before : List Node := [.block ⟨1, "if", [constant "1"]⟩ [.simple ⟨2, "set", [constant "5"]⟩]]
    let after : List Node := [.simple ⟨3, "if", [constant "0"]⟩,
      .block ⟨4, "else", []⟩ [.simple ⟨5, "store", [.operand ⟨.variable, "x"⟩]⟩]]
    let env : Environment := { frames := [some false], callDepth := 1 }
    Registry.standard.KeepsChains ∧ Program.continues after = false ∧
      (execute {} (before ++ after) .nothing env =
        match execute {} before .nothing env with
        | (.ok next, left) => execute {} after next left
        | (.error fault, left) => (.error fault, left)) ∧
      (execute {} (before ++ after) .nothing env).2.bindings.find? "x" = some (.number 5) := by
  intro constant before after env
  exact ⟨Registry.keepsChains_standard, rfl,
    execute_append Registry.keepsChains_standard before after rfl .nothing env, rfl⟩

/-- A continuation in front of the second sequence does find out. -/
example :
    let before : List Node := [.simple ⟨1, "if", [.operand ⟨.number, "1"⟩]⟩]
    let after : List Node := [.simple ⟨2, "else", []⟩]
    (execute {} (before ++ after) .nothing {}).1 = .ok .nothing ∧
      (execute {} before .nothing {}).1 = .ok .nothing ∧
      (execute {} after .nothing (execute {} before .nothing {}).2).1 =
        .error (.script (.misplacedContinuation "else") (.ofLine 2)) :=
  ⟨rfl, rfl, rfl⟩

end Pipeline
