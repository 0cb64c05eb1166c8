import Pipeline.Proofs.Execution.Continuations
import Pipeline.Proofs.Program.Blocks

/-!
# Well-formed nodes

What the builder gives is well formed: continuations stand behind branches only.  Executing well-formed
nodes has no fault of the grammar.  The bodies that were recorded on the way have to be well formed,
too, as any of them may be called; that they are is what the execution keeps.

* `Program.wellFormed_of_build` : programs that are built.
* `safe_runNodes` : nodes that stand in one body, by induction on how they are well formed.
* `safe_execute` : the whole run, by induction on the calls that may be nested.
-/

namespace Pipeline

/-! ### Programs that are built -/

namespace Program

/-- What is built is well formed; only bodies of branches stop in front of a continuation. -/
theorem wellFormed_of_buildBody {settings : Settings} {inChain chainOpen : Bool} {depth : Nat}
    {statements : List Statement} {nodes : List Node} {stop : Stop} {rest : Rest statements}
    (h : buildBody settings inChain depth chainOpen statements = .ok (nodes, stop, rest)) :
    WellFormed settings chainOpen nodes ∧ (stop = .continuation → inChain = true) := by
  fun_induction buildBody settings inChain depth chainOpen statements generalizing nodes stop with
  | case1 => cases h; exact ⟨.nil _, fun hstop => by cases hstop⟩
  | case2 inChain depth chainOpen s rest hcontinuation =>
    cases h
    simp only [Bool.and_eq_true] at hcontinuation
    exact ⟨.nil _, fun _ => hcontinuation.1.1⟩
  | case3 => cases h; exact ⟨.nil _, fun hstop => by cases hstop⟩
  | case4 => cases h
  | case5 => cases h
  | case6 => cases h
  | case7 => cases h
  | case8 => cases h
  | case9 inChain depth chainOpen s rest _ hne hopens hplaced hroom body stop₁ rest₁ h₁ hended hbody
      nodes₂ stop₂ rest₂ h₂ hrest ihbody ihrest =>
    cases h
    obtain ⟨hwf₁, hchain⟩ := ihbody hbody
    obtain ⟨hwf₂, hstop⟩ := ihrest hrest
    have hafter : continuationCommands.contains s.command = true → chainOpen = true := by
      intro hcontinuation
      rw [hcontinuation] at hplaced
      simpa using hplaced
    refine ⟨.block hopens hne hafter hwf₁ ?_, hstop⟩
    -- The body has stopped in front of a continuation only if it belongs to a branch.
    cases stop₁ with
    | ended => exact absurd rfl hended
    | terminator => exact hwf₂.afterBranch _
    | continuation => exact hchain rfl ▸ hwf₂
  | case10 => cases h
  | case11 inChain depth chainOpen s rest _ hne hopens nodes₁ stop₁ rest₁ h₁ hrest ih =>
    cases h
    obtain ⟨hwf, hstop⟩ := ih hrest
    exact ⟨.simple (Bool.eq_false_iff.2 hopens) hne hwf, hstop⟩

/-- The nodes of a program are those of the body that the builder starts with. -/
theorem exists_buildBody_of_build {settings : Settings} {statements : List Statement}
    {nodes : List Node} (h : build settings statements = .ok nodes) :
    ∃ stop rest, buildBody settings false 0 false statements = .ok (nodes, stop, rest) := by
  cases hbody : buildBody settings false 0 false statements with
  | error fault =>
    rw [build_of_error hbody] at h
    cases h
  | ok built =>
    obtain ⟨nodes', stop, rest⟩ := built
    rw [build, buildFrom, List.drop_zero, hbody] at h
    dsimp only [Except.map, bind, Except.bind] at h
    split at h
    · cases h
    · cases h
      exact ⟨stop, rest, rfl⟩

theorem wellFormed_of_build {settings : Settings} {statements : List Statement} {nodes : List Node}
    (h : build settings statements = .ok nodes) : WellFormed settings false nodes := by
  obtain ⟨stop, rest, hbody⟩ := exists_buildBody_of_build h
  exact (wellFormed_of_buildBody hbody).1

end Program

/-! ### Chains that are kept -/

/-- The commands that continue chains open blocks, so the builder looks at their places. -/
def Settings.KeepsChains (settings : Settings) : Prop :=
  ∀ command, continuationCommands.contains command = true → settings.opensBlock command = true

/-- The handlers of branches stand under their words, and those that continue chains stand nowhere
else. -/
structure Registry.KeepsChains (registry : Registry) : Prop extends registry.HasChains where
  continues : ∀ {name handler}, registry.find? name = some handler → Command.Continues handler →
    continuationCommands.contains name = true

theorem Registry.keepsChains_standard : standard.KeepsChains where
  toHasChains := hasChains_standard
  continues hfind hcontinues := by
    obtain ⟨command, rfl, rfl⟩ := find?_standard hfind
    rcases hcontinues with h | h <;> cases h <;> rfl

/-! ### Safe computations -/

/-- All recorded bodies are well formed. -/
def Environment.Built (settings : Settings) (env : Environment) : Prop :=
  ∀ name body, env.functions.find? name = some body → Program.WellFormed settings false body

namespace Environment

variable {settings : Settings} {env : Environment}

theorem built_empty : ({} : Environment).Built settings := nofun

namespace Built

theorem of_eq {left : Environment} (h : env.Built settings) (heq : left.functions = env.functions) :
    left.Built settings := by
  rw [Built, heq]
  exact h

theorem insert {left : Environment} {name : String} {body : List Node} (h : env.Built settings)
    (heq : left.functions = env.functions.insert name body)
    (hbody : Program.WellFormed settings false body) : left.Built settings := by
  intro name' body' hfind
  rw [heq, Table.find?_insert] at hfind
  split at hfind
  · cases hfind
    exact hbody
  · exact h name' body' hfind

end Built

end Environment

namespace Exec

/-- A computation has ended with an environment of a kind, or with a fault that is not of the
grammar. -/
abbrev CleanEnd {α : Type} (P : Environment → Prop) : Except Fault α × Environment → Prop :=
  Ended (fun _ left => P left) fun fault _ => fault.category? ≠ some .grammar

/-- A computation that starts with an environment of a kind ends so. -/
def Clean {α : Type} (P : Environment → Prop) (m : Exec α) : Prop :=
  ∀ env, P env → CleanEnd P (m env)

namespace Clean

variable {P : Environment → Prop} {α β : Type} {m : Exec α}

theorem pure (a : α) : Clean P (pure a) :=
  fun _ => id

theorem throw {fault : Fault} (h : fault.category? ≠ some .grammar) : Clean P (throw fault : Exec α) :=
  fun _ _ => h

theorem bind {f : α → Exec β} (hm : Clean P m) (hf : ∀ a, Clean P (f a)) : Clean P (m >>= f) :=
  fun env henv => .bind ((hm env henv).imp (fun a left => hf a left) fun _ _ => id)

theorem get {f : Environment → Exec α} (hf : ∀ env, Clean P (f env)) : Clean P (get >>= f) :=
  fun env => hf env env

theorem modify {change : Environment → Environment} (h : ∀ env, P env → P (change env)) :
    Clean P (modify change) :=
  h

theorem between {enter leave : Environment → Environment} (hleave : ∀ env, P env → P (leave env))
    (hm : ∀ env, P env → CleanEnd P (m (enter env))) : Clean P (between enter leave m) := by
  intro env henv
  have hran := hm env henv
  rw [Pipeline.between]
  generalize m (enter env) = ran at hran ⊢
  obtain ⟨fault | a, left⟩ := ran
  · exact hran
  · exact hleave left hran

end Clean

variable {settings : Settings} {α : Type} {m : Exec α}

/-- A computation has ended with well-formed recorded bodies, or with a fault that is not of the
grammar. -/
abbrev SafeEnd (settings : Settings) : Except Fault α × Environment → Prop :=
  CleanEnd (Environment.Built settings)

/-- A computation that starts with well-formed recorded bodies ends so. -/
abbrev Safe (settings : Settings) (m : Exec α) : Prop :=
  Clean (Environment.Built settings) m

theorem safe_inFrame
    (hm : ∀ env : Environment, env.Built settings → SafeEnd settings (m env.pushFrame)) :
    Safe settings (inFrame m) :=
  .between (fun _ hbuilt => hbuilt.of_eq rfl) hm

theorem safe_inCall (hm : Safe settings m) : Safe settings (inCall m) :=
  .between (fun _ hbuilt => hbuilt.of_eq rfl) fun _ hbuilt => hm _ (hbuilt.of_eq rfl)

end Exec

/-! ### Well-formed nodes are safe -/

section Nodes

open Exec

variable {setup : Setup} {settings : Settings} {call : List Node → Runner} {run : Runner}
  {env : Environment}

theorem safe_replaceElements (hrun : ∀ value, Safe settings (run value))
    (address index remaining : Nat) :
    Safe settings (Command.replaceElements run address index remaining) := by
  induction remaining generalizing index with
  | zero => exact .pure ()
  | succ remaining ih =>
    have writing (result : Value) : Safe settings (modify fun env : Environment =>
        { env with store := env.store.write address index result }) :=
      .modify fun _ hbuilt => hbuilt.of_eq rfl
    exact .get fun env => (hrun _).bind fun result => (writing result).bind fun _ => ih (index + 1)

/-- An action is safe if the bodies that it runs are. -/
theorem safe_perform {action : Action}
    (hrun : ∀ value, Safe settings (run value))
    (hcall : ∀ body value, action = .call body value → Safe settings (call body value)) :
    Safe settings (action.perform call run) := by
  cases action with
  | finish value => exact .pure value
  | enter value => exact hrun value
  | twice value => exact (hrun value).bind hrun
  | traverse address =>
    exact .get fun env => (safe_replaceElements hrun address 0 _).bind fun _ => .pure _
  | call body value => exact safe_inCall (hcall body value rfl)

/-- A node is safe if a continuation among the nodes has a mark. -/
theorem safeEnd_runNode {node : Node} (value : Value) (hbuilt : env.Built settings)
    (hplaced : ∀ handler, setup.registry.find? node.statement.command = some handler →
      Command.Continues handler → env.chain ≠ none)
    (hbody : Program.WellFormed settings false (node.body?.getD []))
    (hrun : ∀ value, Safe settings (runBody setup call node.body? value))
    (hcall : ∀ body value, Program.WellFormed settings false body → Safe settings (call body value)) :
    SafeEnd settings (runNode setup call node value env) := by
  rw [runNode_apply]
  cases hfind : setup.registry.find? node.statement.command with
  | none => exact nofun
  | some handler =>
    have hwork := Command.prepare_ended setup (node.invocation value) handler
      (env.announce node.statement)
    have hran : SafeEnd settings ((Command.prepare setup (node.invocation value) handler >>=
        Action.perform call (runBody setup call node.body?)) (env.announce node.statement)) := by
      refine .bind (hwork.imp (fun action left hworked => ?_) fun fault _ hgrammar hcategory => ?_)
      · have hleft : left.Built settings := by
          rcases hworked.functions with heq | ⟨name, heq⟩
          · exact hbuilt.of_eq heq
          · exact hbuilt.insert heq hbody
        refine safe_perform hrun (fun body value haction => ?_) left hleft
        obtain ⟨name, hcalled⟩ := hworked.called body value haction
        exact hcall body value (hbuilt name body hcalled)
      · obtain ⟨hchain, hcontinues⟩ := hgrammar hcategory
        exact hplaced handler hfind hcontinues hchain
    dsimp only
    generalize (Command.prepare setup _ handler >>= _) (env.announce node.statement) = ran at hran ⊢
    obtain ⟨fault | result, left⟩ := ran
    · exact hran
    · obtain ⟨frames, journal, hconcluded⟩ := left.exists_conclude_eq setup node (.ok result)
      refine Environment.Built.of_eq hran ?_
      rw [hconcluded]

/-- A node is safe, and so are those behind it, which find its mark. -/
theorem safeEnd_cons (hchains : setup.registry.HasChains) {budget : Nat} {node : Node}
    {rest : List Node} {mark : Option Bool} {below : List (Option Bool)} {value : Value}
    (hframes : env.frames = mark :: below)
    (hnode : SafeEnd settings (runNode setup (callWithin setup budget) node value env))
    (hrest : ∀ {result left mark'}, left.frames = mark' :: below →
      mark'.isSome = chainCommands.contains node.statement.command → left.Built settings →
      SafeEnd settings (runNodes setup (callWithin setup budget) rest result left)) :
    SafeEnd settings (runNodes setup (callWithin setup budget) (node :: rest) value env) := by
  refine .bind (m := runNode setup (callWithin setup budget) node value) ?_
  rcases hran : runNode setup (callWithin setup budget) node value env with ⟨fault | result, left⟩ <;>
    rw [hran] at hnode
  · exact hnode
  · obtain ⟨mark', hframes', hmark'⟩ := mark_runNode hchains hframes hran
    exact hrest hframes' hmark' hnode

/-- Well-formed nodes are safe, where in front of nodes that may continue a chain there is a mark. -/
theorem safeEnd_runNodes (hkeeps : setup.registry.KeepsChains) (hblocks : settings.KeepsChains)
    {budget : Nat} (hcall : ∀ body value, Program.WellFormed settings false body →
      Safe settings (callWithin setup budget body value))
    {afterBranch : Bool} {nodes : List Node} (h : Program.WellFormed settings afterBranch nodes)
    {mark : Option Bool} {below : List (Option Bool)} (value : Value)
    (hframes : env.frames = mark :: below) (hmark : afterBranch = true → mark.isSome = true)
    (hbuilt : env.Built settings) :
    SafeEnd settings (runNodes setup (callWithin setup budget) nodes value env) := by
  induction h generalizing mark below value env with
  | nil => exact hbuilt
  | simple hplain _ _ ih =>
    refine safeEnd_cons hkeeps.toHasChains hframes ?_ fun hframes' _ hbuilt' =>
      ih _ hframes' nofun hbuilt'
    -- A command without a body does not continue a chain.
    refine safeEnd_runNode value hbuilt (fun handler hfind hcontinues => ?_) (.nil _) .pure hcall
    have hopen := hblocks _ (hkeeps.continues hfind hcontinues)
    rw [Node.statement, hplain] at hopen
    cases hopen
  | block _ _ hplaced hbody _ ihbody ih =>
    refine safeEnd_cons hkeeps.toHasChains hframes ?_ fun hframes' hmark' hbuilt' =>
      ih _ hframes' hmark'.trans hbuilt'
    refine safeEnd_runNode value hbuilt (fun handler hfind hcontinues => ?_) hbody ?_ hcall
    · have hsome := hmark (hplaced (hkeeps.continues hfind hcontinues))
      rw [Environment.chain_of_frames hframes]
      exact Option.isSome_iff_ne_none.1 hsome
    · -- The body has a frame of its own, without a mark.
      exact fun value => safe_inFrame fun env hbuilt => ihbody value rfl nofun (hbuilt.of_eq rfl)

/-- Recorded bodies are safe, however many calls may be nested. -/
theorem safe_callWithin (hkeeps : setup.registry.KeepsChains) (hblocks : settings.KeepsChains)
    (budget : Nat) {nodes : List Node} (h : Program.WellFormed settings false nodes) (value : Value) :
    Safe settings (callWithin setup budget nodes value) := by
  induction budget generalizing nodes value with
  | zero => exact .throw nofun
  | succ budget ih =>
    rw [callWithin, runWithin_eq]
    exact safe_inFrame fun env hbuilt => safeEnd_runNodes hkeeps hblocks
      (fun body value hbody => ih hbody value) h value rfl nofun (hbuilt.of_eq rfl)

/-- Well-formed nodes can be executed where well-formed bodies are recorded. -/
theorem safe_execute (hkeeps : setup.registry.KeepsChains) (hblocks : settings.KeepsChains)
    {nodes : List Node} (h : Program.WellFormed settings false nodes) (value : Value) :
    Safe settings (execute setup nodes value) :=
  .get fun _ => safe_callWithin hkeeps hblocks (_ + 1) h value

end Nodes

end Pipeline
