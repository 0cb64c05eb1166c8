import Pipeline.Proofs.Execution.Plans
import Pipeline.Proofs.Value.Acyclic

/-!
# What handlers change

The own work of a handler makes at most one change, and there are few kinds of changes: a variable, a
recorded body, a new list of values that are no lists, a printed line, a file that is asked for, and the
mark of a chain.  In particular no handler counts anything, and none writes a log record or a span.

* `Environment.Changes` : what at most one change leaves.
* `Command.changes_prepare` : the own work of all handlers.
-/

namespace Pipeline

/-- What at most one change of a handler with a body leaves of an environment. -/
inductive Environment.Changes (body : Option (List Node)) (env : Environment) : Environment → Prop where
  | nothing : Changes body env env
  | bind (name : String) (value : Value) : Changes body env (env.setVariable name value)
  | define (name : String) :
      Changes body env { env with functions := env.functions.insert name (body.getD []) }
  | allocate {elements : Array Value} : Store.Flat elements →
      Changes body env (env.newList elements).2
  | print (line : String) : Changes body env { env with printed := env.printed.push line }
  | ask (path : String) : Changes body env (env.ask path)
  | mark (state : Option Bool) : Changes body env (env.setChain state)

/-! ### Computations -/

namespace Exec

variable {α β : Type} {m : Exec α} {body : Option (List Node)}

/-- A computation changes nothing, however it ends. -/
def Looks (m : Exec α) : Prop :=
  ∀ env, (m env).2 = env

/-- A computation makes at most one change, however it ends. -/
def Changes (body : Option (List Node)) (m : Exec α) : Prop :=
  ∀ env : Environment, env.Changes body (m env).2

namespace Looks

theorem pure (a : α) : Looks (pure a) := by
  intro env
  rfl

theorem throw (fault : Fault) : Looks (throw fault : Exec α) := by
  intro env
  rfl

theorem of_looks {look : Environment → Except Fault α} (h : ∀ env, m env = (look env, env)) :
    Looks m := by
  intro env
  rw [h]

theorem get {f : Environment → Exec α} (hf : ∀ env, Looks (f env)) : Looks (get >>= f) := by
  intro env
  exact hf env env

theorem changes (hm : Looks m) : Changes body m := by
  intro env
  rw [hm env]
  exact .nothing

/-- Looking in front of a change is no change. -/
theorem before {f : α → Exec β} (hm : Looks m) (hf : ∀ a, Changes body (f a)) :
    Changes body (m >>= f) := by
  intro env
  have hleft := hm env
  rw [bind_apply]
  rcases hran : m env with ⟨fault | a, left⟩
  · rw [hran] at hleft
    dsimp only at hleft ⊢
    rw [hleft]
    exact .nothing
  · rw [hran] at hleft
    obtain rfl : left = env := hleft
    exact hf a left

end Looks

namespace Changes

/-- Nor is looking behind a change. -/
theorem behind {f : α → Exec β} (hm : Changes body m) (hf : ∀ a, Looks (f a)) :
    Changes body (m >>= f) := by
  intro env
  have hleft := hm env
  rw [bind_apply]
  rcases hran : m env with ⟨fault | a, left⟩
  · rw [hran] at hleft
    exact hleft
  · rw [hran] at hleft
    dsimp only
    rw [hf a left]
    exact hleft

theorem map (f : α → β) (hm : Changes body m) : Changes body (f <$> m) := by
  intro env
  rw [map_apply]
  exact hm env

end Changes

end Exec

/-! ### The own work of handlers -/

namespace Command

open Exec

variable (setup : Setup) {body : Option (List Node)}

theorem looks_wrongInput {α : Type} (command : String) (needed : ValueKind) (value : Value)
    (line : Int) : Looks (wrongInput command needed value line : Exec α) := by
  intro env
  cases value <;> rfl

theorem looks_chooseCall (line : Int) (name : String) (value : Value) :
    Looks (chooseCall setup line name value) := by
  apply Looks.get
  intro env
  cases env.functions.find? name with
  | none => exact .throw _
  | some body =>
    apply Looks.get
    intro env
    split
    · exact .throw _
    · exact .pure _

theorem changes_bindVariable (name : String) (value : Value) :
    Changes body (bindVariable name value) := by
  intro env
  exact .bind name value

theorem changes_printLine (line : String) : Changes body (printLine line) := by
  intro env
  exact .print line

/-- A file is asked for before it is looked at. -/
theorem changes_readText (line : Int) (path : String) : Changes body (readText setup line path) := by
  unfold readText
  dsimp only
  split
  · exact (Looks.throw _).changes
  · have asking : Changes body (modify (·.ask path)) := fun env => .ask path
    apply asking.behind
    intro _
    split
    · exact .throw _
    · split
      · exact .throw _
      · exact .pure _

theorem changes_chooseBranch (taken : Bool) (value : Value) :
    Changes body (chooseBranch taken value) := by
  have marking : Changes body (modify (·.setChain (some taken))) := fun env => .mark _
  exact marking.behind fun _ => .pure _

theorem changes_chooseNext (command : String) (line : Int) (value : Value) {branch : Exec Action}
    (hbranch : Changes body branch) : Changes body (chooseNext command line value branch) := by
  intro env
  rw [chooseNext, bind_apply, get_apply]
  dsimp only
  rcases env.chain with _ | _ | _
  · exact .nothing
  · exact hbranch env
  · exact .nothing

/-- A text is cut into strings. -/
theorem flat_pieces (pieces : List (List Char)) :
    Store.Flat (pieces.map fun piece => Value.string (String.ofList piece)).toArray := by
  intro element hmem address heq
  obtain ⟨piece, -, rfl⟩ := List.mem_map.1 (List.mem_toArray.1 hmem)
  cases heq

variable {command : StandardCommand} (i : Invocation)

theorem changes_ending (ending : Ending command) : Changes i.body (ending.run setup i) := by
  cases ending with
  | wrongArity allowed => exact (Looks.throw _).changes
  | wrongInput needed => exact (looks_wrongInput _ _ _ _).changes
  | finish value => exact (Looks.pure _).changes
  | bind name value => exact (changes_bindVariable name value).behind fun _ => .pure _
  | define name =>
    have recording : Changes i.body (modify fun env : Environment =>
        { env with functions := env.functions.insert name (i.body.getD []) }) :=
      fun env => .define name
    exact recording.behind fun _ => .pure _
  | allocate pieces =>
    apply Changes.map
    intro env
    exact .allocate (flat_pieces pieces)
  | print text => exact (changes_printLine text).behind fun _ => .pure _
  | read path => exact (changes_readText setup i.line path).behind fun text => .pure _
  | traverse address => exact (Looks.pure _).changes
  | call name => exact (looks_chooseCall setup i.line name i.value).changes
  | mark h taken => exact changes_chooseBranch taken i.value

/-- All looks of a plan are in front of its one ending. -/
theorem changes_plan (plan : Plan command) : Changes i.body (plan.run setup i) := by
  induction plan with
  | done ending => exact changes_ending setup i ending
  | look l next ih =>
    have hlook : Looks (l.run setup i.line) := .of_looks (l.run_apply setup i.line)
    exact hlook.before ih
  | ifOpen h next ih => exact changes_chooseNext _ _ _ ih

/-- **A handler makes at most one change by its own work.** -/
theorem changes_prepare (handler : Handler) : Changes i.body (prepare setup i handler) := by
  cases handler with
  | standard command =>
    rw [prepare_eq_plan]
    exact changes_plan setup i _
  | host handler =>
    by_cases hdepths : handler = .depths
    · subst hdepths
      apply Changes.map
      intro env
      apply Environment.Changes.allocate
      intro element hmem address heq
      subst heq
      simp at hmem
    · obtain ⟨result, hresult, -⟩ := prepare_host setup i hdepths
      have hlook : Looks (prepare setup i (.host handler)) :=
        .of_looks fun env => by rw [hresult, lift_apply]
      exact hlook.changes

end Command

end Pipeline
