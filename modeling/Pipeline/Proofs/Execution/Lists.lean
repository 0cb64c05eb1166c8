import Pipeline.Proofs.Execution.Changes
import Pipeline.Proofs.Execution.Machine

/-!
# What happens to lists

The own work of a handler leaves every list as it is.  It adds at most one new list, of values that are
no lists.  An element is replaced by one kind of step only: a loop goes on with what its body gave for
an element.

* `Command.adds_prepare` : the own work of all handlers.
* `Machine.touches_of_step` : what a step does to the lists.
-/

namespace Pipeline

/-- A store has the lists that were there, or one more, of values that are no lists. -/
inductive Store.Grows (store : Store) : Store → Prop where
  | same : Grows store store
  | added {elements : Array Value} : Flat elements → Grows store (store.alloc elements).2

/-- The changes that handlers make touch no list that is there. -/
theorem Environment.Changes.grows {body : Option (List Node)} {env left : Environment}
    (h : env.Changes body left) : env.store.Grows left.store := by
  cases h with
  | allocate hflat => exact .added hflat
  | mark state =>
    obtain ⟨frames, hframes⟩ := env.exists_setChain_eq state
    rw [hframes]
    exact .same
  | _ => exact .same

/-- A computation adds at most one list, of values that are no lists. -/
def Exec.Adds {α : Type} (m : Exec α) : Prop :=
  ∀ env : Environment, env.store.Grows (m env).2.store

/-- **No handler changes a list by its own work.** -/
theorem Command.adds_prepare (setup : Setup) (i : Invocation) (handler : Handler) :
    Exec.Adds (prepare setup i handler) := by
  intro env
  exact (changes_prepare setup i handler env).grows

/-! ### Steps -/

namespace Machine

variable {setup : Setup} {m next : Machine} {body : Option (List Node)} {value : Value}
  {tasks : List Task} {env : Environment}

theorem store_enter : (enter body value tasks env).env.store = env.store := by
  cases body <;> rfl

theorem store_nextElement (address index : Nat) :
    (nextElement body address index tasks env).env.store = env.store := by
  unfold nextElement
  split
  · rfl
  · exact store_enter

theorem store_perform (action : Action) :
    (perform body tasks env action).env.store = env.store := by
  cases action with
  | finish value => rfl
  | traverse address => exact store_nextElement address 0
  | _ => exact store_enter

/-- What a step does to the lists: at most one is added, or an element is replaced by what the body of a
loop gave for it. -/
inductive Touches (m : Machine) : Store → Prop where
  | grows {store : Store} : m.env.store.Grows store → Touches m store
  | writes {value : Value} {body : Option (List Node)} {address index : Nat} {tasks : List Task} :
      m.control = .result (.ok value) → m.tasks = .element body address index :: tasks →
      Touches m (m.env.store.write address index value)

theorem grows_invoke (node : Node) (handler : Handler) :
    env.store.Grows (invoke setup node value handler tasks env).env.store := by
  have hgrows := Command.adds_prepare setup (node.invocation value) handler
    (env.announce node.statement)
  rw [invoke]
  rcases hran : Command.prepare setup (node.invocation value) handler
    (env.announce node.statement) with ⟨fault | action, left⟩
  · rw [hran] at hgrows
    exact hgrows
  · rw [hran] at hgrows
    dsimp only
    rw [store_perform]
    exact hgrows

theorem touches_of_step (h : m.step? setup = some next) : m.Touches next.env.store := by
  obtain ⟨control, tasks, env⟩ := m
  cases control with
  | run nodes value =>
    cases nodes with
    | nil => cases h; exact .grows .same
    | cons node rest =>
      rw [step?] at h
      dsimp only at h
      split at h
      · cases h; exact .grows .same
      · cases h; exact .grows (grows_invoke _ _)
  | result result =>
    cases tasks with
    | nil => cases h
    | cons task tasks =>
      cases h
      cases task with
      | sequence rest => cases result <;> exact .grows .same
      | conclude node =>
        obtain ⟨frames, journal, hconcluded⟩ := env.exists_conclude_eq setup node result
        refine .grows ?_
        show env.store.Grows (env.conclude setup node result).store
        rw [hconcluded]
        exact .same
      | closeFrame => exact .grows .same
      | endCall => exact .grows .same
      | element body address index =>
        cases result with
        | error fault => exact .grows .same
        | ok value =>
          have hstore : (resume setup (.ok value) tasks env (.element body address index)).env.store =
              env.store.write address index value := store_nextElement address (index + 1)
          rw [hstore]
          exact .writes rfl rfl
      | again body =>
        cases result with
        | error fault => exact .grows .same
        | ok value =>
          have hstore : (resume setup (.ok value) tasks env (.again body)).env.store = env.store :=
            store_enter
          rw [hstore]
          exact .grows .same

end Machine

end Pipeline
