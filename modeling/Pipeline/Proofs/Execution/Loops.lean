import Pipeline.Proofs.Execution.Lists

/-!
# Loops

A loop replaces the elements of its list in place, while its body may see the list, put it into a
variable and loop over it again.  What a loop does is told by its rounds.  A round starts with the
element that the list has then, and its result becomes an element of the list before the next round
looks at the list.

No list becomes longer or shorter, so there are as many rounds as elements unless one of them raises.
No step but the end of a round changes an element, and every round belongs to a loop that some state on
the way has started.  So what the elements are depends on one thing only, whether a body starts another
loop over the list.

* `LoopRuns` : the rounds of a loop, by how the list is read and written.
* `LoopRuns.ends`, `LoopRuns.element`, `LoopRuns.result`, `LoopRuns.unwritten` : how many rounds there
  are, what they start with, and what they leave.
* `elements_execute` : nodes that start no loop over a list leave its elements.
* `loops_in_place` : all of this for the loops and the executions of the language.
-/

namespace Pipeline

/-! ### Rounds -/

/-- A run of the body of a loop: the environment and the element it starts with, and its result. -/
structure Round where
  env : Environment
  element : Value
  result : Except Fault Value

/-- The rounds of a loop over a list, from an index on, and what comes out of the loop.  Before every
round the list is looked at anew; the loop ends where the list does, or with a round that raises. -/
inductive LoopRuns (run : Runner) (address : Nat) :
    (index : Nat) → Environment → List Round → Except Fault Value × Environment → Prop where
  | finished {index : Nat} {env : Environment} : (env.store.elements address)[index]? = none →
    LoopRuns run address index env [] (.ok (.list address), env)
  | raised {index : Nat} {env left : Environment} {element : Value} {fault : Fault} :
    (env.store.elements address)[index]? = some element → run element env = (.error fault, left) →
    LoopRuns run address index env [⟨env, element, .error fault⟩] (.error fault, left)
  | next {index : Nat} {env left : Environment} {element value : Value} {rounds : List Round}
    {ran : Except Fault Value × Environment} :
    (env.store.elements address)[index]? = some element → run element env = (.ok value, left) →
    LoopRuns run address (index + 1) { left with store := left.store.write address index value }
      rounds ran →
    LoopRuns run address index env (⟨env, element, .ok value⟩ :: rounds) ran

/-- How a loop comes out: with its list after a round for each of a number of elements, or as its last
round does, which raises. -/
inductive LoopEnds (run : Runner) (address count : Nat) (rounds : List Round)
    (ran : Except Fault Value × Environment) : Prop where
  | finished : rounds.length = count → (∀ round ∈ rounds, ∃ value, round.result = .ok value) →
    ran.1 = .ok (.list address) → LoopEnds run address count rounds ran
  | raised {earlier : List Round} {raising : Round} {fault : Fault} : rounds = earlier ++ [raising] →
    earlier.length < count → (∀ round ∈ earlier, ∃ value, round.result = .ok value) →
    raising.result = .error fault → ran.1 = .error fault → ran = run raising.element raising.env →
    LoopEnds run address count rounds ran

/-- The body of a round leaves the elements of a list as they are. -/
def Round.Leaves (run : Runner) (address : Nat) (round : Round) : Prop :=
  (run round.element round.env).2.store.elements address = round.env.store.elements address

/-- A runner makes no list longer or shorter. -/
def Runner.KeepsSizes (run : Runner) : Prop :=
  ∀ value (env : Environment) address, address < env.store.lists.size →
    ((run value env).2.store.elements address).size = (env.store.elements address).size

/-- The end of a round leaves the list as long as it was when the round started. -/
theorem Runner.KeepsSizes.size_write {run : Runner} (hrun : run.KeepsSizes) {env left : Environment}
    {address index : Nat} {element value : Value}
    (helement : (env.store.elements address)[index]? = some element)
    (hvalue : run element env = (.ok value, left)) :
    ((left.store.write address index value).elements address).size =
      (env.store.elements address).size := by
  have hleft := hrun element env address (Store.lt_size_of_mem (Array.mem_of_getElem? helement))
  rw [hvalue] at hleft
  rw [Store.size_elements_write, hleft]

namespace LoopRuns

variable {run : Runner} {address index : Nat} {env : Environment} {rounds : List Round}
  {ran : Except Fault Value × Environment}

/-- The first round starts where the loop does. -/
theorem env_of_head (h : LoopRuns run address index env rounds ran) {round : Round}
    (hround : rounds[0]? = some round) : round.env = env := by
  cases h with
  | finished => cases hround
  | raised => cases hround; rfl
  | next => cases hround; rfl

/-- The result of a round is that of the body. -/
theorem result_eq (h : LoopRuns run address index env rounds ran) {round : Round}
    (hround : round ∈ rounds) : round.result = (run round.element round.env).1 := by
  induction h with
  | finished => cases hround
  | raised _ hraised =>
    obtain rfl := List.mem_singleton.1 hround
    rw [hraised]
  | next _ hvalue _ ih =>
    rcases List.mem_cons.1 hround with rfl | hround
    · rw [hvalue]
    · exact ih hround

/-- There is a round for every element, unless one raises. -/
theorem ends (hrun : run.KeepsSizes) (h : LoopRuns run address index env rounds ran) {count : Nat}
    (hcount : (env.store.elements address).size = index + count) :
    LoopEnds run address count rounds ran := by
  induction h generalizing count with
  | finished hnone =>
    rw [Array.getElem?_eq_none_iff] at hnone
    exact .finished (by rw [List.length_nil]; omega) (List.forall_mem_nil _) rfl
  | raised hsome hraised =>
    have hlt := (Array.getElem?_eq_some_iff.1 hsome).1
    refine .raised (List.nil_append _).symm ?_ (List.forall_mem_nil _) rfl rfl hraised.symm
    rw [List.length_nil]
    omega
  | next hsome hvalue _ ih =>
    have hlt := (Array.getElem?_eq_some_iff.1 hsome).1
    obtain ⟨count, rfl⟩ : ∃ less, count = less + 1 := Nat.exists_eq_add_one.2 (by omega)
    have hleft := hrun.size_write hsome hvalue
    rw [hcount, ← Nat.succ_add_eq_add_succ] at hleft
    rcases ih hleft with ⟨hlength, hall, hran⟩ | ⟨rfl, hlength, hall, hresult, hfault, hran⟩
    · exact .finished (congrArg Nat.succ hlength) (List.forall_mem_cons.2 ⟨⟨_, rfl⟩, hall⟩) hran
    · exact .raised List.cons_append.symm (Nat.succ_lt_succ hlength)
        (List.forall_mem_cons.2 ⟨⟨_, rfl⟩, hall⟩) hresult hfault hran

/-- The list is as long as it was. -/
theorem size (hrun : run.KeepsSizes) (h : LoopRuns run address index env rounds ran) :
    (ran.2.store.elements address).size = (env.store.elements address).size := by
  induction h with
  | finished => rfl
  | @raised index env left element fault hsome hraised =>
    have hleft := hrun element env address (Store.lt_size_of_mem (Array.mem_of_getElem? hsome))
    rwa [hraised] at hleft
  | next hsome hvalue _ ih => exact ih.trans (hrun.size_write hsome hvalue)

/-! ### Elements -/

/-- What was an element elsewhere in the list before a round is one after it. -/
theorem getElem?_of_ne {left : Environment} {element value : Value} {result : Except Fault Value}
    {p : Nat} (hp : index ≠ p) (hvalue : run element env = (.ok value, left))
    (hleaves : Round.Leaves run address ⟨env, element, result⟩) :
    ((left.store.write address index value).elements address)[p]? =
      (env.store.elements address)[p]? := by
  rw [Round.Leaves, hvalue] at hleaves
  rw [Store.elements_write_self, hleaves, Array.getElem?_setIfInBounds_ne hp]

/-- The result of a round is the element after it. -/
theorem getElem?_self (hrun : run.KeepsSizes) {left : Environment} {element value : Value}
    (helement : (env.store.elements address)[index]? = some element)
    (hvalue : run element env = (.ok value, left)) :
    ((left.store.write address index value).elements address)[index]? = some value := by
  have hlt := (Array.getElem?_eq_some_iff.1 helement).1
  rw [← hrun.size_write helement hvalue, Store.size_elements_write] at hlt
  rw [Store.elements_write_self, Array.getElem?_setIfInBounds_self_of_lt hlt]

/-- A round starts with the element that was there before the loop, if the rounds before it leave the
elements. -/
theorem element (h : LoopRuns run address index env rounds ran) {k : Nat} {round : Round}
    (hround : rounds[k]? = some round)
    (hleaves : ∀ (j : Nat) earlier, j < k → rounds[j]? = some earlier → earlier.Leaves run address) :
    (env.store.elements address)[index + k]? = some round.element := by
  induction h generalizing k with
  | finished => cases hround
  | raised hsome =>
    cases k with
    | zero => cases hround; exact hsome
    | succ k => cases hround
  | next hsome hvalue _ ih =>
    cases k with
    | zero => cases hround; exact hsome
    | succ k =>
      -- the later rounds see the list as this one has left it, at an index that is not its own
      have hlater := ih hround fun j earlier hj hearlier =>
        hleaves (j + 1) earlier (Nat.succ_lt_succ hj) hearlier
      dsimp only at hlater
      rwa [getElem?_of_ne (by omega) hvalue (hleaves 0 _ (Nat.succ_pos k) rfl), Nat.add_right_comm,
        Nat.add_assoc] at hlater

/-- An element that no round has replaced is the one that was there before the loop, if all rounds
leave the elements. -/
theorem unwritten (h : LoopRuns run address index env rounds ran) {p : Nat}
    (hp : ∀ (k : Nat) round value, rounds[k]? = some round → round.result = .ok value → index + k ≠ p)
    (hleaves : ∀ (k : Nat) round, rounds[k]? = some round → round.Leaves run address) :
    (ran.2.store.elements address)[p]? = (env.store.elements address)[p]? := by
  induction h with
  | finished => rfl
  | raised hsome hraised =>
    have hleft := hleaves 0 _ List.getElem?_cons_zero
    rw [Round.Leaves, hraised] at hleft
    rw [hleft]
  | next hsome hvalue _ ih =>
    have hne := hp 0 _ _ List.getElem?_cons_zero rfl
    rw [ih]
    · exact getElem?_of_ne hne hvalue (hleaves 0 _ List.getElem?_cons_zero)
    · intro k round value hround hresult
      have hne := hp (k + 1) round value hround hresult
      omega
    · exact fun k round hround => hleaves (k + 1) round hround

/-- A result is an element in the end, if the rounds after it leave the elements. -/
theorem result (hrun : run.KeepsSizes) (h : LoopRuns run address index env rounds ran) {k : Nat}
    {round : Round} {value : Value} (hround : rounds[k]? = some round)
    (hresult : round.result = .ok value)
    (hleaves : ∀ (j : Nat) later, k < j → rounds[j]? = some later → later.Leaves run address) :
    (ran.2.store.elements address)[index + k]? = some value := by
  induction h generalizing k with
  | finished => cases hround
  | raised =>
    cases k with
    | zero => cases hround; cases hresult
    | succ k => cases hround
  | @next index env left element found rounds ran hsome hvalue hrest ih =>
    cases k with
    | zero =>
      cases hround
      cases hresult
      rw [Nat.add_zero, hrest.unwritten]
      · exact getElem?_self hrun hsome hvalue
      · intro k round value _ _
        omega
      · exact fun k later hlater => hleaves (k + 1) later (Nat.succ_pos k) hlater
    | succ k =>
      rw [← Nat.succ_add_eq_add_succ]
      exact ih hround fun j later hj hlater => hleaves (j + 1) later (Nat.succ_lt_succ hj) hlater

/-- The round after a result finds the result in the list. -/
theorem seen (hrun : run.KeepsSizes) (h : LoopRuns run address index env rounds ran) {k : Nat}
    {round later : Round} (hround : rounds[k]? = some round) (hlater : rounds[k + 1]? = some later) :
    ∃ value, round.result = .ok value ∧
      (later.env.store.elements address)[index + k]? = some value := by
  induction h generalizing k with
  | finished => cases hround
  | raised => cases hlater
  | @next index env left element value rounds ran hsome hvalue hrest ih =>
    cases k with
    | zero =>
      cases hround
      refine ⟨value, rfl, ?_⟩
      rw [hrest.env_of_head hlater]
      exact getElem?_self hrun hsome hvalue
    | succ k =>
      rw [← Nat.succ_add_eq_add_succ]
      exact ih hround hlater

end LoopRuns

/-! ### Loops of the machine -/

namespace Machine

variable {setup : Setup} {address calls : Nat} {m next last : Machine} {body : Option (List Node)}
  {value : Value} {task : Task} {tasks : List Task} {env : Environment}

/-- The next step starts a loop over a list. -/
def StartsLoop (setup : Setup) (address : Nat) (m : Machine) : Prop :=
  ∃ node rest, m.control = .run (node :: rest) (.list address) ∧
    setup.registry.find? node.statement.command = some (.standard .foreach) ∧
    node.statement.args = []

/-- No step from here on starts a loop over a list. -/
def Quiet (setup : Setup) (address : Nat) (m : Machine) : Prop :=
  ∀ calls last, Takes setup calls m last → ¬last.StartsLoop setup address

theorem Quiet.step (h : m.Quiet setup address) (hstep : m.step? setup = some next) :
    next.Quiet setup address :=
  fun _ last htakes => h _ last (.step hstep htakes)

theorem quiet_of_step (hm : ¬m.StartsLoop setup address)
    (hnext : ∀ next, m.step? setup = some next → next.Quiet setup address) :
    m.Quiet setup address := by
  rintro _ _ (_ | ⟨hstep, htakes⟩)
  · exact hm
  · exact hnext _ hstep _ _ htakes

/-- Only a machine that is about to run a node may start a loop. -/
theorem quiet_of_idle (hm : ∀ node rest value, m.control ≠ .run (node :: rest) value)
    (hnext : ∀ next, m.step? setup = some next → next.Quiet setup address) :
    m.Quiet setup address :=
  quiet_of_step (fun ⟨node, rest, hrun, _⟩ => hm node rest _ hrun) hnext

/-- A task belongs to a loop over a list. -/
def LoopsOver (address : Nat) : Task → Prop
  | .element _ other _ => other = address
  | _ => False

/-- Among some tasks is a loop over a list that goes on. -/
def InLoop (address : Nat) (tasks : List Task) : Prop :=
  ∃ task ∈ tasks, LoopsOver address task

theorem inLoop_cons : InLoop address (task :: tasks) ↔ LoopsOver address task ∨ InLoop address tasks := by
  simp only [InLoop, List.mem_cons, or_and_right, exists_or, exists_eq_left]

theorem inLoop_enter (h : InLoop address (enter body value tasks env).tasks) :
    InLoop address tasks := by
  cases body with
  | none => exact h
  | some nodes => exact (inLoop_cons.1 h).resolve_left id

theorem inLoop_nextElement {other index : Nat}
    (h : InLoop address (nextElement body other index tasks env).tasks) :
    other = address ∨ InLoop address tasks := by
  unfold nextElement at h
  split at h
  · exact .inr h
  · exact inLoop_cons.1 (inLoop_enter h)

theorem inLoop_perform {action : Action}
    (h : InLoop address (perform body tasks env action).tasks) :
    action = .traverse address ∨ InLoop address tasks := by
  cases action with
  | finish value => exact .inr h
  | enter value => exact .inr (inLoop_enter h)
  | twice value => exact .inr ((inLoop_cons.1 (inLoop_enter h)).resolve_left id)
  | traverse other => exact (inLoop_nextElement h).imp_left (congrArg Action.traverse)
  | call nodes value => exact .inr ((inLoop_cons.1 (inLoop_enter h)).resolve_left id)

/-- A loop over a list begins with the call of its handler. -/
theorem inLoop_invoke {node : Node} {handler : Handler}
    (h : InLoop address (invoke setup node value handler tasks env).tasks) :
    (handler = .standard .foreach ∧ node.statement.args = [] ∧ value = .list address) ∨
      InLoop address tasks := by
  have hasks := Command.asks_prepare setup (node.invocation value) handler
    (env.announce node.statement)
  rw [invoke] at h
  generalize Command.prepare setup (node.invocation value) handler (env.announce node.statement) =
    ran at h hasks
  obtain ⟨fault | action, left⟩ := ran
  · exact .inr h
  · refine (inLoop_perform h).imp_left ?_
    rintro rfl
    cases hasks with
    | traverse _ hhandler hargs hvalue => exact ⟨hhandler, hargs, hvalue⟩

/-- A loop over a list was running before a step, if the step has not started it. -/
theorem inLoop_of_step (hstep : m.step? setup = some next) (h : InLoop address next.tasks) :
    InLoop address m.tasks ∨ m.StartsLoop setup address := by
  obtain ⟨control, tasks, env⟩ := m
  cases control with
  | run nodes value =>
    cases nodes with
    | nil => cases hstep; exact .inl h
    | cons node rest =>
      rw [step?] at hstep
      dsimp only at hstep
      split at hstep
      · cases hstep; exact .inl h
      · next handler hfind =>
        cases hstep
        rcases inLoop_invoke h with ⟨rfl, hargs, rfl⟩ | htasks
        · exact .inr ⟨node, rest, rfl, hfind, hargs⟩
        · have htasks := (inLoop_cons.1 htasks).resolve_left id
          exact .inl ((inLoop_cons.1 htasks).resolve_left id)
  | result result =>
    cases tasks with
    | nil => cases hstep
    | cons task tasks =>
      cases hstep
      refine .inl ?_
      cases task with
      | element body other index =>
        cases result with
        | error fault => exact inLoop_cons.2 (.inr h)
        | ok value => exact inLoop_cons.2 (inLoop_nextElement h)
      | again body =>
        cases result with
        | error fault => exact inLoop_cons.2 (.inr h)
        | ok value => exact inLoop_cons.2 (.inr (inLoop_enter h))
      | sequence rest => cases result <;> exact inLoop_cons.2 (.inr h)
      | _ => exact inLoop_cons.2 (.inr h)

/-- A step leaves the elements of a list as they are, or it ends a round of a loop over this list. -/
theorem elements_of_step (hstep : m.step? setup = some next)
    (haddress : address < m.env.store.lists.size) :
    next.env.store.elements address = m.env.store.elements address ∨
      ∃ value body index tasks, m.control = .result (.ok value) ∧
        m.tasks = .element body address index :: tasks ∧
        next.env.store.elements address =
          (m.env.store.elements address).setIfInBounds index value := by
  have htouches := touches_of_step hstep
  generalize next.env.store = store at htouches ⊢
  cases htouches with
  | grows hgrows =>
    cases hgrows with
    | same => exact .inl rfl
    | added => exact .inl (Store.elements_alloc_of_ne _ haddress.ne)
  | @writes value body other index tasks hcontrol htasks =>
    by_cases hother : address = other
    · subst hother
      exact .inr ⟨value, body, index, tasks, hcontrol, htasks, Store.elements_write_self⟩
    · exact .inl (Store.elements_write_of_ne hother)

theorem size_le_of_step (hstep : m.step? setup = some next) :
    m.env.store.lists.size ≤ next.env.store.lists.size := by
  have htouches := touches_of_step hstep
  generalize next.env.store = store at htouches ⊢
  cases htouches with
  | grows hgrows =>
    cases hgrows with
    | same => exact Nat.le_refl _
    | added =>
      rw [Store.alloc, Array.size_push]
      exact Nat.le_succ _
  | writes =>
    rw [Store.write, Array.size_modify]

/-- Steps of which none starts a loop over a list leave its elements as they are, if no loop over it
was running before. -/
theorem elements_of_takes (htakes : Takes setup calls m last) (hloop : ¬InLoop address m.tasks)
    (haddress : address < m.env.store.lists.size) (hquiet : m.Quiet setup address) :
    last.env.store.elements address = m.env.store.elements address := by
  induction htakes with
  | refl => rfl
  | @step m next last calls hstep _ ih =>
    have hnext : ¬InLoop address next.tasks := fun h =>
      (inLoop_of_step hstep h).elim hloop (hquiet _ m (.refl m))
    have helements : next.env.store.elements address = m.env.store.elements address := by
      refine (elements_of_step hstep haddress).resolve_right ?_
      rintro ⟨value, body, index, tasks, -, htasks, -⟩
      exact hloop (htasks ▸ inLoop_cons.2 (.inl rfl))
    rw [ih hnext (haddress.trans_le (size_le_of_step hstep)) (hquiet.step hstep), helements]

/-- There is one end of a run. -/
theorem Reaches.unique {ran left : Except Fault Value × Environment}
    (h : Reaches setup m [] ran) (hleft : Reaches setup m [] left) : ran = left := by
  obtain ⟨calls, h⟩ := h
  obtain ⟨all, hleft⟩ := hleft
  obtain ⟨more, -, hrest⟩ := h.exists_rest hleft rfl
  obtain ⟨result, env⟩ := ran
  obtain ⟨result', env'⟩ := left
  cases hrest with
  | refl => rfl
  | step hstep => cases hstep

end Machine

/-! ### Executions -/

/-- The body of a round starts no other loop over the list. -/
def Round.IsQuiet (setup : Setup) (address : Nat) (nodes : List Node) (round : Round) : Prop :=
  (Machine.start nodes round.element round.env).Quiet setup address

/-- Executing nodes leaves the elements of every list over which it starts no loop. -/
theorem elements_execute {setup : Setup} {address : Nat} {nodes : List Node} {value : Value}
    {env : Environment}
    (h : (Machine.start nodes value env).Quiet setup address)
    (haddress : address < env.store.lists.size) :
    (execute setup nodes value env).2.store.elements address = env.store.elements address := by
  obtain ⟨calls, htakes⟩ := Machine.reaches_execute setup nodes value env
  have hloop : ¬Machine.InLoop address (Machine.start nodes value env).tasks := by
    intro h
    obtain ⟨task, hmem, -⟩ := Machine.inLoop_enter h
    exact List.not_mem_nil hmem
  have helements := Machine.elements_of_takes htakes hloop haddress h
  exact helements

section

variable (setup : Setup)

theorem keepsSizes_execute (nodes : List Node) : Runner.KeepsSizes (execute setup nodes) :=
  fun value env address haddress =>
    (extends_of_agrees (fun L => L.execute 1 0 nodes value) env).elements address haddress

/-- The body of a command is executed as nodes are, with as many calls as may still be nested. -/
theorem runBody_eq_execute {budget : Nat} (body : Option (List Node)) (value : Value)
    {env : Environment} (hroom : Machine.Room setup budget env) :
    runBody setup (callWithin setup budget) body value env =
      execute setup (body.getD []) value env := by
  cases body with
  | none =>
    rw [execute, Exec.bind_apply, Exec.get_apply]
    dsimp only [Option.getD_none]
    rw [runWithin_eq]
    rfl
  | some nodes =>
    have hbody : Machine.Reaches setup (.start nodes value env) []
        (runBody setup (callWithin setup budget) (some nodes) value env) :=
      Machine.reaches_enter (Machine.reaches_runNodes (Machine.calls setup budget) nodes hroom)
    exact hbody.unique (Machine.reaches_execute setup nodes value env)

/-- Replacing the elements of a list from an index on goes in rounds. -/
theorem exists_loopRuns {budget : Nat} (body : Option (List Node)) (address index remaining : Nat)
    {env : Environment} (hroom : Machine.Room setup budget env)
    (hsize : (env.store.elements address).size = index + remaining) :
    ∃ rounds, LoopRuns (execute setup (body.getD [])) address index env rounds
      ((Command.replaceElements (runBody setup (callWithin setup budget) body) address index
        remaining >>= fun _ => pure (.list address)) env) := by
  induction remaining generalizing index env with
  | zero =>
    refine ⟨[], .finished ?_⟩
    rw [Array.getElem?_eq_none_iff]
    omega
  | succ remaining ih =>
    -- the element is there, as no round before has made the list shorter
    have hindex : index < (env.store.elements address).size := by omega
    have hsome := Array.getElem?_eq_getElem hindex
    generalize (env.store.elements address)[index] = element at hsome
    have hleft := extends_runBody setup budget body element env
    rw [Command.replaceElements, bind_assoc, Exec.bind_apply, Exec.get_apply]
    dsimp only
    rw [hsome, Option.getD_some, bind_assoc, Exec.bind_apply]
    rw [runBody_eq_execute setup body element hroom] at hleft ⊢
    rcases hran : execute setup (body.getD []) element env with ⟨fault | value, left⟩
    · exact ⟨_, .raised hsome hran⟩
    · rw [hran] at hleft
      have hroom : Machine.Room setup budget left := hroom.of_extends hleft
      have hwritten : ((left.store.write address index value).elements address).size =
          index + 1 + remaining := by
        rw [(keepsSizes_execute setup (body.getD [])).size_write hsome hran]
        omega
      obtain ⟨rounds, hrounds⟩ := @ih (index + 1)
        { left with store := left.store.write address index value } hroom hwritten
      exact ⟨_, .next hsome hran hrounds⟩

end

/-- Rounds with a quiet body leave the elements. -/
theorem LoopRuns.leaves {setup : Setup} {nodes : List Node} {address index : Nat} {env : Environment}
    {rounds : List Round} {ran : Except Fault Value × Environment}
    (h : LoopRuns (execute setup nodes) address index env rounds ran) {round : Round}
    (hround : round ∈ rounds) (hquiet : round.IsQuiet setup address nodes) :
    round.Leaves (execute setup nodes) address := by
  refine elements_execute hquiet ?_
  induction h with
  | finished => cases hround
  | raised hsome =>
    obtain rfl := List.mem_singleton.1 hround
    exact Store.lt_size_of_mem (Array.mem_of_getElem? hsome)
  | next hsome _ _ ih =>
    rcases List.mem_cons.1 hround with rfl | hround
    · exact Store.lt_size_of_mem (Array.mem_of_getElem? hsome)
    · exact ih hround

/-- What a loop over a list does that runs nodes for every element. -/
structure InPlace (setup : Setup) (nodes : List Node) (address : Nat) (env : Environment)
    (rounds : List Round) (ran : Except Fault Value × Environment) : Prop where
  /-- The rounds are those from the first element on. -/
  runs : LoopRuns (execute setup nodes) address 0 env rounds ran
  /-- The list is as long as it was. -/
  size : (ran.2.store.elements address).size = (env.store.elements address).size
  /-- There is a round for every element, and the result is the list itself; or a round raises, is the
  last one, and leaves everything as it is afterwards. -/
  ends : LoopEnds (execute setup nodes) address (env.store.elements address).size rounds ran
  /-- A result is in the list when the next round starts. -/
  seen (k : Nat) (round later : Round) : rounds[k]? = some round → rounds[k + 1]? = some later →
    ∃ value, round.result = .ok value ∧ (later.env.store.elements address)[k]? = some value
  /-- A round starts with the element from before the loop, if no round before it has started another
  loop over the list. -/
  element (k : Nat) (round : Round) : rounds[k]? = some round →
    (∀ (j : Nat) earlier, j < k → rounds[j]? = some earlier →
      earlier.IsQuiet setup address nodes) →
    (env.store.elements address)[k]? = some round.element
  /-- A result is an element in the end, if no round after it has started another loop over the
  list. -/
  result (k : Nat) (round : Round) (value : Value) : rounds[k]? = some round →
    round.result = .ok value →
    (∀ (j : Nat) later, k < j → rounds[j]? = some later → later.IsQuiet setup address nodes) →
    (ran.2.store.elements address)[k]? = some value
  /-- Where no round has come to a result the element is the one from before the loop, if no round has
  started another loop over the list. -/
  unwritten (p : Nat) : (∀ round ∈ rounds, round.IsQuiet setup address nodes) →
    (∀ round value, rounds[p]? = some round → round.result ≠ .ok value) →
    (ran.2.store.elements address)[p]? = (env.store.elements address)[p]?

/-- Every loop that executes nodes for the elements of its list works in place. -/
theorem LoopRuns.inPlace {setup : Setup} {nodes : List Node} {address : Nat} {env : Environment}
    {rounds : List Round} {ran : Except Fault Value × Environment}
    (h : LoopRuns (execute setup nodes) address 0 env rounds ran) :
    InPlace setup nodes address env rounds ran := by
  have hrun := keepsSizes_execute setup nodes
  have hleaves {k : Nat} {round : Round} (hround : rounds[k]? = some round)
      (hquiet : round.IsQuiet setup address nodes) : round.Leaves (execute setup nodes) address :=
    h.leaves (List.mem_of_getElem? hround) hquiet
  refine ⟨h, h.size hrun, h.ends hrun (Nat.zero_add _).symm, ?seen, ?element, ?result, ?unwritten⟩
  case seen =>
    intro k round later hround hlater
    have hseen := h.seen hrun hround hlater
    rwa [Nat.zero_add] at hseen
  case element =>
    intro k round hround hquiet
    have helement := h.element hround fun j earlier hj hearlier =>
      hleaves hearlier (hquiet j earlier hj hearlier)
    rwa [Nat.zero_add] at helement
  case result =>
    intro k round value hround hresult hquiet
    have hvalue := h.result hrun hround hresult fun j later hj hlater =>
      hleaves hlater (hquiet j later hj hlater)
    rwa [Nat.zero_add] at hvalue
  case unwritten =>
    intro p hquiet hp
    refine h.unwritten ?_ fun k round hround =>
      hleaves hround (hquiet round (List.mem_of_getElem? hround))
    rintro k round value hround hresult rfl
    rw [Nat.zero_add] at hp
    exact hp round value hround hresult

/-- **Loops work in place, and nothing else changes a list.**  A step leaves the elements of a list as
they are, or it ends a round of a loop over this list.  An execution makes no list longer or shorter
that was there, and if it starts no loop over a list it leaves the elements.  A loop, whose handler is
called with a budget for as many calls as may still be nested, runs its body for the elements in order;
what this does to the list is known as far as the body starts no other loop over it. -/
theorem loops_in_place (setup : Setup) :
    (∀ m next address, Machine.step? setup m = some next → address < m.env.store.lists.size →
      next.env.store.elements address = m.env.store.elements address ∨
        ∃ value body index tasks, m.control = .result (.ok value) ∧
          m.tasks = .element body address index :: tasks ∧
          next.env.store.elements address =
            (m.env.store.elements address).setIfInBounds index value) ∧
    (∀ nodes value (env : Environment) address, address < env.store.lists.size →
      let left := (execute setup nodes value env).2
      (left.store.elements address).size = (env.store.elements address).size ∧
        ((Machine.start nodes value env).Quiet setup address →
          left.store.elements address = env.store.elements address)) ∧
    ∀ budget line body address env, Machine.Room setup budget env →
      let call := callWithin setup budget
      let invocation : Invocation := ⟨.list address, [], line, body⟩
      ∃ rounds, InPlace setup (body.getD []) address env rounds
        (Command.standard setup call (runBody setup call body) invocation .foreach env) := by
  refine ⟨fun m next address hstep => Machine.elements_of_step hstep, ?_, ?_⟩
  · intro nodes value env address haddress
    exact ⟨keepsSizes_execute setup nodes value env address haddress,
      fun hquiet => elements_execute hquiet haddress⟩
  · intro budget line body address env hroom call invocation
    obtain ⟨rounds, hrounds⟩ := exists_loopRuns setup body address 0 _ hroom (Nat.zero_add _).symm
    exact ⟨rounds, LoopRuns.inPlace hrounds⟩

/-- Two strings in the list of a variable. -/
def twoStrings : Environment :=
  { bindings := { entries := [("l", .list 0)] }
    store := { lists := #[#[.string "a", .string "b"]] } }

/-- A body that gives a number. -/
def giveOne : List Node :=
  [.simple ⟨2, "set", [.operand ⟨.number, "1"⟩]⟩]

theorem quiet_giveOne (value : Value) (env : Environment) :
    (Machine.start giveOne value env).Quiet {} 0 := by
  have hset : ({} : Setup).registry.find? "set" = some (.standard .set) := rfl
  refine Machine.quiet_of_step ?_ fun m h => ?_
  · rintro ⟨node, rest, hcontrol, hfind, -⟩
    cases hcontrol
    cases hset.symm.trans hfind
  -- what follows only concludes the statement and the body
  cases h
  refine Machine.quiet_of_idle (fun _ _ _ h => nomatch h) fun m h => ?_
  cases h
  refine Machine.quiet_of_idle (fun _ _ _ h => nomatch h) fun m h => ?_
  cases h
  refine Machine.quiet_of_idle (fun _ _ _ h => nomatch h) fun m h => ?_
  cases h
  refine Machine.quiet_of_idle (fun _ _ _ h => nomatch h) fun m h => ?_
  cases h
  exact Machine.quiet_of_idle (fun _ _ _ h => nomatch h) fun m h => nomatch h

/-- Both strings become the number. -/
theorem loops_in_place_two_strings :
    let call := callWithin {} 100
    let ran := Command.standard {} call (runBody {} call (some giveOne))
      ⟨.list 0, [], 1, some giveOne⟩ .foreach twoStrings
    Machine.Room {} 100 twoStrings ∧
      ∃ rounds, InPlace {} giveOne 0 twoStrings rounds ran ∧ rounds.length = 2 ∧
        (∀ round ∈ rounds, round.IsQuiet {} 0 giveOne) ∧
        ran.2.store.elements 0 = #[.number 1, .number 1] := by
  intro call ran
  have hafter : ran.2.store.elements 0 = #[.number 1, .number 1] := rfl
  have hok : ran.1 = .ok (.list 0) := rfl
  have hroom : Machine.Room {} 100 twoStrings := Int.le_refl 100
  obtain ⟨rounds, h⟩ : ∃ rounds, InPlace {} giveOne 0 twoStrings rounds ran :=
    (loops_in_place {}).2.2 100 1 (some giveOne) 0 twoStrings hroom
  refine ⟨hroom, rounds, h, ?_, fun round _ => quiet_giveOne round.element round.env, hafter⟩
  rcases h.ends with ⟨hlength, -, -⟩ | ⟨-, -, -, -, hfault, -⟩
  · exact hlength
  · rw [hok] at hfault
    cases hfault

/-- A body that loops over the list in a variable, and then splits the element. -/
def overwriting : List Node :=
  [.simple ⟨5, "store", [.operand ⟨.variable, "x"⟩]⟩, .simple ⟨6, "set", [.operand ⟨.variable, "l"⟩]⟩,
    .block ⟨7, "foreach", []⟩ [.simple ⟨8, "set", [.operand ⟨.number, "1"⟩]⟩],
    .simple ⟨10, "set", [.operand ⟨.variable, "x"⟩]⟩, .simple ⟨11, "split", [.operand ⟨.string, ","⟩]⟩]

/-- What the loop over the two strings comes out with that has this body. -/
def overwritten : Except Fault Value × Environment :=
  Command.standard {} (callWithin {} 100) (runBody {} (callWithin {} 100) (some overwriting))
    ⟨.list 0, [], 4, some overwriting⟩ .foreach twoStrings

/-- The second round raises, and has put a number in the place of what the first round had found. -/
theorem exists_overwritten :
    ∃ first raising fault, InPlace {} overwriting 0 twoStrings [first, raising] overwritten ∧
      first.result = .ok (.list 1) ∧ raising.result = .error fault ∧
      (overwritten.2.store.elements 0)[0]? = some (.number 1) := by
  have hleft : (overwritten.2.store.elements 0)[0]? = some (.number 1) := rfl
  have hraised : overwritten.1.isOk = false := rfl
  have hfirst : (execute {} overwriting (.string "a") twoStrings).1 = .ok (.list 1) := rfl
  have hroom : Machine.Room {} 100 twoStrings := Int.le_refl 100
  obtain ⟨rounds, hrounds⟩ := exists_loopRuns {} (some overwriting) 0 0 2 hroom rfl
  have hruns : LoopRuns (execute {} overwriting) 0 0 twoStrings rounds overwritten := hrounds
  rcases hruns.inPlace.ends with ⟨-, -, hok⟩ |
    @⟨earlier, raising, fault, rfl, hlength, -, hfault, -, hran⟩
  · rw [hok] at hraised
    cases hraised
  have hstart {first : Round} (h : (earlier ++ [raising])[0]? = some first) :
      first.env = twoStrings ∧ first.element = .string "a" := by
    have helement := hruns.inPlace.element 0 first h fun j _ hj => absurd hj (Nat.not_lt_zero j)
    exact ⟨hruns.env_of_head h, (Option.some.inj helement).symm⟩
  rcases earlier with _ | ⟨first, _ | ⟨second, rest⟩⟩
  · obtain ⟨henv, helement⟩ := hstart rfl
    rw [henv, helement] at hran
    rw [hran, hfirst] at hraised
    cases hraised
  · obtain ⟨henv, helement⟩ := hstart rfl
    have hresult := hruns.result_eq List.mem_cons_self
    rw [henv, helement, hfirst] at hresult
    exact ⟨first, raising, fault, hruns.inPlace, hresult, hfault, hleft⟩
  · exact absurd hlength (by simp [twoStrings, Store.elements])

end Pipeline
