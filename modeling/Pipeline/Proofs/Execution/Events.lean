import Pipeline.Proofs.Execution.Changes
import Pipeline.Proofs.Execution.Soundness

/-!
# What a run tells

An execution leaves three accounts of itself: how often each command was executed, the log records, and
the finished spans.  All three come from two kinds of events.  A handler is called, which is counted and
recorded; and a handler ends, with a result or with a fault, which leaves a span if it is that of a block.
Whatever else a step does is in none of the accounts.

* `Machine.shows_step` : what a step does to the accounts, and to the handlers that are running.
* `Machine.Tells` : the events of some steps.
* `Machine.Tells.account`, `Machine.Tells.perm` : what follows for the accounts of a run.
* `Machine.Tells.unfailed`, `Machine.Tells.after_error` : no handler ends with a fault before the fault is
  raised, and then all do that are running, the innermost first.
-/

namespace Pipeline

/-! ### Events -/

/-- What can be seen of a run from outside. -/
inductive Event where
  /-- The handler of a node is called. -/
  | called (node : Node)
  /-- The handler of a node ends, perhaps with a fault. -/
  | ended (node : Node) (failed : Bool)

namespace Event

/-- The node whose handler is called. -/
def called? : Event → Option Node
  | .called node => some node
  | .ended _ _ => none

/-- The node whose handler ends, and whether it fails. -/
def ended? : Event → Option (Node × Bool)
  | .called _ => none
  | .ended node failed => some (node, failed)

end Event

/-- The nodes whose handlers are called, in this order. -/
def callsOf (events : List Event) : List Node :=
  events.filterMap Event.called?

/-- The nodes whose handlers end, in this order, and which of them fail. -/
def endsOf (events : List Event) : List (Node × Bool) :=
  events.filterMap Event.ended?

@[simp] theorem callsOf_append (a b : List Event) : callsOf (a ++ b) = callsOf a ++ callsOf b :=
  List.filterMap_append

@[simp] theorem endsOf_append (a b : List Event) : endsOf (a ++ b) = endsOf a ++ endsOf b :=
  List.filterMap_append

/-! ### Accounts -/

/-- What an execution leaves for those who look at it from outside. -/
structure Account where
  counts : Table Nat
  records : Array LogRecord
  spans : Array Span

/-- The accounts in an environment. -/
def Environment.account (env : Environment) : Account :=
  ⟨env.counts, env.journal.records, env.journal.spans⟩

/-- The log record of a node whose handler is called. -/
def Node.record (node : Node) : LogRecord :=
  ⟨.debug, s!"line {node.statement.line}: {node.statement.command} ({node.statement.args.length} args)"⟩

/-- The span of a block whose handler has ended. -/
def Node.span (node : Node) (failed : Bool) : Span :=
  ⟨"block:" ++ node.statement.command, some node.statement.line, failed⟩

/-- The accounts behind an event. -/
def Account.after (account : Account) : Event → Account
  | .called node =>
    { account with
      counts := account.counts.insert node.statement.command
        ((account.counts.find? node.statement.command).getD 0 + 1)
      records := account.records.push node.record }
  | .ended node failed =>
    if node.isBlock then { account with spans := account.spans.push (node.span failed) } else account

/-- The spans of the blocks among nodes whose handlers have ended. -/
def blockSpans (ends : List (Node × Bool)) : List Span :=
  (ends.filter (·.1.isBlock)).map fun ending => ending.1.span ending.2

theorem blockSpans_append (a b : List (Node × Bool)) :
    blockSpans (a ++ b) = blockSpans a ++ blockSpans b := by
  simp [blockSpans]

theorem failed_of_mem_blockSpans {ends : List (Node × Bool)} (h : ∀ ending ∈ ends, ending.2 = false) :
    ∀ span ∈ blockSpans ends, span.failed = false := by
  intro span hspan
  obtain ⟨ending, hending, rfl⟩ := List.mem_map.1 hspan
  exact h ending (List.mem_filter.1 hending).1

theorem blockSpans_failing (nodes : List Node) :
    blockSpans (nodes.map (·, true)) = (nodes.filter Node.isBlock).map (·.span true) := by
  rw [blockSpans, List.filter_map, List.map_map]
  rfl

/-- Counting a name once more adds one to the sum of all counts. -/
theorem Table.total_insert (counts : Table Nat) (name : String) :
    (counts.insert name ((counts.find? name).getD 0 + 1)).total = counts.total + 1 := by
  obtain ⟨entries⟩ := counts
  simp only [insert, find?, total]
  induction entries with
  | nil => rfl
  | cons entry rest ih =>
    by_cases h : entry.1 = name
    · simp only [insertEntry, findEntry, if_pos h, Option.getD_some, List.foldr_cons]
      omega
    · simp only [insertEntry, findEntry, if_neg h, List.foldr_cons, ih]
      omega

/-- How often a name was counted. -/
def Table.countOf (counts : Table Nat) (name : String) : Nat :=
  (counts.find? name).getD 0

namespace Account

theorem countOf_after (account : Account) (event : Event) (command : String) :
    (account.after event).counts.countOf command = account.counts.countOf command +
      (callsOf [event]).countP (·.statement.command = command) := by
  cases event with
  | called node =>
    have hcalls : callsOf [.called node] = [node] := rfl
    simp only [Table.countOf, after, Table.find?_insert, hcalls, List.countP_singleton]
    by_cases h : command = node.statement.command
    · simp [h]
    · simp [h, Ne.symm h]
  | ended node failed =>
    unfold after
    dsimp only
    split <;> rfl

section

variable (events : List Event) (account : Account)

/-- Every call of a handler is counted. -/
theorem countOf_foldl (command : String) : (events.foldl after account).counts.countOf command =
    account.counts.countOf command + (callsOf events).countP (·.statement.command = command) := by
  induction events generalizing account with
  | nil => rfl
  | cons event rest ih =>
    have hcalls : callsOf (event :: rest) = callsOf [event] ++ callsOf rest :=
      callsOf_append [event] rest
    rw [List.foldl_cons, ih, countOf_after, hcalls, List.countP_append]
    omega

theorem total_foldl : (events.foldl after account).counts.total =
    account.counts.total + (callsOf events).length := by
  induction events generalizing account with
  | nil => rfl
  | cons event rest ih =>
    rw [List.foldl_cons, ih]
    cases event with
    | called node =>
      show (account.counts.insert _ _).total + _ = _ + (callsOf rest).length.succ
      rw [Table.total_insert]
      omega
    | ended node failed =>
      unfold after
      dsimp only
      split <;> rfl

/-- Every call of a handler is recorded. -/
theorem records_foldl : (events.foldl after account).records.toList =
    account.records.toList ++ (callsOf events).map Node.record := by
  induction events generalizing account with
  | nil => simp [callsOf]
  | cons event rest ih =>
    rw [List.foldl_cons, ih]
    cases event with
    | called node => simp [after, callsOf, Event.called?]
    | ended node failed =>
      unfold after
      dsimp only
      split <;> rfl

/-- The end of every handler of a block leaves a span. -/
theorem spans_foldl : (events.foldl after account).spans.toList =
    account.spans.toList ++ blockSpans (endsOf events) := by
  induction events generalizing account with
  | nil => simp [endsOf, blockSpans]
  | cons event rest ih =>
    rw [List.foldl_cons, ih]
    cases event with
    | called node => rfl
    | ended node failed =>
      by_cases hblock : node.isBlock = true
      · simp [after, blockSpans, endsOf, Event.ended?, hblock]
      · simp [after, blockSpans, endsOf, Event.ended?, hblock]

end

end Account

namespace Environment

theorem account_announce (env : Environment) (node : Node) :
    (env.announce node.statement).account = env.account.after (.called node) := rfl

theorem account_setChain (env : Environment) (state : Option Bool) :
    (env.setChain state).account = env.account := by
  obtain ⟨frames, hframes⟩ := env.exists_setChain_eq state
  rw [hframes]
  rfl

theorem account_report (env : Environment) (setup : Setup) (node : Node)
    (result : Except Fault Value) :
    (env.report setup node result).account = env.account.after (.ended node !result.isOk) := by
  unfold report
  cases node <;> cases result <;> cases setup.traced <;> rfl

/-- A node is concluded when its handler has ended. -/
theorem account_conclude (env : Environment) (setup : Setup) (node : Node)
    (result : Except Fault Value) :
    (env.conclude setup node result).account = env.account.after (.ended node !result.isOk) := by
  rw [← account_report env setup node result]
  cases result with
  | error fault => rfl
  | ok value =>
    show ((env.report setup node (.ok value)).pass node.statement.command).account = _
    unfold pass
    split
    · rfl
    · apply account_setChain

/-- The changes that handlers make are in none of the accounts. -/
theorem Changes.account {body : Option (List Node)} {env left : Environment}
    (h : env.Changes body left) : left.account = env.account := by
  cases h with
  | mark state => apply account_setChain
  | _ => rfl

end Environment

namespace Machine

/-! ### Steps -/

/-- What can be seen of the next step. -/
def event? (setup : Setup) (m : Machine) : Option Event :=
  match m.control with
  | .run [] _ => none
  | .run (node :: _) _ =>
    if (setup.registry.find? node.statement.command).isSome then some (.called node) else none
  | .result result =>
    match m.tasks with
    | .conclude node :: _ => some (.ended node !result.isOk)
    | _ => none

/-- The nodes whose handlers have been called and have not ended, the innermost first. -/
def pending (tasks : List Task) : List Node :=
  tasks.filterMap fun
    | .conclude node => some node
    | _ => none

section

variable {setup : Setup} {body : Option (List Node)} {value : Value} {tasks : List Task}
  {env : Environment}

/-- A machine shows an account and the handlers that are running. -/
structure Shows (account : Account) (nodes : List Node) (m : Machine) : Prop where
  account : m.env.account = account
  pending : pending m.tasks = nodes

theorem shows_enter (body : Option (List Node)) (value : Value) (tasks : List Task)
    (env : Environment) : (enter body value tasks env).Shows env.account (pending tasks) := by
  cases body <;> exact ⟨rfl, rfl⟩

theorem shows_nextElement (address index : Nat) :
    (nextElement body address index tasks env).Shows env.account (pending tasks) := by
  unfold nextElement
  split
  · exact ⟨rfl, rfl⟩
  · exact shows_enter body _ (.element body address index :: tasks) env

/-- Whatever a handler asks for is run without any handler being called. -/
theorem shows_perform (action : Action) :
    (perform body tasks env action).Shows env.account (pending tasks) := by
  cases action with
  | finish value => exact ⟨rfl, rfl⟩
  | enter value => exact shows_enter body value tasks env
  | twice value => exact shows_enter body value (.again body :: tasks) env
  | traverse address => exact shows_nextElement address 0
  | call nodes value =>
    exact shows_enter (some nodes) value (.endCall :: tasks) { env with callDepth := env.callDepth + 1 }

theorem shows_invoke (node : Node) (value : Value) (handler : Handler) :
    (invoke setup node value handler tasks env).Shows (env.account.after (.called node))
      (pending tasks) := by
  have hchanges := Command.changes_prepare setup (node.invocation value) handler
    (env.announce node.statement)
  have haccount := hchanges.account
  rw [Environment.account_announce] at haccount
  rw [invoke]
  rcases hran : Command.prepare setup (node.invocation value) handler
    (env.announce node.statement) with ⟨fault | action, left⟩
  · rw [hran] at haccount
    exact ⟨haccount, rfl⟩
  · rw [hran] at haccount
    rw [← haccount]
    exact shows_perform action

/-- What an event does to the handlers that are running. -/
def Moves : Option Event → (before after : List Node) → Prop
  | none, before, after => after = before
  | some (.called node), before, after => after = node :: before
  | some (.ended node _), before, after => before = node :: after

/-- **A step in the accounts.**  They change with the event of the step and with nothing else, and so do
the handlers that are running: the one that ends is the innermost. -/
theorem shows_step {m next : Machine} (hstep : m.step? setup = some next) :
    next.env.account = (m.event? setup).toList.foldl Account.after m.env.account ∧
      Moves (m.event? setup) (pending m.tasks) (pending next.tasks) := by
  obtain ⟨control, tasks, env⟩ := m
  cases control with
  | run nodes value =>
    cases nodes with
    | nil => cases hstep; exact ⟨rfl, rfl⟩
    | cons node rest =>
      rw [step?] at hstep
      rw [event?]
      dsimp only at hstep ⊢
      cases hfind : setup.registry.find? node.statement.command with
      | none =>
        rw [hfind] at hstep
        cases hstep
        exact ⟨rfl, rfl⟩
      | some handler =>
        rw [hfind] at hstep
        cases hstep
        have hshows : (invoke setup node value handler (.conclude node :: .sequence rest :: tasks)
            env).Shows _ _ := shows_invoke node value handler
        exact ⟨hshows.account, hshows.pending⟩
  | result result =>
    cases tasks with
    | nil => cases hstep
    | cons task tasks =>
      cases hstep
      cases task with
      | sequence rest => cases result <;> exact ⟨rfl, rfl⟩
      | conclude node => exact ⟨env.account_conclude setup node result, rfl⟩
      | closeFrame => exact ⟨rfl, rfl⟩
      | endCall => exact ⟨rfl, rfl⟩
      | element body address index =>
        cases result with
        | error fault => exact ⟨rfl, rfl⟩
        | ok value =>
          have hshows : (nextElement body address (index + 1) tasks
              { env with store := env.store.write address index value }).Shows _ _ :=
            shows_nextElement address (index + 1)
          exact ⟨hshows.account, hshows.pending⟩
      | again body =>
        cases result with
        | error fault => exact ⟨rfl, rfl⟩
        | ok value =>
          have hshows := shows_enter body value tasks env
          exact ⟨hshows.account, hshows.pending⟩

end

/-- A command that is not registered stops a run and cannot be seen in its events. -/
theorem step?_unregistered {setup : Setup} {m : Machine} {node : Node} {rest : List Node}
    {value : Value} (hcontrol : m.control = .run (node :: rest) value)
    (hfind : setup.registry.find? node.statement.command = none) :
    m.event? setup = none ∧ m.step? setup = some (.returning
      (.error (.script (.unknownCommand node.statement.command) (.ofLine node.statement.line)))
      m.tasks m.env) := by
  obtain ⟨control, tasks, env⟩ := m
  obtain rfl : control = .run (node :: rest) value := hcontrol
  simp [event?, step?, hfind]

/-! ### Runs -/

/-- Some steps lead from one machine to another, and this is what can be seen of them. -/
inductive Tells (setup : Setup) : List Event → Machine → Machine → Prop where
  | refl (m : Machine) : Tells setup [] m m
  | step {m next last : Machine} {events : List Event} : m.step? setup = some next →
      Tells setup events next last → Tells setup ((m.event? setup).toList ++ events) m last

variable {setup : Setup} {m next last : Machine} {events : List Event}

/-- The calls of handlers are those that are counted as steps are taken. -/
theorem length_calls_event (setup : Setup) (m : Machine) :
    (callsOf (m.event? setup).toList).length = if m.callsHandler setup then 1 else 0 := by
  obtain ⟨control, tasks, env⟩ := m
  rw [event?, callsHandler]
  rcases control with ⟨_ | ⟨node, rest⟩, value⟩ | result
  · rfl
  · dsimp only
    split <;> rfl
  · dsimp only
    split <;> rfl

theorem Tells.takes (h : Tells setup events m last) :
    Takes setup (callsOf events).length m last := by
  induction h with
  | refl => exact .refl _
  | step hstep _ ih =>
    rw [callsOf_append, List.length_append, length_calls_event, Nat.add_comm]
    exact .step hstep ih

theorem exists_tells {calls : Nat} (h : Takes setup calls m last) :
    ∃ events, Tells setup events m last := by
  induction h with
  | refl => exact ⟨[], .refl _⟩
  | step hstep _ ih =>
    obtain ⟨events, htells⟩ := ih
    exact ⟨_, .step hstep htells⟩

/-- The accounts of a run are those of its events. -/
theorem Tells.account (h : Tells setup events m last) :
    last.env.account = events.foldl Account.after m.env.account := by
  induction h with
  | refl => rfl
  | step hstep _ ih => rw [ih, List.foldl_append, (shows_step hstep).1]

/-- Every handler that is called ends, unless it is still running. -/
theorem Tells.perm (h : Tells setup events m last) :
    (callsOf events ++ pending m.tasks).Perm
      ((endsOf events).map Prod.fst ++ pending last.tasks) := by
  induction h with
  | refl => exact .refl _
  | @step m next last events hstep _ ih =>
    have hmoves := (shows_step hstep).2
    rw [callsOf_append, endsOf_append, List.map_append, List.append_assoc, List.append_assoc]
    rcases hevent : m.event? setup with _ | ⟨node⟩ | ⟨node, failed⟩ <;> rw [hevent] at hmoves
    · have hsame : pending next.tasks = pending m.tasks := hmoves
      rwa [← hsame]
    · have hmore : pending next.tasks = node :: pending m.tasks := hmoves
      rw [hmore] at ih
      show (node :: (callsOf events ++ pending m.tasks)).Perm _
      exact List.perm_middle.symm.trans ih
    · have hless : pending m.tasks = node :: pending next.tasks := hmoves
      rw [hless]
      exact List.perm_middle.trans (ih.cons node)

/-- Every handler that is called is one of the registry. -/
theorem Tells.registered (h : Tells setup events m last) :
    ∀ node ∈ callsOf events, (setup.registry.find? node.statement.command).isSome = true := by
  induction h with
  | refl => exact List.forall_mem_nil _
  | @step m next last events _ _ ih =>
    rw [callsOf_append, List.forall_mem_append]
    refine ⟨?_, ih⟩
    obtain ⟨control, tasks, env⟩ := m
    rw [event?]
    rcases control with ⟨_ | ⟨node, rest⟩, value⟩ | result
    · exact List.forall_mem_nil _
    · dsimp only
      split
      · next hsome => exact List.forall_mem_singleton.2 hsome
      · exact List.forall_mem_nil _
    · dsimp only
      split <;> exact List.forall_mem_nil _

/-! ### Faults -/

/-- As long as there is no fault, no handler ends with one. -/
theorem Unfailed.ends (h : m.Unfailed) :
    ∀ ending ∈ endsOf (m.event? setup).toList, ending.2 = false := by
  obtain ⟨control, tasks, env⟩ := m
  rw [event?]
  rcases control with ⟨_ | ⟨node, rest⟩, value⟩ | ⟨fault | value⟩
  · exact List.forall_mem_nil _
  · dsimp only
    split <;> exact List.forall_mem_nil _
  · exact absurd rfl (h fault)
  · dsimp only
    split
    · exact List.forall_mem_singleton.2 rfl
    · exact List.forall_mem_nil _

theorem Tells.unfailed_start (h : Tells setup events m last) (hlast : last.Unfailed) :
    m.Unfailed := by
  intro fault hfault
  exact hlast fault (eq_error_of_takes h.takes hfault)

theorem Tells.unfailed (h : Tells setup events m last) (hlast : last.Unfailed) :
    ∀ ending ∈ endsOf events, ending.2 = false := by
  induction h with
  | refl => exact List.forall_mem_nil _
  | step hstep htells ih =>
    have hm := (Tells.step hstep htells).unfailed_start hlast
    rw [endsOf_append, List.forall_mem_append]
    exact ⟨hm.ends, ih hlast⟩

/-- Behind a fault nothing happens but that the handlers end which are running, the innermost first. -/
theorem Tells.after_error {fault : Fault} (h : Tells setup events m last)
    (hm : m.control = .result (.error fault)) (hlast : last.step? setup = none) :
    events = (pending m.tasks).map (.ended · true) := by
  induction h with
  | refl m =>
    obtain ⟨control, tasks, env⟩ := m
    obtain rfl : control = .result (.error fault) := hm
    cases tasks with
    | nil => rfl
    | cons task tasks => cases hlast
  | @step m next last events hstep _ ih =>
    obtain ⟨control, tasks, env⟩ := m
    obtain rfl : control = .result (.error fault) := hm
    cases tasks with
    | nil => cases hstep
    | cons task tasks =>
      cases hstep
      have hrest : (resume setup (.error fault) tasks env task).control = .result (.error fault) ∧
          (resume setup (.error fault) tasks env task).tasks = tasks := by
        cases task <;> exact ⟨rfl, rfl⟩
      rw [ih hrest.1 hlast, hrest.2]
      cases task <;> rfl

/-- In a run that ends with a fault there is a step that raises it. -/
theorem Tells.exists_raising {fault : Fault} (h : Tells setup events m last) (hm : m.Unfailed)
    (hlast : last.control = .result (.error fault)) : ∃ before after raising next,
      events = before ++ after ∧ Tells setup before m next ∧ Tells setup after next last ∧
      (∃ calls, Takes setup calls m raising) ∧ raising.Unfailed ∧ raising.step? setup = some next ∧
      next.control = .result (.error fault) ∧ ∀ ending ∈ endsOf before, ending.2 = false := by
  induction h with
  | refl => exact absurd hlast (hm fault)
  | @step m next last events hstep htells ih =>
    by_cases hnext : next.Unfailed
    · obtain ⟨before, after, raising, failed, rfl, hbefore, hafter, ⟨calls, htakes⟩, hraising,
        hraises, hfailed, hends⟩ := ih hnext hlast
      refine ⟨_, after, raising, failed, (List.append_assoc _ _ _).symm, .step hstep hbefore, hafter,
        ⟨_, .step hstep htakes⟩, hraising, hraises, hfailed, ?_⟩
      rw [endsOf_append, List.forall_mem_append]
      exact ⟨hm.ends, hends⟩
    · -- The first fault is the one that the run ends with.
      obtain ⟨fault', hfault'⟩ : ∃ fault', next.control = .result (.error fault') := by
        simpa [Unfailed] using hnext
      have hsame := eq_error_of_takes htells.takes hfault'
      rw [hlast] at hsame
      cases hsame
      refine ⟨_, events, m, next, rfl, ?_, htells, ⟨0, .refl m⟩, hm, hstep, hfault', hm.ends⟩
      rw [← List.append_nil (m.event? setup).toList]
      exact .step hstep (.refl next)

end Machine

end Pipeline
