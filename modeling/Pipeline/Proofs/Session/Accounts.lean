import Mathlib.Algebra.Ring.Nat
import Pipeline.Proofs.Execution.Events
import Pipeline.Proofs.Session.Limits
import Pipeline.Proofs.Value.Rendering

/-!
# The accounts of a run

The counters, the log and the spans of a run tell the same story.  Every call of a handler is in the
counters and in the log, and its end is in the spans if the node is a block; a command that is not
registered is in none of them.  When a run fails, the spans that failed are those of the blocks around the
fault, also through calls, from the innermost to the run itself, and they are the last ones.

* `LogRecord.names_record` : the record of a call names one command.
* `Session.exists_environment_runNodes` : what a run leaves.
* `Session.accounts_agree` : what its accounts say.
-/

namespace Pipeline

/-! ### Records -/

/-- A log record says that a command is executed, on some line and with some number of arguments. -/
def LogRecord.Names (command : String) (record : LogRecord) : Prop :=
  ∃ (line : Int) (args : Nat), record = ⟨.debug, s!"line {line}: {command} ({args} args)"⟩

/-- The command can be read from such a message: no number holds a colon or a bracket. -/
theorem message_injective {line other : Int} {command named : String} {args given : Nat}
    (h : s!"line {line}: {command} ({args} args)" = s!"line {other}: {named} ({given} args)") :
    command = named := by
  have htexts : "line " ++ toString line ++ ": " ++ command ++ " (" ++ toString args ++ " args)" =
      "line " ++ toString other ++ ": " ++ named ++ " (" ++ toString given ++ " args)" := h
  have hparts : (toString line).toList ++ ':' :: ' ' ::
        (command.toList ++ ' ' :: '(' :: (args.repr.toList ++ " args)".toList)) =
      (toString other).toList ++ ':' :: ' ' ::
        (named.toList ++ ' ' :: '(' :: (given.repr.toList ++ " args)".toList)) := by
    simpa using congrArg String.toList htexts
  have hcolon (rest : List Char) : ∀ c ∈ (':' :: rest).head?, Numeral.isNumeralChar c = false := by
    intro c hc
    cases hc
    rfl
  obtain ⟨-, hbehind⟩ := Tree.numeral_append_inj hparts (hcolon _) (hcolon _)
  -- The number of arguments is read from behind.
  have hfront : (command.toList ++ ' ' :: '(' :: args.repr.toList) ++ " args)".toList =
      (named.toList ++ ' ' :: '(' :: given.repr.toList) ++ " args)".toList := by
    simpa using hbehind
  have hback := congrArg List.reverse (List.append_cancel_right hfront)
  simp only [List.reverse_append, List.reverse_cons, List.append_assoc, List.cons_append,
    List.nil_append] at hback
  have hdigits (n : Nat) : ∀ c ∈ n.repr.toList.reverse, Text.isLatinDigit c = true := by
    intro c hc
    exact Numeral.isLatinDigit_of_mem_repr (List.mem_reverse.1 hc)
  have hbracket (rest : List Char) : ∀ c ∈ ('(' :: rest).head?, Text.isLatinDigit c = false := by
    intro c hc
    cases hc
    rfl
  have hrest := (Text.run_append (hdigits args) (hbracket (' ' :: command.toList.reverse))).2
  rw [hback, (Text.run_append (hdigits given) (hbracket _)).2] at hrest
  simp only [List.cons.injEq, true_and] at hrest
  exact String.toList_inj.1 (List.reverse_injective hrest.symm)

namespace LogRecord

theorem names_record (command : String) (node : Node) :
    node.record.Names command ↔ node.statement.command = command := by
  constructor
  · rintro ⟨line, args, hrecord⟩
    exact message_injective (congrArg LogRecord.message hrecord)
  · rintro rfl
    exact ⟨_, _, rfl⟩

open Classical in
/-- How many of some log records name a command. -/
noncomputable def naming (command : String) (records : List LogRecord) : Nat :=
  records.countP (Names command ·)

theorem naming_append (command : String) (a b : List LogRecord) :
    naming command (a ++ b) = naming command a + naming command b := by
  simp [naming]

/-- As many records of calls name a command as calls are of it. -/
theorem naming_record (command : String) (nodes : List Node) :
    naming command (nodes.map Node.record) = nodes.countP (·.statement.command = command) := by
  rw [naming, List.countP_map]
  congr 1
  funext node
  simp [names_record]

/-- Only records of one level name a command. -/
theorem naming_of_level {records : List LogRecord} (h : ∀ record ∈ records, record.level ≠ .debug)
    (command : String) : naming command records = 0 := by
  rw [naming, List.countP_eq_zero]
  intro record hrecord hnames
  simp only [decide_eq_true_eq] at hnames
  obtain ⟨line, args, rfl⟩ := hnames
  exact h _ hrecord rfl

end LogRecord

/-! ### Standard commands -/

/-- Calls of standard commands are counted one by one. -/
theorem StandardCommand.sum_countP {nodes : List Node}
    (h : ∀ node ∈ nodes, ∃ command : StandardCommand, node.statement.command = command.word) :
    (all.map fun command => nodes.countP (·.statement.command = command.word)).sum =
      nodes.length := by
  induction nodes with
  | nil => rfl
  | cons node rest ih =>
    obtain ⟨⟨command, hcommand⟩, hrest⟩ := List.forall_mem_cons.1 h
    have hone : (all.map fun other => if command.word = other.word then 1 else 0).sum = 1 := by
      cases command <;> rfl
    simp only [List.countP_cons, List.sum_map_add, ih hrest, hcommand, decide_eq_true_eq, hone,
      List.length_cons]

namespace Session

open Machine

/-- The span of a whole run. -/
def runSpan (failed : Bool) : Span :=
  ⟨"pipescript.run", none, failed⟩

/-- The log records with which a run ends. -/
def closing : Except Fault Value → Array LogRecord
  | .ok _ => #[⟨.info, "run done"⟩]
  | .error fault => if fault.isScript then #[⟨.error, "run aborted: " ++ fault.text⟩] else #[]

theorem level_closing (result : Except Fault Value) :
    ∀ record ∈ (closing result).toList, record.level ≠ .debug := by
  cases result with
  | ok value => simp [closing]
  | error fault =>
    simp only [closing]
    split <;> simp

/-- Counters, log and metrics agree on the calls of handlers that they count. -/
structure CountsCalls (calls : List Node) (ran : Session) (env : Environment) : Prop where
  /-- What the session keeps as the counts of its commands are the counters of the run. -/
  counts : ran.counts = env.counts
  counted : ∀ command, env.counts.countOf command = calls.countP (·.statement.command = command)
  recorded : ∀ command,
    LogRecord.naming command env.journal.records.toList = env.counts.countOf command
  executed : ran.executed = calls.length
  sum : ran.executed = (StandardCommand.all.map fun command => env.counts.countOf command.word).sum

section

variable {files : FileSystem} {traced : Bool} {source : Source} {session : Session}
  {nodes : List Node} {events : List Event} {last : Machine}

/-- What running nodes leaves, and what it adds to what their execution leaves. -/
theorem exists_environment_runNodes (files : FileSystem) (traced : Bool) (nodes : List Node)
    (session : Session) :
    let executed := execute (session.setup files traced) nodes .nothing (fresh nodes)
    let ran := session.runNodes files traced nodes
    ran.1 = executed.1 ∧ ∃ env, ran.2.environment = some env ∧ ran.2.counts = env.counts ∧
      env.counts = executed.2.counts ∧
      env.journal.records = executed.2.journal.records ++ closing executed.1 ∧
      env.journal.spans = executed.2.journal.spans.push (runSpan !executed.1.isOk) ∧
      ran.2.log = session.log ++ env.journal.records := by
  unfold runNodes inSpan setup fresh
  dsimp only
  generalize execute _ nodes .nothing _ = executed
  obtain ⟨fault | value, left⟩ := executed
  · dsimp only [closing]
    cases fault.isScript
    · exact ⟨rfl, _, rfl, rfl, rfl, by simp [Environment.addSpan], rfl, rfl⟩
    · exact ⟨rfl, _, rfl, rfl, rfl, by simp [Environment.addSpan, Environment.record], rfl, rfl⟩
  · exact ⟨rfl, _, rfl, rfl, rfl, by simp [closing, Environment.addSpan, Environment.record], rfl, rfl⟩

theorem runSource_of_load_ok (traced : Bool) (hload : (session.load files source).1 = .ok nodes) :
    ∃ after, session.load files source = (.ok nodes, after) ∧
      after.setup files traced = session.setup files traced ∧
      session.runSource files traced source = after.runNodes files traced nodes := by
  rcases hloaded : session.load files source with ⟨loaded, after⟩
  rw [hloaded] at hload
  obtain rfl : loaded = .ok nodes := hload
  obtain ⟨hsetup, hprogram⟩ := setup_of_load traced hloaded
  refine ⟨after, rfl, hsetup, ?_⟩
  simp only [runSource, hloaded, run, hprogram]

/-- The handlers that a run calls, and what is left of them in its log and counters. -/
theorem countsCalls_of_tells {ran : Session} {env : Environment} {result : Except Fault Value}
    (hstandard : session.registry = .standard)
    (htells : Tells (session.setup files traced) events (.start nodes .nothing (fresh nodes)) last)
    (hkept : ran.counts = env.counts) (hcounts : env.counts = last.env.counts)
    (hrecords : env.journal.records = last.env.journal.records ++ closing result) :
    CountsCalls (callsOf events) ran env := by
  have haccount : last.env.account = events.foldl Account.after (fresh nodes).account :=
    htells.account
  have hcounted (command : String) : env.counts.countOf command =
      (callsOf events).countP (·.statement.command = command) := by
    have hfold := Account.countOf_foldl events (fresh nodes).account command
    rw [← haccount] at hfold
    rw [hcounts]
    exact hfold.trans (Nat.zero_add _)
  have htotal : ran.executed = (callsOf events).length := by
    have hfold := Account.total_foldl events (fresh nodes).account
    rw [← haccount] at hfold
    rw [executed, hkept, hcounts]
    exact hfold.trans (Nat.zero_add _)
  refine ⟨hkept, hcounted, fun command => ?_, htotal, ?_⟩
  · have hfold : last.env.journal.records.toList =
        (fresh nodes).journal.records.toList ++ (callsOf events).map Node.record := by
      have hfold := Account.records_foldl events (fresh nodes).account
      rwa [← haccount] at hfold
    have hfresh : LogRecord.naming command (fresh nodes).journal.records.toList = 0 := by
      apply LogRecord.naming_of_level
      intro record hrecord
      rw [List.mem_singleton.1 hrecord]
      simp
    rw [hrecords, Array.toList_append, hfold, LogRecord.naming_append, LogRecord.naming_append, hfresh,
      LogRecord.naming_of_level (level_closing result), LogRecord.naming_record, hcounted]
    omega
  · have hwords : ∀ node ∈ callsOf events,
        ∃ command : StandardCommand, node.statement.command = command.word := by
      intro node hnode
      obtain ⟨handler, hfind⟩ := Option.isSome_iff_exists.1 (htells.registered node hnode)
      have hfind' : session.registry.find? node.statement.command = some handler := hfind
      rw [hstandard] at hfind'
      obtain ⟨command, hcommand, -⟩ := Registry.find?_standard hfind'
      exact ⟨command, hcommand⟩
    rw [htotal, ← StandardCommand.sum_countP hwords]
    simp only [hcounted]

/-- The spans of a run are those of the blocks whose handlers have ended, and its own one. -/
theorem spans_of_tells {env : Environment} {failed : Bool}
    (htells : Tells (session.setup files traced) events (.start nodes .nothing (fresh nodes)) last)
    (hspans : env.journal.spans = last.env.journal.spans.push (runSpan failed)) :
    env.journal.spans.toList = blockSpans (endsOf events) ++ [runSpan failed] := by
  have haccount : last.env.account = events.foldl Account.after (fresh nodes).account :=
    htells.account
  have hfold := Account.spans_foldl events (fresh nodes).account
  rw [← haccount] at hfold
  have hlast : last.env.journal.spans.toList = blockSpans (endsOf events) :=
    hfold.trans (List.nil_append _)
  rw [hspans, Array.toList_push, hlast]

/-- The blocks around a fault end with it, from the innermost on, and no handler before them does. -/
theorem exists_raising_of_tells {fault : Fault}
    (hload : (session.load files source).1 = .ok nodes)
    (htells : Tells (session.setup files traced) events (.start nodes .nothing (fresh nodes)) last)
    (hend : last.step? (session.setup files traced) = none)
    (hlast : last.control = .result (.error fault)) :
    ∃ closed raising next, session.Visits files traced source raising ∧ raising.Unfailed ∧
      raising.step? (session.setup files traced) = some next ∧
      next.control = .result (.error fault) ∧ (∀ ending ∈ closed, ending.2 = false) ∧
      endsOf events = closed ++ (pending next.tasks).map (·, true) := by
  have hstart : (Machine.start nodes .nothing (fresh nodes)).Unfailed := unfailed_enter
  obtain ⟨before, after, raising, next, rfl, -, hafter, ⟨calls, htakes⟩, hunfailed, hstep, hnext,
    hclosed⟩ := htells.exists_raising hstart hlast
  refine ⟨endsOf before, raising, next, ⟨nodes, calls, hload, htakes⟩, hunfailed, hstep, hnext,
    hclosed, ?_⟩
  have hends (running : List Node) :
      endsOf (running.map (.ended · true)) = running.map (·, true) := by
    induction running with
    | nil => rfl
    | cons node rest ih => exact congrArg ((node, true) :: ·) ih
  rw [endsOf_append, hafter.after_error hnext hend, hends]

end

/-- **The accounts of a run agree.**  A program has been read, and the session has the standard commands.
Its run tells some events.  The counters, the log records and the metrics count the calls of handlers among
them, for each command and all together; a command that is not registered stops the run and leaves the
environment as it is.  Every handler that is called ends, and the spans are those of the blocks among them,
in the order in which they end, and the one of the run.  If the run has a result, no span has failed.  If it
has a fault, the blocks have failed whose handlers were running when the fault was raised, from the
innermost on, and the run itself, and these spans are the last ones; no other has. -/
theorem accounts_agree {files : FileSystem} {source : Source} {session : Session}
    {nodes : List Node} (hstandard : session.registry = .standard)
    (hload : (session.load files source).1 = .ok nodes) (traced : Bool) :
    let setup := session.setup files traced
    let ran := session.runSource files traced source
    ∃ events last env,
      Tells setup events (.start nodes .nothing (fresh nodes)) last ∧ last.step? setup = none ∧
      last.control = .result ran.1 ∧ ran.2.environment = some env ∧
      ran.2.log = (session.load files source).2.log ++ env.journal.records ∧
      CountsCalls (callsOf events) ran.2 env ∧
      (∀ m node rest value, session.Visits files traced source m →
        m.control = .run (node :: rest) value →
        setup.registry.find? node.statement.command = none →
        m.event? setup = none ∧ m.step? setup = some (.returning
          (.error (.script (.unknownCommand node.statement.command) (.ofLine node.statement.line)))
          m.tasks m.env)) ∧
      ((endsOf events).map Prod.fst).Perm (callsOf events) ∧
      env.journal.spans.toList = blockSpans (endsOf events) ++ [runSpan !ran.1.isOk] ∧
      (∀ value, ran.1 = .ok value → ∀ span ∈ env.journal.spans.toList, span.failed = false) ∧
      ∀ fault, ran.1 = .error fault → ∃ closed raising next,
        session.Visits files traced source raising ∧ raising.Unfailed ∧
        raising.step? setup = some next ∧ next.control = .result (.error fault) ∧
        (∀ span ∈ closed, span.failed = false) ∧
        env.journal.spans.toList = closed ++
          ((pending next.tasks).filter Node.isBlock).map (·.span true) ++ [runSpan true] := by
  intro setup ran
  obtain ⟨after, hloaded, hsetup, hran⟩ := runSource_of_load_ok traced hload
  obtain ⟨hresult, env, hkept, hmetrics, hcounts, hrecords, hspans, hlog⟩ :=
    exists_environment_runNodes files traced nodes after
  rw [hsetup] at hresult hcounts hrecords hspans
  rw [← hran] at hresult hkept hmetrics hlog
  obtain ⟨calls, hreach⟩ := reaches_execute setup nodes .nothing (fresh nodes)
  obtain ⟨events, htells⟩ := exists_tells hreach
  have hlast : (Machine.returning (execute setup nodes .nothing (fresh nodes)).1 []
      (execute setup nodes .nothing (fresh nodes)).2).control = .result ran.1 :=
    congrArg Control.result hresult.symm
  have hspan := spans_of_tells htells hspans
  rw [← hresult] at hspan
  refine ⟨events, _, env, htells, rfl, hlast, hkept, ?_, ?_, ?_, ?_, hspan, ?_, ?_⟩
  · rw [hlog, hloaded]
  · exact countsCalls_of_tells hstandard htells hmetrics hcounts hrecords
  · intro m node rest value _ hcontrol hfind
    exact step?_unregistered hcontrol hfind
  · have hperm := htells.perm
    have hstart : pending (Machine.start nodes .nothing (fresh nodes)).tasks = [] := rfl
    rw [hstart, List.append_nil] at hperm
    simpa [Machine.returning, pending] using hperm.symm
  · intro value hvalue
    have hunfailed : (Machine.returning (execute setup nodes .nothing (fresh nodes)).1 []
        (execute setup nodes .nothing (fresh nodes)).2).Unfailed := by
      intro fault hfault
      rw [hlast, hvalue] at hfault
      cases hfault
    rw [hspan, hvalue, List.forall_mem_append]
    refine ⟨failed_of_mem_blockSpans (htells.unfailed hunfailed), ?_⟩
    simp [runSpan, Except.isOk, Except.toBool]
  · intro fault hfault
    obtain ⟨closed, raising, next, hvisits, hraising, hstep, hnext, hclosed, hends⟩ :=
      exists_raising_of_tells hload htells rfl (hlast.trans (by rw [hfault]))
    refine ⟨blockSpans closed, raising, next, hvisits, hraising, hstep, hnext,
      failed_of_mem_blockSpans hclosed, ?_⟩
    rw [hspan, hfault, hends, blockSpans_append, blockSpans_failing]
    rfl

/-- An unknown command in a branch of a function: this branch and the one around the call end with the
fault, the function itself was recorded before, and four handlers were called. -/
theorem accounts_agree_unknown_command :
    let files : FileSystem := fun _ => .error .missing
    let source : Source := .text "function $f\nif 1\nmissing\nend\nend\nif 1\ncall $f\nend"
    let session := Session.start {} .standard
    let setup := session.setup files false
    let ran := session.runSource files false source
    session.registry = .standard ∧ (session.load files source).1.isOk ∧
      ran.1 = .error (.script (.unknownCommand "missing") (.ofLine 3)) ∧
      ∃ events env closed raising next,
        ran.2.environment = some env ∧ CountsCalls (callsOf events) ran.2 env ∧
        (callsOf events).length = 4 ∧ LogRecord.naming "missing" env.journal.records.toList = 0 ∧
        session.Visits files false source raising ∧ raising.step? setup = some next ∧
        next.control = .result ran.1 ∧
        env.journal.spans.toList = closed ++
          ((pending next.tasks).filter Node.isBlock).map (·.span true) ++ [runSpan true] ∧
        env.journal.spans.toList = [⟨"block:function", some 1, false⟩, ⟨"block:if", some 2, true⟩,
          ⟨"block:if", some 6, true⟩, runSpan true] := by
  intro files source session setup ran
  let inside : Node := .block ⟨2, "if", [.operand ⟨.number, "1"⟩]⟩ [.simple ⟨3, "missing", []⟩]
  let outside : Node := .block ⟨6, "if", [.operand ⟨.number, "1"⟩]⟩
    [.simple ⟨7, "call", [.operand ⟨.variable, "f"⟩]⟩]
  let nodes : List Node := [.block ⟨1, "function", [.operand ⟨.variable, "f"⟩]⟩ [inside], outside]
  have hload : (session.load files source).1 = .ok nodes := by
    have hlines : Statement.readLines {} (Text.lines
        "function $f\nif 1\nmissing\nend\nend\nif 1\ncall $f\nend".toList) =
          .ok [⟨1, "function", [.operand ⟨.variable, "f"⟩]⟩, ⟨2, "if", [.operand ⟨.number, "1"⟩]⟩,
            ⟨3, "missing", []⟩, ⟨4, "end", []⟩, ⟨5, "end", []⟩,
            ⟨6, "if", [.operand ⟨.number, "1"⟩]⟩, ⟨7, "call", [.operand ⟨.variable, "f"⟩]⟩,
            ⟨8, "end", []⟩] := by decide +kernel
    have hinside : Program.WellFormed {} false [inside] :=
      .block rfl (by decide) (fun h => absurd h (by decide)) (.simple rfl (by decide) (.nil _)) (.nil _)
    have houtside : Program.WellFormed {} false [outside] :=
      .block rfl (by decide) (fun h => absurd h (by decide)) (.simple rfl (by decide) (.nil _)) (.nil _)
    have hwf : Program.WellFormed {} false nodes :=
      .block rfl (by decide) (fun h => absurd h (by decide)) hinside houtside
    have hsettings : session.settings = {} := settings_start_standard rfl
    refine fst_load_text (hsettings ▸ hlines) ?_
    rw [hsettings]
    exact Program.build_of_wellFormed Program.hasBranches_default hwf (by decide) (by decide)
  obtain ⟨events, last, env, -, -, -, henv, -, hcalls, -, -, hspans, -, hfault⟩ :=
    accounts_agree rfl hload false
  obtain ⟨after, -, hsetup, hran⟩ := runSource_of_load_ok false hload
  obtain ⟨hresult, left, hleft, -, hcounts, -, hleftSpans, -⟩ :=
    exists_environment_runNodes files false nodes after
  rw [hsetup, setup_start_standard (s := {}) rfl] at hresult hcounts hleftSpans
  rw [← hran] at hresult hleft
  obtain rfl : left = env := Option.some.inj (hleft.symm.trans henv)
  have hunknown : ran.1 = .error (.script (.unknownCommand "missing") (.ofLine 3)) := hresult.trans rfl
  obtain ⟨closed, raising, next, hvisits, -, hstep, hnext, -, hend⟩ := hfault _ hunknown
  refine ⟨rfl, by rw [hload]; rfl, hunknown, events, left, closed, raising, next, henv, hcalls, ?_, ?_,
    hvisits, hstep, hnext.trans (by rw [hunknown]), hend, ?_⟩
  · rw [← hcalls.executed, executed, hcalls.counts, hcounts]
    rfl
  · rw [hcalls.recorded, hcounts]
    rfl
  · rw [hleftSpans]
    rfl

end Session

end Pipeline
