import Pipeline.Proofs.Session

/-!
# Steps of a session

What one step does to a session.  Reading a program changes nothing but the program at hand, and the
records of the log; running nodes gives what their execution in an empty environment gives, but for the
journal, which no execution looks at.

* `Session.load_of_error`, `Session.load_of_ok` : reading a program.
* `Session.runNodes_alone` : running nodes.
-/

namespace Pipeline

/-- What the runs of a session with the standard commands are given. -/
theorem setup_start_standard {s : Settings} (h : s.blockCommands = ({} : Settings).blockCommands)
    (files : FileSystem) (traced : Bool) : (Session.start s .standard).setup files traced =
      { settings := s, registry := .standard, files := files, traced := traced } := by
  rw [Session.setup, settings_start_standard h]
  rfl

/-! ### The journal is not looked at -/

/-- An environment without what its run left for observers. -/
def Environment.withoutJournal (env : Environment) : Environment :=
  { env with journal := {} }

/-- Environments that differ in their journals keep two runs in lockstep. -/
theorem lockstep_journal (setup : Setup) :
    Lockstep setup fun _ _ env env' => ∃ journal, env' = { env with journal := journal } where
  bindings := by rintro n c env env' ⟨journal, rfl⟩; rfl
  functions := by rintro n c env env' ⟨journal, rfl⟩; rfl
  store := by rintro n c env env' ⟨journal, rfl⟩; rfl
  callDepth := by rintro n c env env' ⟨journal, rfl⟩; rfl
  chain := by rintro n c env env' ⟨journal, rfl⟩; rfl
  depth := by rintro n c env env' name - ⟨journal, rfl⟩; rfl
  change := by rintro n c env env' x ⟨journal, rfl⟩; cases x <;> exact ⟨_, rfl⟩
  setChain := by
    rintro n c env env' state ⟨journal, rfl⟩
    unfold Environment.setChain
    dsimp only
    split <;> exact ⟨journal, rfl⟩
  pushFrame := by rintro n c env env' ⟨journal, rfl⟩; exact ⟨journal, rfl⟩
  popFrame := by rintro n c env env' ⟨journal, rfl⟩; exact ⟨journal, rfl⟩
  startCall := by rintro n c env env' ⟨journal, rfl⟩; exact ⟨journal, rfl⟩
  endCall := by rintro n c env env' ⟨journal, rfl⟩; exact ⟨journal, rfl⟩

/-- Executes nodes from nothing in an empty environment. -/
def Setup.runAlone (setup : Setup) (nodes : List Node) : Except Fault Value × Environment :=
  execute setup nodes .nothing {}

/-- The record with which a run starts does not matter. -/
theorem execute_fresh (setup : Setup) (nodes : List Node) :
    (execute setup nodes .nothing (Session.fresh nodes)).1 = (setup.runAlone nodes).1 ∧
      (execute setup nodes .nothing (Session.fresh nodes)).2.withoutJournal =
        (setup.runAlone nodes).2.withoutJournal := by
  obtain ⟨hresult, journal, hleft⟩ := (lockstep_journal setup).execute 0 0 nodes .nothing {}
    (Session.fresh nodes) ⟨_, rfl⟩
  refine ⟨hresult.symm, ?_⟩
  rw [hleft]
  rfl

namespace Session

/-! ### Reading -/

/-- Reads the program that a source writes. -/
def parse (files : FileSystem) (settings : Settings) (source : Source) : Except Fault (List Node) := do
  let text ← source.read files
  Program.ofText settings text

section Reading

variable {files : FileSystem} {source : Source} {session : Session}

/-- A program that cannot be read leaves a session as it is, but for the log. -/
theorem load_of_error {fault : Fault} (h : parse files session.settings source = .error fault) :
    ∃ log, session.load files source = (.error fault, { session with log := log }) := by
  rw [parse] at h
  rw [load]
  cases hread : source.read files with
  | error fault' =>
    rw [hread] at h
    obtain rfl : fault' = fault := Except.error.inj h
    exact ⟨session.log, rfl⟩
  | ok text =>
    rw [hread] at h
    change Program.ofText session.settings text = .error fault at h
    rw [Program.ofText] at h
    dsimp only
    cases hlines : Statement.readLines session.settings (Text.lines text.toList) with
    | error fault' =>
      rw [hlines] at h
      obtain rfl : fault' = fault := Except.error.inj h
      exact ⟨session.log, rfl⟩
    | ok statements =>
      rw [hlines] at h
      change Program.build session.settings statements = .error fault at h
      rw [← show (session.record .debug s!"parsed {statements.length} statements").settings =
        session.settings from rfl] at h
      dsimp only
      rw [h]
      exact ⟨_, rfl⟩

/-- A program that is read is the program at hand. -/
theorem load_of_ok {nodes : List Node} (h : parse files session.settings source = .ok nodes) :
    ∃ log, session.load files source =
      (.ok nodes, { session with program := some nodes, log := log }) := by
  obtain ⟨text, hread, h⟩ := exists_of_bind_eq_ok h
  obtain ⟨statements, hlines, h⟩ := exists_of_bind_eq_ok h
  rw [← show (session.record .debug s!"parsed {statements.length} statements").settings =
    session.settings from rfl] at h
  rw [load, hread]
  dsimp only
  rw [hlines]
  dsimp only
  rw [h]
  exact ⟨_, rfl⟩

theorem fst_load : (session.load files source).1 = parse files session.settings source := by
  cases h : parse files session.settings source with
  | error fault =>
    obtain ⟨log, hload⟩ := load_of_error h
    rw [hload]
  | ok nodes =>
    obtain ⟨log, hload⟩ := load_of_ok h
    rw [hload]

end Reading

/-! ### Running -/

section Running

variable (files : FileSystem) (traced : Bool) (nodes : List Node) (session : Session)

/-- A session has run nodes: what it keeps is what their execution alone leaves, and nothing that a run
is given has changed. -/
structure HasRun (setup : Setup) (nodes : List Node) (before after : Session) : Prop where
  settings : after.settings = before.settings
  registry : after.registry = before.registry
  program : after.program = before.program
  environment : after.environment.map (·.withoutJournal) =
    some (setup.runAlone nodes).2.withoutJournal
  counts : after.counts = (setup.runAlone nodes).2.counts

theorem runNodes_alone :
    (session.runNodes files traced nodes).1 = ((session.setup files traced).runAlone nodes).1 ∧
      HasRun (session.setup files traced) nodes session (session.runNodes files traced nodes).2 := by
  obtain ⟨hresult, hleft⟩ := execute_fresh (session.setup files traced) nodes
  have hcounts := congrArg Environment.counts hleft
  unfold runNodes inSpan
  change (execute _ nodes .nothing (fresh nodes)).1 = _ at hresult
  unfold setup fresh at *
  dsimp only
  generalize execute _ nodes .nothing _ = ran at *
  obtain ⟨fault | value, left⟩ := ran
  · refine ⟨hresult, rfl, rfl, rfl, ?_, ?_⟩
    · rw [← hleft]
      dsimp only
      cases fault.isScript <;> rfl
    · refine Eq.trans ?_ hcounts
      dsimp only
      cases fault.isScript <;> rfl
  · exact ⟨hresult, rfl, rfl, rfl, congrArg some hleft, hcounts⟩

variable {nodes session} {source : Source}

theorem runSource_of_error {fault : Fault} (h : parse files session.settings source = .error fault) :
    ∃ log, session.runSource files traced source = (.error fault, { session with log := log }) := by
  obtain ⟨log, hload⟩ := load_of_error h
  exact ⟨log, by rw [runSource, hload]⟩

/-- Running a source runs the nodes that are read from it. -/
theorem runSource_alone (h : parse files session.settings source = .ok nodes) :
    (session.runSource files traced source).1 = ((session.setup files traced).runAlone nodes).1 ∧
      HasRun (session.setup files traced) nodes { session with program := some nodes }
        (session.runSource files traced source).2 := by
  obtain ⟨log, hload⟩ := load_of_ok h
  obtain ⟨hresult, hrun⟩ := runNodes_alone files traced nodes
    { session with program := some nodes, log := log }
  rw [runSource, hload]
  exact ⟨hresult, hrun.settings, hrun.registry, hrun.program, hrun.environment, hrun.counts⟩

end Running

end Session

end Pipeline
