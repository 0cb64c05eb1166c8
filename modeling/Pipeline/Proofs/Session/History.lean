import Mathlib.Data.List.Induction
import Pipeline.Proofs.Session.Steps

/-!
# Histories of a session

Programs are loaded and run, commands are registered and removed, in any order, and any of these steps
may fail.  A session remembers nothing of them but the program that was read last and the registry: the
next run gives what executing that program in an empty environment gives.

* `Session.perform_read`, `.perform_run` : one step.
* `Session.settings_after`, `.registry_after`, `.program_after` : what a history leaves, as functions of
  the history.
* `Session.perform_after` : the step behind a history.
-/

namespace Pipeline.Session

/-! ### What a step leaves -/

namespace Step

/-- The registry after a step; a registration that is refused changes nothing. -/
def registryAfter (registry : Registry) : Step → Registry
  | .register name handler opensBlock =>
    match registry.register name handler opensBlock with
    | .ok registry' => registry'
    | .error _ => registry
  | .unregister name => registry.unregister name
  | _ => registry

/-- The source that a step reads. -/
def source? : Step → Option Source
  | .load source => some source
  | .run source => source
  | _ => none

/-- The program that a step reads. -/
def read? (settings : Settings) (files : FileSystem) (step : Step) : Option (List Node) :=
  step.source?.bind fun source => (parse files settings source).toOption

end Step

/-- A step ran nodes: what it answers, prints and leaves is what their execution alone gives. -/
structure Outcome.Ran (setup : Setup) (nodes : List Node) (before : Session) (outcome : Outcome) :
    Prop where
  reply : outcome.reply = (setup.runAlone nodes).1.map .value
  output : outcome.output = (setup.runAlone nodes).2.output
  session : HasRun setup nodes { before with program := some nodes } outcome.session

section Steps

variable (files : FileSystem) (session : Session)

theorem ran_runStep (nodes : List Node) {before : Session}
    (hbefore : session.settings = before.settings ∧ session.registry = before.registry ∧
      session.program = some nodes) :
    Outcome.Ran (before.setup files false) nodes before (session.runStep files nodes) := by
  obtain ⟨hresult, hrun⟩ := runNodes_alone files false nodes session
  obtain ⟨hsettings, hregistry, hprogram⟩ := hbefore
  have hsetup : session.setup files false = before.setup files false := by
    rw [setup, setup, hsettings, hregistry]
  rw [hsetup] at hresult hrun
  refine ⟨congrArg (·.map Reply.value) hresult, ?_, ?_⟩
  · -- The output is not in the journal.
    have houtput := congrArg (Option.map Environment.output) hrun.environment
    rw [Option.map_map] at houtput
    exact congrArg (·.getD "") houtput
  · exact ⟨hrun.settings.trans hsettings, hrun.registry.trans hregistry, hrun.program.trans hprogram,
      hrun.environment, hrun.counts⟩

/-- A source that cannot be read changes nothing, whether it was to be run or not; the log apart. -/
theorem perform_of_error {source : Source} {fault : Fault}
    (h : parse files session.settings source = .error fault) :
    ∃ log, session.perform files (.load source) =
        { reply := .error fault, session := { session with log := log } } ∧
      session.perform files (.run (some source)) =
        { reply := .error fault, session := { session with log := log } } := by
  obtain ⟨log, hload⟩ := load_of_error h
  exact ⟨log, by rw [perform, hload]; rfl, by rw [perform, hload]⟩

/-- A source that is read is the program at hand, and is what is run. -/
theorem perform_of_ok {source : Source} {nodes : List Node}
    (h : parse files session.settings source = .ok nodes) :
    (∃ log, session.perform files (.load source) =
        { reply := .ok (.loaded nodes.length)
          session := { session with program := some nodes, log := log } }) ∧
      Outcome.Ran (session.setup files false) nodes session
        (session.perform files (.run (some source))) := by
  obtain ⟨log, hload⟩ := load_of_ok h
  refine ⟨⟨log, ?_⟩, ?_⟩
  · rw [perform, hload]
    rfl
  · rw [perform, hload]
    exact ran_runStep files _ nodes ⟨rfl, rfl, rfl⟩

/-- Without a source the program at hand is run. -/
theorem perform_run {nodes : List Node} (h : session.program = some nodes) :
    Outcome.Ran (session.setup files false) nodes session (session.perform files (.run none)) := by
  rw [perform, h]
  exact ran_runStep files session nodes ⟨rfl, rfl, h⟩

/-- Running a source is loading it, and running what was loaded. -/
theorem perform_run_source (source : Source) :
    session.perform files (.run (some source)) =
      match (session.perform files (.load source)).reply with
      | .error _ => session.perform files (.load source)
      | .ok _ => (session.perform files (.load source)).session.perform files (.run none) := by
  cases hparse : parse files session.settings source with
  | error fault =>
    obtain ⟨log, hload, hrun⟩ := perform_of_error files session hparse
    rw [hrun, hload]
  | ok nodes =>
    obtain ⟨log, hload⟩ := load_of_ok hparse
    simp only [perform, hload, Except.map]

/-- A step leaves the settings as they are, and the registry and the program as `registryAfter` and
`read?` say. -/
theorem state_perform (step : Step) :
    (session.perform files step).session.settings = session.settings ∧
      (session.perform files step).session.registry = step.registryAfter session.registry ∧
      (session.perform files step).session.program =
        (step.read? session.settings files).or session.program := by
  have hreads (source : Source) (hsource : step = .load source ∨ step = .run (some source)) :
      step.read? session.settings files = (parse files session.settings source).toOption ∧
        step.registryAfter session.registry = session.registry := by
    rcases hsource with rfl | rfl <;> exact ⟨rfl, rfl⟩
  cases step with
  | load source =>
    rw [(hreads source (.inl rfl)).1]
    cases hparse : parse files session.settings source with
    | error fault =>
      obtain ⟨log, hload, -⟩ := perform_of_error files session hparse
      rw [hload]
      exact ⟨rfl, rfl, rfl⟩
    | ok nodes =>
      obtain ⟨⟨log, hload⟩, -⟩ := perform_of_ok files session hparse
      rw [hload]
      exact ⟨rfl, rfl, rfl⟩
  | run source =>
    cases source with
    | none =>
      cases hprogram : session.program with
      | none =>
        rw [perform, hprogram]
        exact ⟨rfl, rfl, hprogram⟩
      | some nodes =>
        have hran := (perform_run files session hprogram).session
        exact ⟨hran.settings, hran.registry, hran.program⟩
    | some source =>
      rw [(hreads source (.inr rfl)).1]
      cases hparse : parse files session.settings source with
      | error fault =>
        obtain ⟨log, -, hrun⟩ := perform_of_error files session hparse
        rw [hrun]
        exact ⟨rfl, rfl, rfl⟩
      | ok nodes =>
        have hran := (perform_of_ok files session hparse).2.session
        exact ⟨hran.settings, hran.registry, hran.program⟩
  | register name handler opensBlock =>
    rw [perform, register, Step.registryAfter]
    cases session.registry.register name handler opensBlock <;> exact ⟨rfl, rfl, rfl⟩
  | unregister name => exact ⟨rfl, rfl, rfl⟩
  | blockCommands => exact ⟨rfl, rfl, rfl⟩

end Steps

/-! ### Histories -/

/-- The steps that were taken in a session, with the files that were there at each of them. -/
abbrev History := List (FileSystem × Step)

/-- The session behind a history. -/
def after (session : Session) (history : History) : Session :=
  history.foldl (fun session step => (session.perform step.1 step.2).session) session

/-- The registry behind a history. -/
def History.registry (start : Registry) (history : History) : Registry :=
  history.foldl (fun registry step => step.2.registryAfter registry) start

/-- The program that was read last in a history. -/
def History.program (settings : Settings) (history : History) : Option (List Node) :=
  (history.filterMap fun step => step.2.read? settings step.1).getLast?

/-- What a session keeps of its history is a function of the history. -/
theorem state_after (settings : Settings) (registry : Registry) (history : History) :
    let session := (start settings registry).after history
    session.settings = (start settings registry).settings ∧
      session.registry = history.registry registry ∧
      session.program = history.program (start settings registry).settings := by
  induction history using List.reverseRecOn with
  | nil => exact ⟨rfl, rfl, rfl⟩
  | append_singleton history step ih =>
    obtain ⟨hsettings, hregistry, hprogram⟩ := ih
    obtain ⟨hsettings', hregistry', hprogram'⟩ :=
      state_perform step.1 ((start settings registry).after history) step.2
    intro session
    have hsession : session =
        (((start settings registry).after history).perform step.1 step.2).session := by
      rw [after]
      exact List.foldl_concat ..
    rw [hsession]
    refine ⟨hsettings'.trans hsettings, ?_, ?_⟩
    · rw [hregistry', hregistry, History.registry, History.registry, List.foldl_concat]
    · rw [hprogram', hsettings, hprogram, History.program, History.program, List.filterMap_append]
      cases hread : step.2.read? (start settings registry).settings step.1 with
      | none => simp [hread]
      | some nodes => simp [hread]

/-- **A session remembers its program and its registry only.**  Behind any history, a source that can
be read is run, and so is the program that was read last, exactly as it is executed in an empty
environment under the settings of the session and with the commands that are registered by then: with the
same answer and output, and leaving the same environment and counts.  A source that cannot be read
leaves the program, the environment and the counts as they are, and so do changes of the registry.
Running a source is loading it and running what was loaded. -/
theorem perform_after (settings : Settings) (registry : Registry) (history : History)
    (files : FileSystem) :
    let session := (start settings registry).after history
    let setup : Setup :=
      { settings := settings.withBlockCommands registry.blockCommands
        registry := history.registry registry
        files := files }
    session.program = history.program setup.settings ∧
    (∀ source,
      match parse files setup.settings source with
      | .error fault => ∃ log,
        session.perform files (.load source) =
          { reply := .error fault, session := { session with log := log } } ∧
        session.perform files (.run (some source)) =
          { reply := .error fault, session := { session with log := log } }
      | .ok nodes =>
        (∃ log, session.perform files (.load source) =
          { reply := .ok (.loaded nodes.length)
            session := { session with program := some nodes, log := log } }) ∧
        Outcome.Ran setup nodes session (session.perform files (.run (some source)))) ∧
    (match history.program setup.settings with
      | none => session.perform files (.run none) =
          { reply := .error (.of .noProgram), session := session }
      | some nodes => Outcome.Ran setup nodes session (session.perform files (.run none))) ∧
    (∀ source, session.perform files (.run (some source)) =
      match (session.perform files (.load source)).reply with
      | .error _ => session.perform files (.load source)
      | .ok _ => (session.perform files (.load source)).session.perform files (.run none)) ∧
    (∀ name handler opensBlock, (session.perform files (.register name handler opensBlock)).session =
      { session with
        registry := (Step.register name handler opensBlock).registryAfter session.registry }) ∧
    (∀ name, (session.perform files (.unregister name)).session =
      { session with registry := session.registry.unregister name }) := by
  intro session setup
  obtain ⟨hsettings, hregistry, hprogram⟩ := state_after settings registry history
  replace hsettings : session.settings = setup.settings := hsettings
  replace hregistry : session.registry = setup.registry := hregistry
  have hsetup : session.setup files false = setup := by
    rw [Session.setup, hsettings, hregistry]
  refine ⟨hprogram, fun source => ?_, ?_, perform_run_source files session,
    fun name handler opensBlock => ?_, fun name => rfl⟩
  · cases hparse : parse files setup.settings source with
    | error fault => exact perform_of_error files session (hsettings ▸ hparse)
    | ok nodes =>
      rw [← hsetup]
      exact perform_of_ok files session (hsettings ▸ hparse)
  · change session.program = history.program setup.settings at hprogram
    cases hat : history.program setup.settings with
    | none =>
      dsimp only
      rw [perform, hprogram, hat]
    | some nodes =>
      rw [← hsetup]
      exact perform_run files session (hprogram.trans hat)
  · rw [perform, register, Step.registryAfter]
    cases session.registry.register name handler opensBlock <;> rfl

end Pipeline.Session
