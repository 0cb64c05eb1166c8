import Pipeline.Proofs.Execution.Soundness
import Pipeline.Proofs.Program.Blocks
import Pipeline.Proofs.Registry.Names
import Pipeline.Proofs.Statement.Reading
import Pipeline.Session

/-!
# Runs of a source

The run of a source goes through the states of the machine that starts with the nodes of its program.
There is a last one among them, and the result and the environment of the run are those of this state.
So what is said about the states of a run is said about the run.

A session that was started with the standard commands reads a text and runs it.  Whatever the text and
the settings are, every state of the run holds values of the language only, and a run without a result
ends with a fault of the statement whose execution raised it.

A run has as many blocks and calls inside each other as the settings allow.  How deep the host nests its
own calls for them, and when it gives up, is outside the model.

* `settings_start_standard` : the settings that a session starts with.
* `Session.Visits` : the states of a run.
* `Session.exists_endsIn` : the last of these states is how the run ends.
* `Session.load_sound` : a program is read, or there is a fault on a line of the text.
* `Session.sound_of_visits` : the states of a run of that program.
* `Session.runSource_sound` : what follows for the run as a whole.
-/

namespace Pipeline

/-- The accumulator of a machine that has not met a fault. -/
def Machine.value? (m : Machine) : Option Value :=
  match m.control with
  | .run _ value => some value
  | .result result => result.toOption

theorem Machine.Sound.isScript_of_value? {P : Statement → Prop} {m : Machine} (h : m.Sound P)
    {value : Value} (hvalue : m.value? = some value) : value.IsScript := by
  obtain ⟨control, tasks, env⟩ := m
  rcases control with ⟨nodes, value⟩ | ⟨fault | value⟩
  · cases hvalue
    exact h.control.2
  · cases hvalue
  · cases hvalue
    exact h.control

/-! ### The settings of a session -/

/-- Command words that open blocks already change nothing. -/
theorem Settings.withBlockCommands_of_opensBlock {s : Settings} {names : List String}
    (h : ∀ name ∈ names, s.opensBlock name = true) : s.withBlockCommands names = s := by
  have hfilter : names.filter (!s.blockCommands.contains ·) = [] := by
    refine List.filter_eq_nil_iff.2 fun name hname => ?_
    show ¬(!s.opensBlock name) = true
    rw [h name hname]
    exact Bool.false_ne_true
  rw [withBlockCommands, hfilter, List.append_nil]

/-- The standard commands bring no block commands that are not there from the start. -/
theorem settings_start_standard {s : Settings}
    (h : s.blockCommands = ({} : Settings).blockCommands) :
    (Session.start s .standard).settings = s := by
  refine Settings.withBlockCommands_of_opensBlock fun name hname => ?_
  obtain ⟨command, hopens, rfl⟩ := List.mem_map.1 (Registry.mem_blockCommands.1 hname)
  replace hopens := (List.mem_filter.1 hopens).2
  rw [Settings.opensBlock, h]
  cases command <;> first | decide | cases hopens

namespace Session

section

variable (files : FileSystem) (traced : Bool) (text : String) (source : Source) (session : Session)

/-- What the runs of a session are given. -/
def setup : Setup :=
  { settings := session.settings, registry := session.registry, files := files, traced := traced }

/-- The environment in which a run of nodes starts. -/
def fresh (nodes : List Node) : Environment :=
  ({} : Environment).record .info s!"run start: {nodes.length} top-level statements"

/-- A state that running a source gets to. -/
def Visits (m : Machine) : Prop :=
  ∃ nodes calls, (session.load files source).1 = .ok nodes ∧
    Machine.Takes (session.setup files traced) calls (.start nodes .nothing (fresh nodes)) m

/-- The last state of the run of a source, to which all others lead: it has the result of the run and the
environment that is kept. -/
structure EndsIn (last : Machine) : Prop where
  visited : session.Visits files traced source last
  halted : last.step? (session.setup files traced) = none
  final : ∀ m, session.Visits files traced source m →
    ∃ calls, Machine.Takes (session.setup files traced) calls m last
  result : last.control = .result (session.runSource files traced source).1
  environment : ∃ journal, (session.runSource files traced source).2.environment =
    some { last.env with journal := journal }

/-- The number of lines of a text. -/
def lineCount : Nat :=
  (Text.lines text.toList).length

/-- The statements that can be read from a text. -/
def Readable (s : Statement) : Prop :=
  s.Readable 1 (lineCount text)

/-! ### Reading -/

/-- A program is read from the lines of a text, or there is a fault on one of them. -/
theorem load_sound :
    match (session.load files (.text text)).1 with
    | .ok nodes => ∀ s ∈ Program.statements nodes, Readable text s
    | .error fault => ∃ line : Nat, 1 ≤ line ∧ line ≤ lineCount text ∧ fault.OnLine line := by
  have hlines := Statement.readLinesFrom_sound session.settings 1 (Text.lines text.toList)
  rw [load, Source.read]
  dsimp only
  rw [Statement.readLines]
  cases hread : Statement.readLinesFrom session.settings 1 (Text.lines text.toList) with
  | error fault =>
    rw [hread] at hlines
    obtain ⟨line, hfirst, hlast, hline⟩ := hlines
    refine ⟨line, hfirst, ?_, hline⟩
    rw [lineCount]
    omega
  | ok statements =>
    rw [hread] at hlines
    dsimp only at hlines ⊢
    have hbuilt := Program.build_sound (session.record .debug
      s!"parsed {statements.length} statements").settings statements
    cases hbuild : Program.build (session.record .debug
        s!"parsed {statements.length} statements").settings statements with
    | error fault =>
      rw [hbuild] at hbuilt
      obtain ⟨s, hs, hline⟩ := hbuilt
      obtain ⟨hfirst, hlast, -⟩ := hlines s hs
      have hnat : (s.line.toNat : Int) = s.line := Int.toNat_of_nonneg (by omega)
      refine ⟨s.line.toNat, by omega, ?_, hnat ▸ hline⟩
      rw [lineCount]
      omega
    | ok nodes =>
      rw [hbuild] at hbuilt
      exact fun s hs => hlines s (hbuilt s hs)

end

variable {files : FileSystem} (traced : Bool) {session : Session}

section

variable {source : Source} {nodes : List Node} {after : Session} {fault : Fault}

/-- A text is loaded by reading its lines and building their statements. -/
theorem fst_load_text {text : String} {statements : List Statement}
    (hlines : Statement.readLines session.settings (Text.lines text.toList) = .ok statements)
    (hbuild : Program.build session.settings statements = .ok nodes) :
    (session.load files (.text text)).1 = .ok nodes := by
  have hbuilt : Program.build (session.record .debug
      s!"parsed {statements.length} statements").settings statements = .ok nodes := hbuild
  rw [load, Source.read]
  dsimp only
  rw [hlines]
  dsimp only
  rw [hbuilt]

/-- A program that is read is the program at hand, and nothing changes that a run is given. -/
theorem setup_of_load (h : session.load files source = (.ok nodes, after)) :
    after.setup files traced = session.setup files traced ∧ after.program = some nodes := by
  unfold load at h
  split at h
  · cases h
  · split at h
    · cases h
    · dsimp only at h
      split at h
      · cases h
      · cases h
        exact ⟨rfl, rfl⟩

/-- Without a program there is no run. -/
theorem runSource_of_load_error (h : (session.load files source).1 = .error fault) :
    (session.runSource files traced source).1 = .error fault ∧
      (session.runSource files traced source).2.environment = session.environment := by
  rcases hload : session.load files source with ⟨loaded, after⟩
  rw [hload] at h
  obtain rfl : loaded = .error fault := h
  rw [runSource, hload]
  refine ⟨rfl, ?_⟩
  unfold load at hload
  split at hload
  · cases hload
    rfl
  · split at hload
    · cases hload
      rfl
    · dsimp only at hload
      split at hload <;> cases hload
      rfl

/-- What an execution leaves is kept, with more in the journal. -/
theorem environment_runNodes (nodes : List Node) :
    ∃ journal, (session.runNodes files traced nodes).2.environment =
      some { (execute (session.setup files traced) nodes .nothing (fresh nodes)).2 with
        journal := journal } := by
  unfold runNodes inSpan setup fresh
  dsimp only
  generalize execute _ nodes .nothing _ = ran
  obtain ⟨fault | value, left⟩ := ran
  · dsimp only
    cases fault.isScript <;> exact ⟨_, rfl⟩
  · exact ⟨_, rfl⟩

/-- A run of a source executes the nodes that are read from it. -/
theorem runSource_of_load (h : (session.load files source).1 = .ok nodes) :
    (session.runSource files traced source).1 =
        (execute (session.setup files traced) nodes .nothing (fresh nodes)).1 ∧
      ∃ journal, (session.runSource files traced source).2.environment =
        some { (execute (session.setup files traced) nodes .nothing (fresh nodes)).2 with
          journal := journal } := by
  rcases hload : session.load files source with ⟨loaded, after⟩
  rw [hload] at h
  obtain rfl : loaded = .ok nodes := h
  obtain ⟨hsetup, hprogram⟩ := setup_of_load traced hload
  rw [runSource, hload]
  dsimp only
  rw [run, hprogram, ← hsetup]
  exact ⟨rfl, environment_runNodes traced nodes⟩

/-! ### The states of a run -/

/-- A run of a program that was read has a last state. -/
theorem exists_endsIn (hload : (session.load files source).1 = .ok nodes) :
    ∃ last, session.EndsIn files traced source last := by
  obtain ⟨all, hall⟩ := Machine.reaches_execute (session.setup files traced) nodes .nothing
    (fresh nodes)
  obtain ⟨hresult, hleft⟩ := runSource_of_load traced hload
  refine ⟨_, ⟨nodes, all, hload, hall⟩, rfl, fun m h => ?_, congrArg Control.result hresult.symm, hleft⟩
  obtain ⟨nodes', calls, hload', htakes⟩ := h
  obtain rfl : nodes' = nodes := Except.ok.inj (hload'.symm.trans hload)
  obtain ⟨more, -, hrest⟩ := htakes.exists_rest hall rfl
  exact ⟨more, hrest⟩

variable (files session source) in
/-- A run has a last state, or there is no program to run, and then nothing changes. -/
theorem endsIn_or_load_error :
    (∃ last, session.EndsIn files traced source last) ∨
      ∃ fault, (session.load files source).1 = .error fault ∧
        (session.runSource files traced source).1 = .error fault ∧
        (session.runSource files traced source).2.environment = session.environment := by
  cases hload : (session.load files source).1 with
  | error fault => exact .inr ⟨fault, rfl, runSource_of_load_error traced hload⟩
  | ok nodes => exact .inl (exists_endsIn traced hload)

variable {traced}

/-- What a run leaves is what its last state has, with more in the journal. -/
theorem EndsIn.exists_eq {last : Machine} (h : session.EndsIn files traced source last)
    {env : Environment} (henv : (session.runSource files traced source).2.environment = some env) :
    ∃ journal, env = { last.env with journal := journal } := by
  obtain ⟨journal, hleft⟩ := h.environment
  exact ⟨journal, Option.some.inj (henv.symm.trans hleft)⟩

theorem Visits.step {m next : Machine} (h : session.Visits files traced source m)
    (hstep : m.step? (session.setup files traced) = some next) :
    session.Visits files traced source next := by
  obtain ⟨nodes, calls, hload, htakes⟩ := h
  exact ⟨nodes, _, hload, htakes.trans (.step hstep (.refl next))⟩

/-- A fault that is raised in a run is what the run ends with. -/
theorem Visits.runSource_of_raised {m next : Machine} (h : session.Visits files traced source m)
    (hstep : m.step? (session.setup files traced) = some next)
    (hfault : next.control = .result (.error fault)) :
    (session.runSource files traced source).1 = .error fault := by
  have hnext : session.Visits files traced source next := h.step hstep
  obtain ⟨nodes, calls, hload, -⟩ := h
  obtain ⟨last, hlast⟩ := exists_endsIn traced hload
  obtain ⟨more, hmore⟩ := hlast.final next hnext
  have hend : last.control = .result (.error fault) := Machine.eq_error_of_takes hmore hfault
  exact Control.result.inj (hlast.result.symm.trans hend)

end

/-! ### Running -/

section

variable {settings : Settings} {text : String}

theorem standard_setup : Machine.Standard ((start settings .standard).setup files traced) :=
  fun _ _ h => Registry.find?_standard h

theorem writableArgs_readable : Machine.WritableArgs (Readable text) :=
  fun _ h => h.args

/-- In a fresh environment there is nothing that could be wrong. -/
theorem sound_fresh (nodes : List Node) : (fresh nodes).Sound (Readable text) where
  bindings := fun _ _ h => nomatch h
  elements := fun _ _ h => absurd h (Array.not_mem_empty _)
  functions := fun _ _ h => nomatch h

/-- Every state of a run is sound, and a fault that is there was raised on the way, by a step that
executed the statement it is about. -/
theorem sound_of_visits {m : Machine}
    (h : (start settings .standard).Visits files traced (.text text) m) :
    m.Sound (Readable text) ∧ ∀ fault, m.control = .result (.error fault) →
      ∃ raising next, (start settings .standard).Visits files traced (.text text) raising ∧
        raising.step? ((start settings .standard).setup files traced) = some next ∧
        next.control = .result (.error fault) ∧
        raising.Blames (Readable text) ((start settings .standard).setup files traced) fault := by
  obtain ⟨nodes, calls, hload, htakes⟩ := h
  have hnodes := load_sound files text (start settings .standard)
  rw [hload] at hnodes
  have hbody : Machine.BodyOf (Readable text) (some nodes) := fun _ h => Option.some.inj h ▸ hnodes
  have hstart : (Machine.start nodes .nothing (fresh nodes)).Sound (Readable text) :=
    Machine.sound_enter hbody (fun _ h => nomatch h) (sound_fresh nodes) trivial
  obtain ⟨hsound, hraised⟩ :=
    Machine.sound_takes writableArgs_readable (standard_setup traced) hstart htakes
  refine ⟨hsound, fun fault hfault => ?_⟩
  rcases hraised fault hfault with hbefore | ⟨part, raising, next, hpart, hraise⟩
  · cases hbefore
  · exact ⟨raising, next, ⟨nodes, part, hload, hpart⟩, hraise⟩

/-! ### The end of a run -/

theorem isScript_of_runSource {value : Value}
    (h : ((start settings .standard).runSource files traced (.text text)).1 = .ok value) :
    value.IsScript := by
  rcases endsIn_or_load_error files traced (start settings .standard) (.text text) with
    ⟨last, hlast⟩ | ⟨fault, -, hran, -⟩
  · refine (sound_of_visits traced hlast.visited).1.isScript_of_value? ?_
    rw [Machine.value?, hlast.result, h]
    rfl
  · cases hran.symm.trans h

theorem scriptValues_of_runSource {env : Environment}
    (h : ((start settings .standard).runSource files traced (.text text)).2.environment = some env) :
    env.ScriptValues := by
  rcases endsIn_or_load_error files traced (start settings .standard) (.text text) with
    ⟨last, hlast⟩ | ⟨fault, -, -, hkept⟩
  · obtain ⟨journal, rfl⟩ := hlast.exists_eq h
    have hsound := (sound_of_visits traced hlast.visited).1.env
    exact ⟨hsound.bindings, hsound.elements⟩
  · cases hkept.symm.trans h

/-- A fault of a run is one of reading the text, or was raised by the execution of a statement of it. -/
theorem located_of_runSource {fault : Fault}
    (h : ((start settings .standard).runSource files traced (.text text)).1 = .error fault) :
    (((start settings .standard).load files (.text text)).1 = .error fault ∧
        ∃ line : Nat, 1 ≤ line ∧ line ≤ lineCount text ∧ fault.OnLine line) ∨
      ∃ m next, (start settings .standard).Visits files traced (.text text) m ∧ m.Unfailed ∧
        m.step? ((start settings .standard).setup files traced) = some next ∧
        next.control = .result (.error fault) ∧
        m.Blames (Readable text) ((start settings .standard).setup files traced) fault := by
  rcases endsIn_or_load_error files traced (start settings .standard) (.text text) with
    ⟨last, hlast⟩ | ⟨fault', hload, hran, -⟩
  · obtain ⟨raising, next, hvisits, hstep, hnext, hblames⟩ :=
      (sound_of_visits traced hlast.visited).2 fault (h ▸ hlast.result)
    exact .inr ⟨raising, next, hvisits, hblames.unfailed, hstep, hnext, hblames⟩
  · obtain rfl := Except.error.inj (hran.symm.trans h)
    have hread := load_sound files text (start settings .standard)
    rw [hload] at hread
    exact .inl ⟨hload, hread⟩

end

/-- **Runs are sound, and their faults are located.**  In every state of a run the accumulator, the
variables and the elements of the lists are values of the language, each of which has a kind; and so
are the result and what the run leaves, which are those of the last state.  A run without a result ends
with a fault of reading, on a line of the text, or with one that a step of the run gives.  The state
before this step has met no fault, it is about to execute a statement on a line of the text, and `Raised`
describes the fault as one of this very statement: it is on its line, or it is none of the script.  And
a fault that comes of a step is the one that the run ends with.
The three situations in which `Raised` has something else than faults of the script, lists that contain
themselves apart, are such faults indeed: a number token with too many digits is evaluated, a number
with too many digits is rendered, a file is asked for under a path with a NUL character. -/
theorem runSource_sound (settings : Settings) (files : FileSystem) (traced : Bool) (text : String) :
    let session := start settings .standard
    let setup := session.setup files traced
    let ran := session.runSource files traced (.text text)
    (∀ m, session.Visits files traced (.text text) m →
      (∀ value, m.value? = some value → value.IsScript) ∧ m.env.ScriptValues) ∧
    (∀ value : Value, value.IsScript → ∃ kind, value.kind = .ok kind) ∧
    ((∀ value, ran.1 = .ok value → value.IsScript) ∧
      (∀ env, ran.2.environment = some env → env.ScriptValues) ∧
      ∀ fault, ran.1 = .error fault →
        ((session.load files (.text text)).1 = .error fault ∧
          ∃ line : Nat, 1 ≤ line ∧ line ≤ lineCount text ∧ fault.OnLine line) ∨
        ∃ m next, session.Visits files traced (.text text) m ∧ m.Unfailed ∧
          m.step? setup = some next ∧ next.control = .result (.error fault) ∧
          m.Blames (Readable text) setup fault) ∧
    (∀ nodes, (session.load files (.text text)).1 = .ok nodes →
      ∃ last, session.EndsIn files traced (.text text) last) ∧
    (∀ m next fault, session.Visits files traced (.text text) m → m.step? setup = some next →
      next.control = .result (.error fault) → ran.1 = .error fault) ∧
    (∀ digits bindings, Operand.Writable ⟨.number, digits⟩ → Numeral.digitLimit < digits.length →
      (Expr.operand ⟨.number, digits⟩).eval setup.settings.strictVariables bindings =
        .error (.numeral .tooLong)) ∧
    (∀ (store : Store) (n : Int), Numeral.bound ≤ n.natAbs →
      store.render (.number n) = .error (.numeral .tooLong)) ∧
    (∀ path line env, hasNul path = true →
      Command.readText setup line path env = (.error .nulInPath, env)) := by
  intro session setup ran
  refine ⟨fun m h => ?_, fun value h => h.exists_kind,
    ⟨fun value => isScript_of_runSource traced, fun env => scriptValues_of_runSource traced,
      fun fault => located_of_runSource traced⟩,
    fun nodes => exists_endsIn traced, fun m next fault h => h.runSource_of_raised,
    fun digits bindings h hlimit => Expr.eval_of_long h hlimit _ bindings,
    fun store n => Store.render_of_long, fun path line env h => readText_of_nul h setup line env⟩
  obtain ⟨hsound, -⟩ := sound_of_visits traced h
  exact ⟨fun _ => hsound.isScript_of_value?, hsound.env.toScriptValues⟩

/-- A function that divides by zero: the run fails on the line of the division, not on that of the call,
and it is the division whose execution raises the fault. -/
theorem runSource_sound_inside_call :
    let files : FileSystem := fun _ => .error .missing
    let session := start {} .standard
    let source : Source := .text "function $f\nset 1/0\nend\ncall $f"
    (session.runSource files false source).1 = .error (.script .divisionByZero ⟨some 2, some 0⟩) ∧
    ∃ m next node rest value, session.Visits files false source m ∧
      m.step? (session.setup files false) = some next ∧
      next.control = .result (session.runSource files false source).1 ∧
      m.control = .run (node :: rest) value ∧ node.statement.line = 2 := by
  intro files session source
  let quotient := Expr.binary "/" (.operand ⟨.number, "1"⟩) (.operand ⟨.number, "0"⟩)
  let nodes : List Node := [.block ⟨1, "function", [.operand ⟨.variable, "f"⟩]⟩
    [.simple ⟨2, "set", [quotient]⟩], .simple ⟨4, "call", [.operand ⟨.variable, "f"⟩]⟩]
  have hload : (session.load files source).1 = .ok nodes := by
    have hsettings : session.settings = {} := settings_start_standard rfl
    have hlines : Statement.readLines {} (Text.lines "function $f\nset 1/0\nend\ncall $f".toList) =
        .ok [⟨1, "function", [.operand ⟨.variable, "f"⟩]⟩, ⟨2, "set", [quotient]⟩, ⟨3, "end", []⟩,
          ⟨4, "call", [.operand ⟨.variable, "f"⟩]⟩] := by decide +kernel
    have hwf : Program.WellFormed {} false nodes :=
      .block rfl (by decide) (fun h => absurd h (by decide)) (.simple rfl (by decide) (.nil _))
        (.simple rfl (by decide) (.nil _))
    refine fst_load_text (hsettings ▸ hlines) ?_
    rw [hsettings]
    exact Program.build_of_wellFormed Program.hasBranches_default hwf (by decide) (by decide)
  have hran : (session.runSource files false source).1 =
      .error (.script .divisionByZero ⟨some 2, some 0⟩) :=
    (runSource_of_load false hload).1.trans rfl
  obtain ⟨-, -, ⟨-, -, hlocated⟩, -⟩ :=
    runSource_sound {} files false "function $f\nset 1/0\nend\ncall $f"
  refine ⟨hran, ?_⟩
  rcases hlocated _ hran with ⟨hread, -⟩ | ⟨m, next, hvisits, -, hstep, hnext, hblames⟩
  · cases hload.symm.trans hread
  · obtain ⟨node, rest, value, hcontrol, -, hraised⟩ := hblames
    refine ⟨m, next, node, rest, value, hvisits, hstep, hnext.trans (by rw [hran]), hcontrol, ?_⟩
    cases hraised with
    | onLine hline =>
      obtain ⟨cause, argument, hplace⟩ := hline
      simp only [Fault.script.injEq, Place.mk.injEq, Option.some.injEq] at hplace
      exact hplace.2.1.symm

end Session

end Pipeline
