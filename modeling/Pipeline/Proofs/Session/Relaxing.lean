import Pipeline.Proofs.Execution.Relaxing
import Pipeline.Proofs.Program.Relaxing
import Pipeline.Proofs.Session.Steps
import Pipeline.Proofs.Statement.Layout

/-!
# Runs of a text under relaxed settings

A text is read and run with the standard commands, and then once more, under settings that are more
relaxed or on lines with other numbers.  Reading, building and executing each track what they did the
first time, and so does the run as a whole.

* `Session.tracks_runSource` : the two runs end in the same way, or the first one with a fault that the
  other settings lift.
* `Session.runSource_relaxed` : what follows for relaxed settings.
-/

namespace Pipeline

/-! ### Output -/

/-- The printed text is that of the lines, each with its line end. -/
theorem Environment.toList_output (env : Environment) :
    env.output.toList = env.printed.toList.flatMap fun line => line.toList ++ ['\n'] := by
  have hlines (lines : List String) (text : String) :
      (lines.foldl (fun text line => text ++ line ++ "\n") text).toList =
        text.toList ++ lines.flatMap fun line => line.toList ++ ['\n'] := by
    induction lines generalizing text with
    | nil => simp
    | cons line lines ih => simp [ih]
  rw [output, ← Array.foldl_toList, hlines]
  rfl

theorem Environment.output_prefix {env env' : Environment}
    (h : env.printed.toList <+: env'.printed.toList) :
    env.output.toList <+: env'.output.toList := by
  obtain ⟨more, hmore⟩ := h
  rw [toList_output, toList_output, ← hmore, List.flatMap_append]
  exact List.prefix_append _ _

/-- An environment whose recorded bodies have other numbers of lines. -/
def Environment.renumber (f : Int → Int) (env : Environment) : Environment :=
  { env with functions := env.functions.map (Program.renumber f) }

theorem Environment.renumber_id_eq : (fun env : Environment => env.renumber id) = id :=
  funext fun env => by
    rw [renumber, Program.renumber_id_eq, Table.map_id]
    rfl

/-- The faults that only some settings raise. -/
def Fault.IsGuarded : Fault → Prop
  | .script (.unknownEscape _) _ => True
  | .script (.blocksTooDeep _) _ => True
  | .script (.undefinedVariable _) _ => True
  | .script (.callsTooDeep _) _ => True
  | _ => False

theorem Settings.Lifts.isGuarded {s s' : Settings} {fault : Fault} (h : s.Lifts s' fault) :
    fault.IsGuarded := by
  cases fault with
  | script cause place => cases cause <;> first | exact trivial | exact h
  | _ => exact h

theorem Program.tracks_ofText {s s' : Settings} (hsettings : s.Relaxes s') {f : Int → Int}
    {text text' : String} (h : Statement.Renumbers f text text') :
    Tracks s s' f (fun nodes nodes' => nodes' = renumber f nodes) (ofText s text) (ofText s' text') :=
  (Statement.tracks_readLines hsettings h).bind fun given _ heq =>
    heq ▸ tracks_build hsettings given

namespace Session

/-- What the last run of a session printed. -/
def printed (session : Session) : String :=
  (session.environment.map (·.output)).getD ""

/-- What a session shows of its last run, apart from the journal: the environment and the counts. -/
def shown (session : Session) : Option Environment × Table Nat :=
  (session.environment.map (·.withoutJournal), session.counts)

theorem printed_eq (session : Session) :
    session.printed = (session.shown.1.map (·.output)).getD "" := by
  rw [printed, shown, Option.map_map]
  rfl

theorem HasRun.printed_eq {setup : Setup} {nodes : List Node} {before after : Session}
    (h : HasRun setup nodes before after) : after.printed = (setup.runAlone nodes).2.output := by
  have houtput := congrArg (Option.map Environment.output) h.environment
  rw [Option.map_map] at houtput
  exact congrArg (·.getD "") houtput

theorem HasRun.shown_eq {setup : Setup} {nodes : List Node} {before after : Session}
    (h : HasRun setup nodes before after) : after.shown =
      (some (setup.runAlone nodes).2.withoutJournal, (setup.runAlone nodes).2.counts) :=
  Prod.ext h.environment h.counts

section

variable {settings settings' : Settings} (h : settings.Relaxes settings') (files : FileSystem)
  (traced : Bool) {f : Int → Int} {text text' : String}

include h

theorem relaxes_setup : ((start settings .standard).setup files traced).Relaxes
    ((start settings' .standard).setup files traced) where
  settings := h.withBlockCommands _
  registry := rfl
  files := rfl
  standard := standard_setup traced

/-- The same program is read under relaxed settings. -/
theorem tracks_parse (hlines : Statement.Renumbers f text text') :
    Tracks (start settings .standard).settings (start settings' .standard).settings f
      (fun nodes nodes' => nodes' = Program.renumber f nodes)
      (parse files (start settings .standard).settings (.text text))
      (parse files (start settings' .standard).settings (.text text')) :=
  Program.tracks_ofText (h.withBlockCommands _) hlines

/-- Nodes that are executed alone do the same under relaxed settings. -/
theorem ends_runAlone (nodes : List Node) :
    Exec.Ends (start settings .standard).settings (start settings' .standard).settings f 0 Eq
      (((start settings .standard).setup files traced).runAlone nodes)
      (((start settings' .standard).setup files traced).runAlone (Program.renumber f nodes)) :=
  (relaxes_setup h files traced).execute nodes .nothing ⟨rfl, {}, rfl⟩

/-- A run ends as it did under the settings before, on renumbered lines; or it did not get as far,
because of a fault which is lifted. -/
theorem tracks_runSource (hlines : Statement.Renumbers f text text') :
    let ran := (start settings .standard).runSource files traced (.text text)
    let ran' := (start settings' .standard).runSource files traced (.text text')
    (ran'.1 = ran.1.mapError (·.renumber f) ∧
      ran'.2.shown = (ran.2.shown.1.map (·.renumber f), ran.2.shown.2)) ∨
    ∃ fault, ran.1 = .error fault ∧
      (start settings .standard).settings.Lifts (start settings' .standard).settings fault ∧
      ran.2.printed.toList <+: ran'.2.printed.toList := by
  intro ran ran'
  have hread := tracks_parse h files hlines
  generalize hparse : parse files (start settings .standard).settings _ = read at hread
  generalize hparse' : parse files (start settings' .standard).settings _ = read' at hread
  cases hread with
  | @ok nodes _ hnodes =>
    subst hnodes
    obtain ⟨hresult, hrun⟩ := runSource_alone files traced hparse
    obtain ⟨hresult', hrun'⟩ := runSource_alone files traced hparse'
    change ran.1 = _ at hresult
    change ran'.1 = _ at hresult'
    have hends := ends_runAlone (f := f) h files traced nodes
    rw [hresult, hresult', hrun.shown_eq, hrun'.shown_eq, hrun.printed_eq, hrun'.printed_eq]
    generalize ((start settings .standard).setup files traced).runAlone nodes = alone at hends
    generalize ((start settings' .standard).setup files traced).runAlone _ = alone' at hends
    cases hends with
    | ok heq hleft =>
      obtain ⟨-, journal, rfl⟩ := hleft
      exact .inl ⟨congrArg Except.ok heq.symm, rfl⟩
    | fault fault hleft =>
      obtain ⟨-, journal, rfl⟩ := hleft
      exact .inl ⟨rfl, rfl⟩
    | lifted alone' hlifts hprinted =>
      exact .inr ⟨_, rfl, hlifts, Environment.output_prefix hprinted⟩
  | fault fault =>
    obtain ⟨log, hran⟩ := runSource_of_error files traced hparse
    obtain ⟨log', hran'⟩ := runSource_of_error files traced hparse'
    change ran = _ at hran
    change ran' = _ at hran'
    rw [hran, hran']
    exact .inl ⟨rfl, rfl⟩
  | lifted read' hlifts =>
    obtain ⟨log, hran⟩ := runSource_of_error files traced hparse
    change ran = _ at hran
    rw [hran]
    exact .inr ⟨_, rfl, hlifts, List.nil_prefix⟩

end

/-- **Relaxed settings only lift faults of their own.**  A run which did not end with one of the four
guarded faults ends in the same way under relaxed settings: with the same value or fault, variables,
recorded bodies, lists, counts and output.  Where it did, what it had printed is the beginning of what is
printed under the relaxed settings. -/
theorem runSource_relaxed {settings settings' : Settings} (h : settings.Relaxes settings')
    (files : FileSystem) (traced : Bool) (text : String) :
    let ran := (start settings .standard).runSource files traced (.text text)
    let ran' := (start settings' .standard).runSource files traced (.text text)
    ((∀ fault, ran.1 = .error fault → ¬fault.IsGuarded) →
      ran'.1 = ran.1 ∧ ran'.2.shown = ran.2.shown ∧ ran'.2.printed = ran.2.printed) ∧
    ∀ fault, ran.1 = .error fault → fault.IsGuarded →
      ran.2.printed.toList <+: ran'.2.printed.toList := by
  intro ran ran'
  have hlines : Statement.Renumbers id text text := Statement.renumbers_self fun _ _ => rfl
  have hsame : (ran'.1 = ran.1 ∧ ran'.2.shown = ran.2.shown ∧ ran'.2.printed = ran.2.printed) ∨
      ∃ fault, ran.1 = .error fault ∧ fault.IsGuarded ∧
        ran.2.printed.toList <+: ran'.2.printed.toList := by
    refine (tracks_runSource h files traced hlines).imp (fun ⟨hresult, hshown⟩ => ?_)
      fun ⟨fault, hfault, hlifts, hprinted⟩ => ⟨fault, hfault, hlifts.isGuarded, hprinted⟩
    have hshown : ran'.2.shown = ran.2.shown := by
      rw [Environment.renumber_id_eq, Option.map_id] at hshown
      exact hshown
    refine ⟨?_, hshown, by rw [printed_eq, printed_eq, hshown]⟩
    rw [hresult]
    cases ran.1 with
    | ok value => rfl
    | error fault => exact congrArg Except.error (Fault.renumber_id fault)
  refine ⟨fun hnot => ?_, fun fault hfault hguarded => ?_⟩
  · rcases hsame with hsame | ⟨fault, hfault, hguarded, -⟩
    · exact hsame
    · exact absurd hguarded (hnot fault hfault)
  · rcases hsame with ⟨-, -, hprinted⟩ | ⟨-, -, -, hprinted⟩
    · rw [hprinted]
    · exact hprinted

/-- Strict variables stop a run where it would go on otherwise, with one line printed by then. -/
theorem runSource_relaxed_undefined :
    let strict : Settings := { strictVariables := true }
    let files : FileSystem := fun _ => .error .missing
    let ran := (start strict .standard).runSource files false (.text "print 1\nset $x")
    let ran' := (start {} .standard).runSource files false (.text "print 1\nset $x")
    strict.Relaxes {} ∧
      ran.1 = .error (.script (.undefinedVariable "x") (.ofArgument 2 0)) ∧ ran.2.printed = "1\n" ∧
      ran'.1 = .ok .nothing ∧ ran.2.printed.toList <+: ran'.2.printed.toList := by
  intro strict files ran ran'
  have hrelaxes : strict.Relaxes {} :=
    ⟨.inl rfl, .inr rfl, rfl, rfl, Nat.le_refl _, Nat.le_refl _⟩
  have hparse (settings : Settings) (hsettings : settings = strict ∨ settings = {}) :
      parse files (start settings .standard).settings (.text "print 1\nset $x") =
        .ok [.simple ⟨1, "print", [.operand ⟨.number, "1"⟩]⟩,
          .simple ⟨2, "set", [.operand ⟨.variable, "x"⟩]⟩] := by
    have hlines : Statement.readLines settings (Text.lines "print 1\nset $x".toList) =
        .ok [⟨1, "print", [.operand ⟨.number, "1"⟩]⟩, ⟨2, "set", [.operand ⟨.variable, "x"⟩]⟩] := by
      rcases hsettings with rfl | rfl <;> decide +kernel
    rw [settings_start_standard (by rcases hsettings with rfl | rfl <;> rfl)]
    show Program.ofText _ _ = _
    rw [Program.ofText, hlines]
    rcases hsettings with rfl | rfl <;> exact Program.build_of_plain (by decide)
  obtain ⟨hresult, hrun⟩ := runSource_alone files false (hparse strict (.inl rfl))
  obtain ⟨hresult', -⟩ := runSource_alone files false (hparse {} (.inr rfl))
  have houtput := hrun.printed_eq
  rw [setup_start_standard (s := strict) rfl] at hresult houtput
  rw [setup_start_standard (s := {}) rfl] at hresult'
  have hfault : ran.1 = .error (.script (.undefinedVariable "x") (.ofArgument 2 0)) :=
    hresult.trans (by decide +kernel)
  exact ⟨hrelaxes, hfault, houtput.trans (by decide +kernel), hresult'.trans (by decide +kernel),
    (runSource_relaxed hrelaxes files false _).2 _ hfault trivial⟩

end Session

end Pipeline
