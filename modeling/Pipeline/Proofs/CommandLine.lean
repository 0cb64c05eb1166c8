import Pipeline.CommandLine
import Pipeline.Proofs.Files
import Pipeline.Proofs.Program.Inputs

/-!
# The commands agree

The three commands read a program by different routes.  The check takes its text from the standard
input with unified line ends, the other two decode a file; and a run asks its registry for more block
commands and may be told to be strict.  None of this matters for what is read, and a fault of reading is
the same one, on a line of the text, however it is reported then.

* `Settings.ofEnvironment_strict` : the flag of a run changes one setting only.
* `GetsPastParsing` : a run has read its program.
* `commands_agree` : the three commands on one text.
-/

namespace Pipeline

/-! ### Settings -/

theorem SettingName.word_injective {name name' : SettingName} (h : name.word = name'.word) :
    name = name' := by
  cases name <;> cases name' <;> first | rfl | exact absurd h (by decide)

/-- The last of the fields of one name counts. -/
theorem RawFields.find?_append (fields : RawFields) (name given : SettingName) (raw : RawSetting) :
    RawFields.find? (fields ++ [(given.word, raw)]) name =
      if given = name then some raw else fields.find? name := by
  rw [RawFields.find?, RawFields.find?, List.reverse_append]
  show (List.find? _ ((given.word, raw) :: fields.reverse)).map _ = _
  by_cases h : given = name
  · rw [if_pos h, List.find?_cons_of_pos (by simp [h])]
    rfl
  · have hword : given.word ≠ name.word := fun heq => h (SettingName.word_injective heq)
    rw [if_neg h, List.find?_cons_of_neg (by simp [hword])]

namespace Settings

/-- A field of another name does not matter. -/
theorem readField_append {α : Type} {fields : RawFields} {name given : SettingName} {raw : RawSetting}
    (h : given ≠ name) (default : α) (read : RawSetting → Except SettingProblem α) :
    readField (fields ++ [(given.word, raw)]) name default read =
      readField fields name default read := by
  rw [readField, readField, RawFields.find?_append, if_neg h]

/-- With all variables of the environment as they were, the flag changes one setting. -/
theorem ofFields_strict {fields : RawFields} {settings : Settings}
    (h : ofFields fields = .ok settings) :
    ofFields (fields ++ [(SettingName.strictVariables.word, .boolean true)]) =
      .ok { settings with strictVariables := true } := by
  have hstrict : readField (fields ++ [(SettingName.strictVariables.word, .boolean true)])
      .strictVariables ({} : Settings).strictVariables (·.readBoolean) = (true, []) := by
    rw [readField, RawFields.find?_append, if_pos rfl]
    rfl
  unfold ofFields at h ⊢
  dsimp only at h ⊢
  rw [readField_append (by decide), hstrict, readField_append (by decide),
    readField_append (by decide), readField_append (by decide), readField_append (by decide)]
  generalize readField fields .unknownEscape _ _ = policy at h ⊢
  generalize readField fields .strictVariables _ _ = strict at h
  generalize readField fields .terminator _ _ = terminator at h ⊢
  generalize readField fields .blockCommands _ _ = blocks at h ⊢
  generalize readField fields .maxDepth _ _ = depth at h ⊢
  generalize readField fields .maxCallDepth _ _ = calls at h ⊢
  split at h
  · next hissues =>
    simp only [List.append_eq_nil_iff] at hissues
    obtain ⟨⟨⟨⟨⟨hpolicy, -⟩, hterminator⟩, hblocks⟩, hdepth⟩, hcalls⟩ := hissues
    cases h
    rw [hpolicy, hterminator, hblocks, hdepth, hcalls]
    rfl
  · cases h

theorem exists_name_of_mem {lookup : String → Option String} {entry : String × RawSetting}
    (h : entry ∈ environmentFields lookup) :
    ∃ name : SettingName, name ≠ .blockCommands ∧ entry.1 = name.word := by
  rw [environmentFields, List.mem_filterMap] at h
  obtain ⟨⟨variableName, name⟩, hmem, hfield⟩ := h
  have hname : name ≠ .blockCommands := by
    rintro rfl
    simp [environmentVariables] at hmem
  refine ⟨name, hname, ?_⟩
  dsimp only at hfield
  split at hfield
  · split at hfield
    · cases hfield
    · cases hfield
      rfl
  · cases hfield

/-- The environment sets no block commands. -/
theorem blockCommands_of_ofEnvironment {lookup : String → Option String} {settings : Settings}
    (h : ofEnvironment lookup [] = .ok settings) :
    settings.blockCommands = ({} : Settings).blockCommands := by
  have hfind : RawFields.find? (environmentFields lookup ++ []) .blockCommands = none := by
    rw [List.append_nil, RawFields.find?, Option.map_eq_none_iff, List.find?_eq_none]
    intro entry hentry
    obtain ⟨name, hne, hname⟩ := exists_name_of_mem (List.mem_reverse.1 hentry)
    rw [hname, beq_iff_eq]
    exact fun heq => hne (SettingName.word_injective heq)
  have hblocks : readField (environmentFields lookup ++ []) .blockCommands
      ({} : Settings).blockCommands (·.readCommands) = (({} : Settings).blockCommands, []) := by
    rw [readField, hfind]
  unfold ofEnvironment ofFields at h
  dsimp only at h
  rw [hblocks] at h
  split at h
  · cases h
    rfl
  · cases h

end Settings

namespace CommandLine

/-- The field that the flag of a run gives. -/
def strictField (strict : Bool) : RawFields :=
  if strict then [(SettingName.strictVariables.word, .boolean true)] else []

/-- A run of a file gets past parsing: its settings are valid, and its session reads a program. -/
def GetsPastParsing (around : Surroundings) (file : String) (strict : Bool) : Prop :=
  ∃ settings nodes, Settings.ofEnvironment around.lookup (strictField strict) = .ok settings ∧
    ((Session.start settings .standard).load around.files (.file file)).1 = .ok nodes

variable {around : Surroundings} {content file : String} {settings : Settings}

/-- The settings of a run are those of the other commands, but for strictness. -/
theorem exists_settings (h : Settings.ofEnvironment around.lookup [] = .ok settings) (strict : Bool) :
    ∃ settings', Settings.ofEnvironment around.lookup (strictField strict) = .ok settings' ∧
      settings.ReadAlike (Session.start settings' .standard).settings := by
  have hblocks := Settings.blockCommands_of_ofEnvironment h
  cases strict with
  | false => exact ⟨settings, h, by rw [settings_start_standard hblocks]; exact .refl settings⟩
  | true =>
    rw [Settings.ofEnvironment, List.append_nil] at h
    have hstart := settings_start_standard (s := { settings with strictVariables := true }) hblocks
    refine ⟨_, Settings.ofFields_strict h, ?_⟩
    rw [hstart]
    exact ⟨rfl, rfl, rfl, rfl⟩

/-! ### The three commands -/

/-- One text is in the standard input and in a file. -/
structure Offers (around : Surroundings) (content file : String) : Prop where
  input : around.input = content
  stored : around.files file = .ok content.toUTF8
  name : hasNul file = false

/-- The report on a fault of reading. -/
def faultReport (line : Nat) (argument : Option Int) (cause : Cause) : String :=
  "[Error] " ++ Place.locate ⟨some line, argument⟩ cause.message ++ "\n"

section

variable (h : Offers around content file)
  (hsettings : Settings.ofEnvironment around.lookup [] = .ok settings)

include h hsettings

theorem lint_eq (hreturns : Text.PairedReturns content.toList) :
    lint around =
      match Program.ofText settings content with
      | .ok _ => { result := .ok 0 }
      | .error (.script cause place) =>
        { result := .ok 0
          output := "line " ++ toString (findingLine place) ++ ": " ++ cause.message ++ "\n" }
      | .error fault => { result := .error fault } := by
  unfold lint
  rw [hsettings, h.input]
  dsimp only [bind, Except.bind]
  generalize hparsed :
    Program.ofText settings (String.ofList (Text.unifyLineEnds content.toList)) = parsed
  rw [Program.ofText_unify hreturns] at hparsed
  subst hparsed
  rfl

theorem showTree_eq :
    showTree around file =
      match Program.ofText settings content with
      | .ok nodes =>
        { result := .ok 0, output := (Program.json nodes).text ++ "\n", asked := [file] }
      | .error fault =>
        if reportedByTree fault then { result := .ok 1, output := errorLine fault, asked := [file] }
        else { result := .error fault, asked := [file] } := by
  unfold showTree
  rw [hsettings, Source.read_file h.name h.stored]
  rfl

omit hsettings in
/-- What a run reads. -/
theorem load_eq {settings' : Settings}
    (halike : settings.ReadAlike (Session.start settings' .standard).settings) :
    ((Session.start settings' .standard).load around.files (.file file)).1 =
      Program.ofText settings content := by
  rw [Session.fst_load, Session.parse, Source.read_file h.name h.stored]
  exact Program.ofText_congr halike rfl

theorem getsPastParsing_iff (strict : Bool) :
    GetsPastParsing around file strict ↔ ∃ nodes, Program.ofText settings content = .ok nodes := by
  obtain ⟨settings', hsettings', halike⟩ := exists_settings hsettings strict
  constructor
  · rintro ⟨given, nodes, hgiven, hload⟩
    obtain rfl := Except.ok.inj (hsettings'.symm.trans hgiven)
    exact ⟨nodes, (load_eq h halike).symm.trans hload⟩
  · rintro ⟨nodes, hnodes⟩
    exact ⟨settings', nodes, hsettings', (load_eq h halike).trans hnodes⟩

theorem runFile_of_error {line : Nat} {argument : Option Int} {cause : Cause}
    (hfault : Program.ofText settings content = .error (.script cause ⟨some line, argument⟩))
    (strict showResult : Bool) :
    runFile around file strict showResult =
      { result := .ok 1, output := faultReport line argument cause, asked := [file] } := by
  obtain ⟨settings', hsettings', halike⟩ := exists_settings hsettings strict
  have hload := (load_eq h halike).trans hfault
  rw [Session.fst_load] at hload
  obtain ⟨log, hran⟩ := Session.runSource_of_error around.files false hload
  have hisFile : isFile around.files file = .ok true := by
    rw [isFile, h.name, h.stored]
    rfl
  unfold runFile
  rw [hisFile]
  dsimp only
  rw [strictField] at hsettings'
  rw [hsettings']
  dsimp only
  rw [hran]
  rfl

end

/-- A fault of reading is on a line of the text. -/
theorem exists_of_ofText_error {fault : Fault} (h : Program.ofText settings content = .error fault) :
    ∃ (line : Nat) (argument : Option Int) (cause : Cause), 1 ≤ line ∧
      line ≤ Session.lineCount content ∧ fault = .script cause ⟨some line, argument⟩ := by
  have hsound := Session.load_sound (fun _ => .error .missing) content
    { settings := settings, registry := .standard }
  rw [Session.fst_load] at hsound
  change match Program.ofText settings content with
    | .ok nodes => _
    | .error fault => _ at hsound
  rw [h] at hsound
  obtain ⟨line, hfirst, hlast, cause, argument, rfl⟩ := hsound
  exact ⟨line, argument, cause, hfirst, hlast, rfl⟩

/-- **The commands agree.**  One text is in the standard input and in a file, every carriage return in
it stands in front of a line feed, and the variables of the environment give valid settings.  Then the
check prints nothing where showing the tree succeeds, and where a run gets past parsing.  Otherwise all
three report one fault, on a line of the text: the check in its own form and without failing, the other
two as an error. -/
theorem commands_agree {around : Surroundings} {content file : String}
    (h : Offers around content file) (hreturns : Text.PairedReturns content.toList)
    (hsettings : ∃ settings, Settings.ofEnvironment around.lookup [] = .ok settings)
    {lintArgs treeArgs runArgs : List String} {strict showResult : Bool}
    (hlint : readArgs lintArgs = .lint) (htree : readArgs treeArgs = .tree file)
    (hrun : readArgs runArgs = .run file strict showResult) :
    let linted := perform around lintArgs
    let shown := perform around treeArgs
    let ran := perform around runArgs
    (linted.output = "" ↔ shown.result = .ok 0) ∧
      (shown.result = .ok 0 ↔ GetsPastParsing around file strict) ∧
      linted.result = .ok 0 ∧
      (¬GetsPastParsing around file strict →
        ∃ (line : Nat) (argument : Option Int) (cause : Cause),
          1 ≤ line ∧ line ≤ Session.lineCount content ∧
          linted.output = "line " ++ toString line ++ ": " ++ cause.message ++ "\n" ∧
          shown.result = .ok 1 ∧ shown.output = faultReport line argument cause ∧
          ran.result = .ok 1 ∧ ran.output = faultReport line argument cause) := by
  intro linted shown ran
  obtain ⟨settings, hsettings⟩ := hsettings
  have hlinted : linted = lint around := by
    show perform around lintArgs = _
    rw [perform, hlint]
  have hshown : shown = showTree around file := by
    show perform around treeArgs = _
    rw [perform, htree]
  have hran : ran = runFile around file strict showResult := by
    show perform around runArgs = _
    rw [perform, hrun]
  rw [hlinted, hshown, hran, getsPastParsing_iff h hsettings, lint_eq h hsettings hreturns,
    showTree_eq h hsettings]
  cases hread : Program.ofText settings content with
  | ok nodes =>
    have hparsed : ∃ nodes', (Except.ok nodes : Except Fault (List Node)) = .ok nodes' := ⟨nodes, rfl⟩
    exact ⟨iff_of_true rfl rfl, iff_of_true rfl hparsed, rfl, fun hnot => absurd hparsed hnot⟩
  | error fault =>
    obtain ⟨line, argument, cause, hfirst, hlast, rfl⟩ := exists_of_ofText_error hread
    have hfinding : findingLine ⟨some line, argument⟩ = line := if_neg (by omega)
    have hparsed : ¬∃ nodes, (Except.error (.script cause ⟨some line, argument⟩) :
        Except Fault (List Node)) = .ok nodes := nofun
    have hprinted : "line " ++ toString (line : Int) ++ ": " ++ cause.message ++ "\n" ≠ "" := by
      intro hempty
      have hchars := congrArg String.toList hempty
      simp at hchars
    rw [runFile_of_error h hsettings hread]
    dsimp only
    rw [hfinding]
    exact ⟨iff_of_false hprinted nofun, iff_of_false nofun hparsed, rfl,
      fun _ => ⟨line, argument, cause, hfirst, hlast, rfl, rfl, rfl, rfl, rfl⟩⟩

/-- A terminator on the second line that closes nothing: the check reports it, no tree is shown, and a
strict run does not start. -/
theorem commands_agree_stray :
    let content := "# nothing\r\nend\r\n"
    let around : Surroundings :=
      { input := content
        files := fun path => if path = "a" then .ok content.toUTF8 else .error .missing }
    Offers around content "a" ∧ Text.PairedReturns content.toList ∧
      Settings.ofEnvironment around.lookup [] = .ok {} ∧
      readArgs ["lint"] = .lint ∧ readArgs ["tree", "a"] = .tree "a" ∧
      readArgs ["run", "a", "--strict"] = .run "a" true false ∧
      (perform around ["lint"]).output = "line 2: Unexpected 'end' outside of a block\n" ∧
      (perform around ["tree", "a"]).result ≠ .ok 0 ∧ ¬GetsPastParsing around "a" true := by
  intro content around
  have hoffers : Offers around content "a" := ⟨rfl, rfl, by decide⟩
  have hreturns : Text.PairedReturns content.toList := by decide
  have hsettings : Settings.ofEnvironment around.lookup [] = .ok {} := rfl
  have hlint : readArgs ["lint"] = .lint := by decide
  have htree : readArgs ["tree", "a"] = .tree "a" := by decide
  have hrun : readArgs ["run", "a", "--strict"] = .run "a" true false := by decide
  have hread : Program.ofText {} content = .error (.script (.strayTerminator "end") (.ofLine 2)) := by
    have hlines : Statement.readLines {} (Text.lines content.toList) = .ok [⟨2, "end", []⟩] := by
      decide +kernel
    rw [Program.ofText, hlines]
    show Program.build {} [⟨2, "end", []⟩] = _
    rw [Program.build, Program.buildFrom, List.drop_zero,
      Program.buildBody_terminator [] (by decide) rfl]
    rfl
  have hprinted : (perform around ["lint"]).output =
      "line 2: Unexpected 'end' outside of a block\n" := by
    rw [perform, hlint]
    dsimp only
    rw [lint_eq hoffers hsettings hreturns, hread]
    rfl
  obtain ⟨hshown, hparsed, -⟩ :=
    commands_agree hoffers hreturns ⟨{}, hsettings⟩ hlint htree hrun
  have hresult : (perform around ["tree", "a"]).result ≠ .ok 0 := by
    intro hzero
    have hempty := hprinted.symm.trans (hshown.2 hzero)
    revert hempty
    decide
  exact ⟨hoffers, hreturns, hsettings, hlint, htree, hrun, hprinted, hresult, mt hparsed.2 hresult⟩

end CommandLine

end Pipeline
