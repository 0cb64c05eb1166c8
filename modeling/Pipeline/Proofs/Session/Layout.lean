import Pipeline.Proofs.Program.Members
import Pipeline.Proofs.Session.Relaxing

/-!
# The layout of a text does not matter

Two texts that differ in their layout are read as the same program, and run in the same way, except
that the lines which hold statements have other numbers.  The numbers are replaced in order, and a fault
of the script names one of these lines, so both runs fail at corresponding lines.

* `Session.runSource_renumbered` : a text whose lines are renumbered.
* `Session.held_of_runSource` : the lines that programs and faults name hold statements.
* `Session.runSource_sameLayout` : two layouts.
-/

namespace Pipeline

/-! ### Lines that are not renumbered -/

mutual

theorem Node.statements_renumber (f : Int → Int) :
    ∀ node : Node, (node.renumber f).statements = node.statements.map (·.renumber f)
  | .simple _ => rfl
  | .block s body => congrArg (s.renumber f :: ·) (Program.statements_renumber f body)

theorem Program.statements_renumber (f : Int → Int) :
    ∀ nodes : List Node,
      Program.statements (Program.renumber f nodes) = (Program.statements nodes).map (·.renumber f)
  | [] => rfl
  | node :: rest => by
    rw [Program.renumber, Program.statements, Program.statements, Node.statements_renumber f node,
      Program.statements_renumber f rest, List.map_append]

end

theorem Program.line_of_renumber {f : Int → Int} {nodes : List Node} (h : renumber f nodes = nodes)
    {s : Statement} (hs : s ∈ statements nodes) : f s.line = s.line := by
  have hstatements := statements_renumber f nodes
  rw [h] at hstatements
  have hsame : s.renumber f = id s :=
    List.map_inj_left.1 (hstatements.symm.trans (List.map_id _).symm) s hs
  exact congrArg Statement.line hsame

theorem Fault.line_of_renumber {f : Int → Int} {fault : Fault} (h : fault.renumber f = fault)
    {line : Int} (hline : fault.OnLine line) : f line = line := by
  obtain ⟨cause, argument, rfl⟩ := hline
  have hplace := (Fault.script.inj h).2
  exact Option.some.inj (congrArg Place.line hplace)

namespace Session

/-- Reading a text gives the same program, or the same fault, on renumbered lines. -/
def ReadsAs (f : Int → Int) (read read' : Except Fault (List Node)) : Prop :=
  read' = (read.map (Program.renumber f)).mapError (·.renumber f)

variable (settings : Settings) (files : FileSystem) (traced : Bool) {f : Int → Int}
  {text text' : String}

/-- Lines with other numbers are read and run in the same way. -/
theorem runSource_renumbered (hlines : Statement.Renumbers f text text') :
    let session := start settings .standard
    let ran := session.runSource files traced (.text text)
    let ran' := session.runSource files traced (.text text')
    ReadsAs f (session.load files (.text text)).1 (session.load files (.text text')).1 ∧
      ran'.1 = ran.1.mapError (·.renumber f) ∧
      ran'.2.shown = (ran.2.shown.1.map (·.renumber f), ran.2.shown.2) := by
  intro session ran ran'
  refine ⟨?_, ?_⟩
  · rw [fst_load, fst_load]
    have hread := tracks_parse (.refl settings) files hlines
    change Tracks session.settings session.settings _ _ (parse files session.settings _)
      (parse files session.settings _) at hread
    generalize parse files session.settings _ = read at hread
    generalize parse files session.settings _ = read' at hread
    cases hread with
    | ok hnodes => exact congrArg Except.ok hnodes
    | fault fault => rfl
    | lifted _ hlifts => exact absurd hlifts (Settings.not_lifts_self _)
  · rcases tracks_runSource (.refl settings) files traced hlines with hsame | ⟨_, -, hlifts, -⟩
    · exact hsame
    · exact absurd hlifts (Settings.not_lifts_self _)

/-- The lines of a program, and those on which there are faults, hold statements.  A line without one
can have any number. -/
theorem held_of_runSource (text : String) :
    let session := start settings .standard
    (∀ nodes, (session.load files (.text text)).1 = .ok nodes →
      ∀ s ∈ Program.statements nodes, s.line ∈ Statement.heldLines text) ∧
    ∀ fault line, (session.runSource files traced (.text text)).1 = .error fault →
      fault.OnLine line → line ∈ Statement.heldLines text := by
  intro session
  have held {line : Int} (hfix : ∀ f : Int → Int, Statement.Renumbers f text text → f line = line) :
      line ∈ Statement.heldLines text := by
    by_contra hnot
    have hmoved := hfix (Function.update id line (line + 1)) <| Statement.renumbers_self fun n hn =>
      Function.update_of_ne (fun heq : n = line => hnot (heq ▸ hn)) ..
    rw [Function.update_self] at hmoved
    omega
  refine ⟨fun nodes hload s hs => held fun f hlines => ?_,
    fun fault line hran hline => held fun f hlines => ?_⟩
  · have hread := (runSource_renumbered settings files traced hlines).1
    change ReadsAs f (session.load files (.text text)).1 (session.load files (.text text)).1 at hread
    rw [hload] at hread
    exact Program.line_of_renumber (Except.ok.inj hread).symm hs
  · have hsame := (runSource_renumbered settings files traced hlines).2.1
    change (session.runSource files traced (.text text)).1 =
      (session.runSource files traced (.text text)).1.mapError _ at hsame
    rw [hran] at hsame
    exact Fault.line_of_renumber (Except.error.inj hsame).symm hline

/-- **The layout does not matter.**  Idle lines can be inserted and deleted, the blanks around lines and
behind command words changed, and command words respelled, under any settings: the lines that hold
statements are replaced in order, the same program is read on the replaced lines, and it runs in the same
way, with the same value, variables, lists, counts and output, or with the same fault at the
corresponding place. -/
theorem runSource_sameLayout {s s' : String} (h : Text.SameLayout s s') :
    let session := start settings .standard
    let ran := session.runSource files traced (.text s)
    let ran' := session.runSource files traced (.text s')
    ∃ f : Int → Int,
      (Statement.heldLines s).map f = Statement.heldLines s' ∧
      Statement.KeepsOrder f (Statement.heldLines s) ∧
      ReadsAs f (session.load files (.text s)).1 (session.load files (.text s')).1 ∧
      (∀ nodes, (session.load files (.text s)).1 = .ok nodes →
        ∀ t ∈ Program.statements nodes, t.line ∈ Statement.heldLines s) ∧
      ran'.1 = ran.1.mapError (·.renumber f) ∧
      (∀ fault line, ran.1 = .error fault → fault.OnLine line → line ∈ Statement.heldLines s) ∧
      ran'.2.shown = (ran.2.shown.1.map (·.renumber f), ran.2.shown.2) ∧
      ran'.2.printed = ran.2.printed := by
  intro session ran ran'
  obtain ⟨f, hlines, hmap, hmono⟩ := Statement.exists_renumbering h
  obtain ⟨hread, hresult, hshown⟩ := runSource_renumbered settings files traced hlines
  obtain ⟨hprogram, hfault⟩ := held_of_runSource settings files traced s
  refine ⟨f, hmap, hmono, hread, hprogram, hresult, hfault, hshown, ?_⟩
  rw [printed_eq, printed_eq]
  change ran'.2.shown = _ at hshown
  rw [hshown, Option.map_map]
  rfl

/-- A division by zero on the only line is met on the second one, behind a comment, with the command word
in another spelling and other blanks around it. -/
theorem runSource_sameLayout_division :
    let files : FileSystem := fun _ => .error .missing
    let s := "set 1/0"
    let s' := "# a\n SET\t1/0\r"
    let ran := (start {} .standard).runSource files false (.text s)
    let ran' := (start {} .standard).runSource files false (.text s')
    Text.SameLayout s s' ∧ ran.1 = .error (.script .divisionByZero (.ofArgument 1 0)) ∧
      ran'.1 = .error (.script .divisionByZero (.ofArgument 2 0)) ∧ ran'.2.printed = ran.2.printed := by
  intro files s s' ran ran'
  have hlayout : Text.SameLayout s s' := by
    have hlines : Text.lines s.toList = [['s', 'e', 't', ' ', '1', '/', '0']] := by decide +kernel
    have hlines' : Text.lines s'.toList =
        [['#', ' ', 'a'], [' ', 'S', 'E', 'T', '\t', '1', '/', '0', '\r']] := by decide +kernel
    have hset : Text.IsWord ['s', 'e', 't'] ∧ Text.IsWord ['S', 'E', 'T'] := by decide +kernel
    have hblank {c : Char} (h : Text.isBlank c = true) : Text.Blank [c] := List.forall_mem_singleton.2 h
    have hcomment : Text.IdleLine ['#', ' ', 'a'] :=
      @Text.IdleLine.comment [] [' ', 'a'] (List.forall_mem_nil _)
    have hword : Text.SameLine ['s', 'e', 't', ' ', '1', '/', '0']
        ['S', 'E', 'T', ' ', '1', '/', '0'] :=
      @Text.SameLine.respelled [] _ _ [' ', '1', '/', '0'] (List.forall_mem_nil _) hset.1 hset.2
        (by decide +kernel) (by rintro _ ⟨⟩; rfl)
    have hgap : Text.SameLine ['S', 'E', 'T', ' ', '1', '/', '0']
        ['S', 'E', 'T', '\t', '1', '/', '0'] :=
      @Text.SameLine.gap [] _ [' '] ['\t'] ['1', '/', '0'] (List.forall_mem_nil _) hset.2 (hblank rfl)
        (List.cons_ne_nil _ _) (hblank rfl) (List.cons_ne_nil _ _)
    have hmargins : Text.SameLine ['S', 'E', 'T', '\t', '1', '/', '0']
        [' ', 'S', 'E', 'T', '\t', '1', '/', '0', '\r'] :=
      @Text.SameLine.margins [] [' '] [] ['\r'] ['S', 'E', 'T', '\t', '1', '/', '0']
        (List.forall_mem_nil _) (hblank rfl) (List.forall_mem_nil _) (hblank rfl)
    rw [Text.SameLayout, hlines, hlines']
    exact .head (.insert [] _ hcomment) <| .head (.change [_] [] hword) <|
      .head (.change [_] [] hgap) <| .single (.change [_] [] hmargins)
  obtain ⟨f, hmap, -, -, -, hresult, -, -, hprinted⟩ :=
    runSource_sameLayout {} files false hlayout
  have hparse : parse files (start {} .standard).settings (.text s) = .ok [.simple ⟨1, "set",
      [.binary "/" (.operand ⟨.number, "1"⟩) (.operand ⟨.number, "0"⟩)]⟩] := by
    have hgiven : Statement.readLines {} (Text.lines s.toList) = .ok [⟨1, "set",
        [.binary "/" (.operand ⟨.number, "1"⟩) (.operand ⟨.number, "0"⟩)]⟩] := by
      decide +kernel
    rw [settings_start_standard rfl]
    show Program.ofText _ _ = _
    rw [Program.ofText, hgiven]
    exact Program.build_of_plain (by decide)
  have hran : ran.1 = .error (.script .divisionByZero (.ofArgument 1 0)) := by
    have halone := (runSource_alone files false hparse).1
    rw [setup_start_standard (s := {}) rfl] at halone
    exact halone.trans (by decide +kernel)
  have hheld : Statement.heldLines s = [1] := by decide +kernel
  have hheld' : Statement.heldLines s' = [2] := by decide +kernel
  have hline : f 1 = 2 := by
    rw [hheld, hheld'] at hmap
    exact (List.cons.inj hmap).1
  refine ⟨hlayout, hran, ?_, hprinted⟩
  change ran'.1 = ran.1.mapError _ at hresult
  rw [hresult, hran, ← hline]
  rfl

end Session

end Pipeline
