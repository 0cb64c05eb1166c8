import Pipeline.Proofs.CommandLine
import Pipeline.Proofs.Json.Documents

/-!
# Trees that are printed

Two files with one printed tree hold one program: every line number and command, every argument with the
kinds and the texts of its tokens, and every body, where an empty one is not the same as none.  The
settings that the files are read with do not matter, and need not be the same.

* `CommandLine.Parses` : a file is read as a program.
* `CommandLine.shown_tree_injective` : its tree tells which one.
-/

namespace Pipeline.CommandLine

/-- A file is read as a program: its surroundings give valid settings, and its text is that program. -/
def Parses (around : Surroundings) (file : String) (nodes : List Node) : Prop :=
  ∃ settings text, Settings.ofEnvironment around.lookup [] = .ok settings ∧
    (Source.file file).read around.files = .ok text ∧ Program.ofText settings text = .ok nodes

variable {around around' : Surroundings} {p q : String} {nodes nodes' : List Node}
  {args args' : List String}

theorem Parses.showTree (h : Parses around p nodes) :
    showTree around p =
      { result := .ok 0, output := (Program.json nodes).text ++ "\n", asked := [p] } := by
  obtain ⟨settings, text, hsettings, htext, hnodes⟩ := h
  unfold CommandLine.showTree
  simp only [hsettings, htext, bind, Except.bind, hnodes]

/-- **The printed tree is the program.**  Both files are shown, and what is printed is equal if and only if
the programs are. -/
theorem shown_tree_injective (hp : Parses around p nodes) (hq : Parses around' q nodes')
    (hargs : readArgs args = .tree p) (hargs' : readArgs args' = .tree q) :
    (perform around args).result = .ok 0 ∧ (perform around' args').result = .ok 0 ∧
      ((perform around args).output = (perform around' args').output ↔ nodes = nodes') := by
  have hshown : perform around args = showTree around p := by rw [perform, hargs]
  have hshown' : perform around' args' = showTree around' q := by rw [perform, hargs']
  rw [hshown, hshown', hp.showTree, hq.showTree]
  refine ⟨rfl, rfl, ?_⟩
  constructor
  · intro houtput
    apply Program.json_injective
    apply Json.text_injective
    exact (String.append_left_inj "\n").1 houtput
  · intro hnodes
    rw [hnodes]

theorem parses_of_stored {text : String} (hname : hasNul p = false)
    (hstored : around.files p = .ok text.toUTF8)
    (hsettings : Settings.ofEnvironment around.lookup [] = .ok {})
    (hnodes : Program.ofText {} text = .ok nodes) : Parses around p nodes :=
  ⟨{}, text, hsettings, Source.read_file hname hstored, hnodes⟩

/-- An empty branch, written in two ways: one program, and one tree. -/
theorem shown_tree_injective_spellings :
    let files : FileSystem := fun path =>
      if path = "a" then .ok "if \"\u00e9\"\nend\n".toUTF8
      else .ok "IF  (\"\u00e9\")\n\nEnd".toUTF8
    let nodes : List Node := [.block ⟨1, "if", [.operand ⟨.string, "\u00e9"⟩]⟩ []]
    Parses { files := files } "a" nodes ∧ Parses { files := files } "b" nodes ∧
      readArgs ["tree", "a"] = .tree "a" ∧ readArgs ["tree", "b"] = .tree "b" ∧
      (perform { files := files } ["tree", "a"]).output =
        (perform { files := files } ["tree", "b"]).output := by
  intro files nodes
  have hwf : Program.WellFormed {} false nodes :=
    .block rfl (by decide) (fun h => absurd h (by decide)) (.nil _) (.nil _)
  have hread (text : String) (line : Int) (hlines : Statement.readLines {} (Text.lines text.toList) =
      .ok [⟨1, "if", [.operand ⟨.string, "\u00e9"⟩]⟩, ⟨line, "end", []⟩]) :
      Program.ofText {} text = .ok nodes := by
    rw [Program.ofText, hlines]
    exact Program.build_of_wellFormed Program.hasBranches_default hwf (by decide) rfl
  have hp : Parses { files := files } "a" nodes :=
    parses_of_stored (by decide) rfl rfl (hread _ 2 (by decide +kernel))
  have hq : Parses { files := files } "b" nodes :=
    parses_of_stored (by decide) rfl rfl (hread _ 3 (by decide +kernel))
  have hargs : readArgs ["tree", "a"] = .tree "a" := by decide
  have hargs' : readArgs ["tree", "b"] = .tree "b" := by decide
  exact ⟨hp, hq, hargs, hargs', (shown_tree_injective hp hq hargs hargs').2.2.2 rfl⟩

end Pipeline.CommandLine
