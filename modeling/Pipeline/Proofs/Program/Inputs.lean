import Pipeline.Proofs.Program.Relaxing
import Pipeline.Proofs.Statement.Layout
import Pipeline.Proofs.Text.Channels

/-!
# What reading a program looks at

Reading a program looks at four of the settings, and at the lines of the text up to the blanks at their
ends.  So whoever changes the other settings, or unifies line ends on the way, gets the same nodes or
the same fault.

* `Program.buildBody_congr` : settings that agree in the four build the same.
* `Program.ofText_congr` : a program does not depend on the rest.
* `Program.ofText_unify` : nor on the way that its text has taken.
-/

namespace Pipeline

/-- Settings that agree in all that reading looks at. -/
structure Settings.ReadAlike (s s' : Settings) : Prop where
  unknownEscape : s'.unknownEscape = s.unknownEscape
  terminator : s'.terminator = s.terminator
  blockCommands : s'.blockCommands = s.blockCommands
  maxDepth : s'.maxDepth = s.maxDepth

variable {s s' : Settings}

theorem Settings.ReadAlike.refl (s : Settings) : s.ReadAlike s :=
  ⟨rfl, rfl, rfl, rfl⟩

/-! ### Settings -/

namespace Statement

theorem readArgs_congr (h : s.ReadAlike s') (line : Int) (number : Nat) (args : List (List Char)) :
    readArgs s' line number args = readArgs s line number args := by
  induction args generalizing number with
  | nil => rfl
  | cons arg rest ih => rw [readArgs, readArgs, h.unknownEscape, ih]

theorem readParts_congr (h : s.ReadAlike s') (line : Int) (parts : List Char × List Char) :
    readParts s' line parts = readParts s line parts := by
  unfold readParts
  simp only [readArgs_congr h]

end Statement

namespace Program

theorem buildBody_congr (h : s.ReadAlike s') (inChain : Bool) (depth : Nat) (chainOpen : Bool)
    (given : List Statement) :
    buildBody s' inChain depth chainOpen given = buildBody s inChain depth chainOpen given := by
  induction hlength : given.length using Nat.strongRecOn generalizing inChain depth chainOpen given
    with
  | ind length ih =>
    rcases given with _ | ⟨t, rest⟩
    · rw [buildBody, buildBody]
    obtain rfl : rest.length + 1 = length := hlength
    by_cases hstops : (inChain && continuationCommands.contains t.command && !chainOpen) = true
    · rw [buildBody_continuation rest hstops, buildBody_continuation rest hstops]
    by_cases hend : t.command = s.terminator
    · rw [buildBody_terminator rest hstops hend,
        buildBody_terminator rest hstops (hend.trans h.terminator.symm)]
    have hend' : t.command ≠ s'.terminator := h.terminator ▸ hend
    have hopens' : s'.opensBlock t.command = s.opensBlock t.command := by
      rw [Settings.opensBlock, Settings.opensBlock, h.blockCommands]
    by_cases hopens : s.opensBlock t.command = true
    · rw [hopens] at hopens'
      by_cases hplaced : (continuationCommands.contains t.command && !chainOpen) = true
      · rw [buildBody_misplaced rest hstops hend hopens hplaced,
          buildBody_misplaced rest hstops hend' hopens' hplaced]
      by_cases hdeep : s.maxDepth ≤ depth
      · rw [buildBody_tooDeep rest hstops hend hopens hplaced hdeep,
          buildBody_tooDeep rest hstops hend' hopens' hplaced (h.maxDepth ▸ hdeep), h.maxDepth]
      rw [buildBody_opens rest hstops hend hopens hplaced hdeep,
        buildBody_opens rest hstops hend' hopens' hplaced (h.maxDepth ▸ hdeep), h.terminator,
        ih rest.length (Nat.lt_succ_self _) _ _ _ rest rfl]
      refine bind_congr fun inner => ?_
      rw [ih inner.2.2.val.length (Nat.lt_succ_of_le inner.2.2.property) _ _ _ _ rfl]
    · have hplain' : ¬s'.opensBlock t.command = true := hopens' ▸ hopens
      rw [buildBody_plain rest hstops hend hopens, buildBody_plain rest hstops hend' hplain',
        ih rest.length (Nat.lt_succ_self _) _ _ _ rest rfl]

theorem build_congr (h : s.ReadAlike s') (given : List Statement) : build s' given = build s given := by
  rw [build, build, buildFrom, buildFrom, buildBody_congr h, h.terminator]

/-- A program depends on four of the settings, and on what the lines of the text hold. -/
theorem ofText_congr (h : s.ReadAlike s') {text text' : String}
    (hlines : Statement.heldFrom 1 (Text.lines text'.toList) =
      Statement.heldFrom 1 (Text.lines text.toList)) :
    ofText s' text' = ofText s text := by
  have hread : Statement.readLines s' (Text.lines text'.toList) =
      Statement.readLines s (Text.lines text.toList) := by
    rw [Statement.readLines, Statement.readLines, Statement.readLinesFrom_eq,
      Statement.readLinesFrom_eq, hlines]
    simp only [Statement.readParts_congr h]
  rw [ofText, ofText, hread]
  exact bind_congr fun given => build_congr h given

end Program

/-! ### Blanks behind lines -/

namespace Statement

open Text

theorem content?_of_trails {line line' : List Char} (h : Trails line line') :
    content? line = content? line' := by
  obtain ⟨back, hback, rfl⟩ := h
  have htrim : trim (line' ++ back) = trim line' :=
    trim_margins (List.forall_mem_nil _) line' hback
  rw [content?, content?, htrim]

theorem heldFrom_of_trails {number : Nat} {given given' : List (List Char)}
    (h : List.Forall₂ Trails given given') : heldFrom number given = heldFrom number given' := by
  induction h generalizing number with
  | nil => rfl
  | cons hline _ ih => rw [heldFrom, heldFrom, content?_of_trails hline, ih]

end Statement

/-- The text of a program may have its line ends unified. -/
theorem Program.ofText_unify {text : String} (h : Text.PairedReturns text.toList) (s : Settings) :
    ofText s (String.ofList (Text.unifyLineEnds text.toList)) = ofText s text := by
  refine ofText_congr (.refl s) ?_
  rw [String.toList_ofList, Statement.heldFrom_of_trails (Text.forall₂_lines_unify h)]

end Pipeline
