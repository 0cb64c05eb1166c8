import Pipeline.Proofs.Registry.Names
import Pipeline.Proofs.Statement.Layout

/-!
# Calling what is registered

A name is put in lower case and then checked, and the check lets a line feed pass at the end.  A line is
trimmed and then its command word is put in lower case.  Both make the same of a name without a line feed
at its end, whatever letters it is spelled with.  A name with a line feed keeps it in the registry and
loses it on a line, so what is registered under it is never called.

* `exists_word_of_lower` : the names that are accepted.
* `readLines_word` : what a line is read as that holds such a name alone.
* `Statement.newline_not_mem_command` : no command has a line feed in it.
* `Registry.register_called` : which of the registered commands can be called.
-/

namespace Pipeline

open Text

/-! ### Names on lines -/

theorem CommandWord.not_blank {word : List Char} (h : CommandWord word) :
    ∀ c ∈ word, isBlank c = false := by
  intro c hc
  have hbounds := h.chars c hc
  simp only [isBlank, isSpace, Bool.or_eq_false_iff, Bool.and_eq_false_iff, decide_eq_false_iff_not,
    beq_eq_false_iff_ne]
  omega

/-- A text whose lower-case form is a command name is a word, and perhaps one line feed. -/
theorem exists_word_of_lower {s : List Char} (h : isCommandName (lower s) = true) :
    ∃ word ending, s = word ++ ending ∧ (ending = [] ∨ ending = ['\n']) ∧ IsWord word ∧
      CommandWord (lower word) ∧ lower s = lower word ++ ending := by
  obtain ⟨lowered, ending, hlower, hending, hlowered⟩ := exists_word_of_isCommandName h
  have hplain : ∀ c ∈ s, IsPlainCase c := by
    have hascii : ∀ c ∈ lower s, c.toNat < 0x80 := by
      rw [hlower]
      exact fun c hc => (hlowered.isNarrow hending c hc).2
    exact isPlainCase_of_lowerAfter hascii
  rw [lower_eq_map hplain] at hlower ⊢
  obtain ⟨word, rest, rfl, hword, hrest⟩ := List.map_eq_append_iff.1 hlower
  have hsame : rest = ending := by
    rcases hending with rfl | rfl
    · exact List.map_eq_nil_iff.1 hrest
    · obtain ⟨c, rfl, hc⟩ := List.map_eq_singleton_iff.1 hrest
      rw [eq_of_lowerChar hc (by decide) (by decide)]
  have hlowerWord : lower word = lowered := by
    rw [lower_eq_map fun c hc => hplain c (List.mem_append_left rest hc), hword]
  subst hsame
  refine ⟨word, rest, rfl, hending, ⟨?_, fun c hc => ?_⟩, hlowerWord ▸ hlowered, ?_⟩
  · rintro rfl
    exact hlowered.ne_nil hword.symm
  · have hmem : lowerChar c ∈ lowered := hword ▸ List.mem_map_of_mem hc
    by_contra hblank
    rw [Bool.not_eq_false] at hblank
    rw [lowerChar_of_isBlank hblank] at hmem
    exact absurd (hlowered.not_blank c hmem) (by simp [hblank])
  · rw [List.map_append, hword, hrest, hlowerWord]

/-- A line with a word and perhaps a line feed is read as the word in lower case. -/
theorem Statement.readLines_word (settings : Settings) {word ending : List Char}
    (hending : ending = [] ∨ ending = ['\n']) (hword : IsWord word)
    (hlower : CommandWord (lower word)) :
    readLines settings [word ++ ending] = .ok [⟨1, String.ofList (lower word), []⟩] := by
  have hblank : Blank ending := by
    rcases hending with rfl | rfl
    · exact List.forall_mem_nil _
    · exact List.forall_mem_singleton.2 (by decide)
  have hcomment : word.head? ≠ some '#' := by
    obtain ⟨c, rest, rfl⟩ := List.exists_cons_of_ne_nil hword.ne_nil
    intro hhash
    have hstart := hlower.head '#' ((head?_lower_eq_hash c rest).2 (Option.some.inj hhash))
    exact absurd hstart (by decide)
  have hcontent : content? (word ++ ending) = some (lower word, []) := by
    have hparts := content?_of_word (List.forall_mem_nil _) hword
      fun c hc => hblank c (List.mem_of_mem_head? hc)
    rwa [if_neg hcomment, trim_of_blank hblank, List.nil_append] at hparts
  rw [readLines, readLinesFrom_eq, heldFrom, hcontent]
  rfl

/-- The command word of a line has no line feed in it. -/
theorem newline_not_mem_splitLine (s : List Char) : '\n' ∉ (Statement.splitLine s).1 := by
  intro hmem
  have hword := mem_of_mem_lowerAfter (by decide) (by decide) hmem
  have hblank := List.mem_takeWhile_imp hword
  revert hblank
  decide

/-- So no command has one, in whatever lines it is read. -/
theorem Statement.newline_not_mem_command {settings : Settings} {number : Nat}
    {lines : List (List Char)} {statements : List Statement}
    (h : readLinesFrom settings number lines = .ok statements) :
    ∀ s ∈ statements, '\n' ∉ s.command.toList := by
  induction lines generalizing number statements with
  | nil => cases h; exact List.forall_mem_nil _
  | cons line rest ih =>
    rw [readLinesFrom] at h
    split at h
    · exact ih h
    · obtain ⟨statement, hstatement, h⟩ := exists_of_bind_eq_ok h
      obtain ⟨others, hothers, h⟩ := exists_of_bind_eq_ok h
      cases h
      refine List.forall_mem_cons.2 ⟨?_, ih hothers⟩
      obtain ⟨args, -, hstatement⟩ := exists_of_bind_eq_ok hstatement
      obtain ⟨trees, -, hstatement⟩ := exists_of_bind_eq_ok hstatement
      cases hstatement
      rw [String.toList_ofList]
      exact newline_not_mem_splitLine (trim line)

/-! ### What is called -/

namespace Registry

variable {registry registry' : Registry} {name : String} {handler : Handler} {opensBlock : Bool}

/-- What is registered is found under the lower-case form of its name, and all else where it was. -/
theorem lookup_of_register (h : registry.register name handler opensBlock = .ok registry')
    (other : String) : registry'.lookup other =
      if other = lowerString name then .ok handler else registry.lookup other := by
  obtain ⟨-, rfl⟩ := register_eq_ok_iff.1 h
  rw [lookup, lookup, find?, find?, enter, Table.find?_insert]
  by_cases heq : other = lowerString name
  · rw [if_pos heq, if_pos heq]
  · rw [if_neg heq, if_neg heq]

/-- **Which registered commands can be called.**  The line with a name alone is read as one statement
without arguments.  Its command is resolved to the handler that was registered under the name, unless the
name ends in a line feed: then the command is resolved as before the registration, and the handler is
found under a name that no line of any program has as its command. -/
theorem register_called (h : registry.register name handler opensBlock = .ok registry')
    (settings : Settings) :
    ∃ command, Statement.readLines settings [name.toList] = .ok [⟨1, command, []⟩] ∧
      (name.toList.getLast? ≠ some '\n' → registry'.lookup command = .ok handler) ∧
      (name.toList.getLast? = some '\n' →
        registry'.lookup command = registry.lookup command ∧
          registry'.lookup (command ++ "\n") = .ok handler ∧
          ∀ lines statements, Statement.readLines settings lines = .ok statements →
            ∀ s ∈ statements, s.command ≠ command ++ "\n") := by
  have hcheck : isCommandName (lower name.toList) = true := by
    have haccepted := (refusal?_eq_none_iff.1 (register_eq_ok_iff.1 h).1).1
    rwa [lowerString, String.toList_ofList] at haccepted
  obtain ⟨word, ending, hname, hending, hword, hlower, hwhole⟩ := exists_word_of_lower hcheck
  have hentered : lowerString name = String.ofList (lower word) ++ String.ofList ending := by
    rw [lowerString, hwhole, String.ofList_append]
  refine ⟨String.ofList (lower word), ?_, fun hlast => ?_, fun hlast => ?_⟩
  · rw [hname]
    exact Statement.readLines_word settings hending hword hlower
  · -- Without a line feed at the end both forms of the name are the same.
    obtain rfl : ending = [] := by
      refine hending.resolve_right ?_
      rintro rfl
      exact hlast (by rw [hname, List.getLast?_concat])
    have hsame : String.ofList (lower word) = lowerString name := by
      rw [hentered]
      exact String.append_empty.symm
    rw [lookup_of_register h, if_pos hsame]
  · -- With one the name that is entered has it, and no command has.
    obtain rfl : ending = ['\n'] := by
      refine hending.resolve_left ?_
      rintro rfl
      rw [List.append_nil] at hname
      exact hword.newline_not_mem (hname ▸ List.mem_of_getLast? hlast)
    have hname' : lowerString name = String.ofList (lower word) ++ "\n" := hentered
    have hnever : ∀ command : String, '\n' ∉ command.toList → command ≠ lowerString name := by
      rintro command hmem rfl
      exact hmem (by simp [hname'])
    refine ⟨?_, ?_, fun lines statements hread s hs => ?_⟩
    · have hword' : '\n' ∉ (String.ofList (lower word)).toList := by
        rw [String.toList_ofList]
        exact fun hmem => hword.newline_not_mem (mem_of_mem_lowerAfter (by decide) (by decide) hmem)
      rw [lookup_of_register h, if_neg (hnever _ hword')]
    · rw [← hname', lookup_of_register h, if_pos rfl]
    · rw [← hname']
      exact hnever _ (Statement.newline_not_mem_command hread s hs)

/-- The kelvin sign is a `k` in lower case, for the registry and for a line. -/
theorem register_called_kelvin :
    ∃ registry, Registry.standard.register "\u212Aeep" (.host .identity) false = .ok registry ∧
      Statement.readLines {} ["\u212Aeep".toList] = .ok [⟨1, "keep", []⟩] ∧
      registry.lookup "keep" = .ok (.host .identity) := by
  have haccepted : Registry.standard.register "\u212Aeep" (.host .identity) false = .ok _ :=
    register_eq_ok_iff.2 ⟨by decide +kernel, rfl⟩
  have hkeep : Statement.readLines {} ["\u212Aeep".toList] = .ok [⟨1, "keep", []⟩] := by
    decide +kernel
  obtain ⟨command, hread, hlookup, -⟩ := register_called haccepted {}
  rw [hkeep] at hread
  cases hread
  exact ⟨_, haccepted, hkeep, hlookup (by decide +kernel)⟩

/-- A name with a line feed at its end is accepted, but its line is a line of the name without it. -/
theorem exists_never_called :
    ∃ registry, Registry.standard.register "greet\n" (.host .identity) false = .ok registry ∧
      Statement.readLines {} ["greet\n".toList] = .ok [⟨1, "greet", []⟩] ∧
      registry.lookup "greet" = .error (.of (.unknownCommand "greet")) := by
  have haccepted : Registry.standard.register "greet\n" (.host .identity) false = .ok _ :=
    register_eq_ok_iff.2 ⟨by decide +kernel, rfl⟩
  refine ⟨_, haccepted, by decide +kernel, ?_⟩
  rw [lookup_of_register haccepted, if_neg (by decide +kernel)]
  rfl

end Registry

end Pipeline
