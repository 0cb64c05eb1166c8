import Pipeline.Proofs.Execution.WellFormed
import Pipeline.Proofs.Session.History

/-!
# Continuations in a session

A session reads programs under its settings, and runs them later, perhaps with other commands than
those it started with.  As long as the commands for branches are there as in the standard registry, its
runs have no fault of the grammar: that of a run with a source is one of reading the source.

* `Session.wellFormed_of_parse`, `.wellFormed_of_history` : the programs of a session.
* `Session.safe_run`, `.parse_of_runSource` : its runs.
* `Session.continuations_agree` : the builder and the handlers agree.
-/

namespace Pipeline

theorem Settings.opensBlock_of_mem {s : Settings} {names : List String} {command : String}
    (h : command ∈ names) : (s.withBlockCommands names).opensBlock command = true := by
  rw [opensBlock, withBlockCommands, List.contains_append, Bool.or_eq_true]
  cases hblock : s.blockCommands.contains command with
  | true => exact .inl rfl
  | false =>
    refine .inr (List.contains_iff_mem.2 (List.mem_filter.2 ⟨h, ?_⟩))
    rw [hblock]
    rfl

/-- A session that starts with the standard commands reads continuations as blocks, whatever its settings
are. -/
theorem keepsChains_start_standard (s : Settings) :
    (Session.start s .standard).settings.KeepsChains := by
  intro command hcommand
  refine Settings.opensBlock_of_mem (Registry.mem_blockCommands.2 ?_)
  rcases Program.elif_or_else_of_continuation hcommand with rfl | rfl
  · decide
  · decide

namespace Session

/-! ### The programs of a session -/

section Programs

variable {files : FileSystem} {settings : Settings} {source : Source} {nodes : List Node}

theorem wellFormed_of_parse (h : parse files settings source = .ok nodes) :
    Program.WellFormed settings false nodes := by
  obtain ⟨text, -, h⟩ := exists_of_bind_eq_ok h
  obtain ⟨statements, -, h⟩ := exists_of_bind_eq_ok h
  exact Program.wellFormed_of_build h

/-- The program at hand was read once. -/
theorem wellFormed_of_history {history : History} (h : history.program settings = some nodes) :
    Program.WellFormed settings false nodes := by
  obtain ⟨step, -, hread⟩ := List.mem_filterMap.1 (List.mem_of_getLast? h)
  obtain ⟨source, -, hparse⟩ := Option.bind_eq_some_iff.1 hread
  cases hresult : parse step.1 settings source with
  | error fault =>
    rw [hresult] at hparse
    cases hparse
  | ok nodes' =>
    rw [hresult] at hparse
    cases hparse
    exact wellFormed_of_parse hresult

/-- Running well-formed nodes has no fault of the grammar. -/
theorem safe_runAlone {setup : Setup} (hblocks : setup.settings.KeepsChains)
    (hkeeps : setup.registry.KeepsChains) (h : Program.WellFormed setup.settings false nodes)
    {fault : Fault} (hfault : (setup.runAlone nodes).1 = .error fault) :
    fault.category? ≠ some .grammar :=
  (safe_execute hkeeps hblocks h .nothing {} Environment.built_empty).of_error hfault

end Programs

section Runs

variable {session : Session} (hblocks : session.settings.KeepsChains)
  (hkeeps : session.registry.KeepsChains) {files : FileSystem} {traced : Bool} {fault : Fault}

include hblocks hkeeps

/-- Running a well-formed program at hand has no fault of the grammar. -/
theorem safe_run
    (hprogram : ∀ nodes, session.program = some nodes →
      Program.WellFormed session.settings false nodes)
    (h : (session.run files traced).1 = .error fault) : fault.category? ≠ some .grammar := by
  unfold run at h
  cases hat : session.program with
  | none =>
    rw [hat] at h
    cases h
    exact nofun
  | some nodes =>
    rw [hat] at h
    dsimp only at h
    rw [(runNodes_alone files traced nodes session).1] at h
    exact safe_runAlone hblocks hkeeps (hprogram nodes hat) h

/-- A fault of the grammar of a run with a source is one of reading the source. -/
theorem parse_of_runSource {source : Source}
    (h : (session.runSource files traced source).1 = .error fault)
    (hcategory : fault.category? = some .grammar) :
    parse files session.settings source = .error fault := by
  cases hparse : parse files session.settings source with
  | error fault' =>
    obtain ⟨log, hran⟩ := runSource_of_error files traced hparse
    rw [hran] at h
    exact congrArg Except.error (Except.error.inj h)
  | ok nodes =>
    rw [(runSource_alone files traced hparse).1] at h
    exact absurd hcategory (safe_runAlone hblocks hkeeps (wellFormed_of_parse hparse) h)

end Runs

/-- **The builder and the handlers agree on continuations.**  A continuation that the execution gets to
is refused by its handler exactly if it is the first of the nodes it stands among or no branch stands in
front of it, and then the execution of these nodes fails with that.  So programs that were read have no
fault of the grammar when they are run: neither the program at hand, nor one that is run with its source,
unless it is a fault of reading it.  This is so while the commands for branches are there as they are in
all sessions that start with the standard commands, whatever their settings are. -/
theorem continuations_agree :
    (∀ (setup : Setup) (budget : Nat) (before rest : List Node) (node : Node) (value reached : Value)
        (env left : Environment), setup.registry.HasChains → node.IsContinuation →
      Pipeline.runNodes setup (callWithin setup budget) before value env.pushFrame =
        (.ok reached, left) →
      let refusal := misplaced node.statement.command node.statement.line
      ((node.work setup reached left).1 = .error refusal ↔ Program.endsInBranch before = false) ∧
      (Program.endsInBranch before = false →
        (runWithin setup budget (before ++ node :: rest) value env).1 = .error refusal)) ∧
    (∀ (settings : Settings) (registry : Registry) (history : History) (files : FileSystem)
        (traced : Bool),
      let session := (start settings registry).after history
      session.settings.KeepsChains → session.registry.KeepsChains →
      (∀ fault, (session.run files traced).1 = .error fault → fault.category? ≠ some .grammar) ∧
      ∀ source fault, (session.runSource files traced source).1 = .error fault →
        fault.category? = some .grammar → parse files session.settings source = .error fault) ∧
    ∀ settings : Settings, (start settings .standard).settings.KeepsChains ∧
      (start settings .standard).registry.KeepsChains := by
  refine ⟨?_, ?_, fun settings => ⟨keepsChains_start_standard settings, Registry.keepsChains_standard⟩⟩
  · intro setup budget before rest node value reached env left hchains hnode h refusal
    have hrefused := reached_misplaced_iff hchains hnode h
    exact ⟨hrefused, fun hends => runWithin_of_work_error h (hrefused.2 hends)⟩
  · intro settings registry history files traced session hblocks hkeeps
    obtain ⟨hsettings, -, hprogram⟩ := state_after settings registry history
    have hbuilt (nodes : List Node) (hat : session.program = some nodes) :
        Program.WellFormed session.settings false nodes := by
      rw [hsettings]
      exact wellFormed_of_history (hprogram.symm.trans hat)
    exact ⟨fun fault => safe_run hblocks hkeeps hbuilt,
      fun source fault => parse_of_runSource hblocks hkeeps⟩

/-- An alternative that stands alone is refused, and one behind a branch is not; no run of a new session
has another fault of the grammar than one of reading. -/
theorem continuations_agree_standard :
    let files : FileSystem := fun _ => .error .missing
    let setup : Setup := { files := files }
    let branch : Branch := ⟨1, .operand ⟨.number, "0"⟩, none⟩
    let alternative : LastBranch := ⟨2, none⟩
    (runWithin setup 0 [alternative.node] .nothing {}).1 = .error (misplaced "else" 2) ∧
    (∃ left, Pipeline.runNodes setup (callWithin setup 0) [branch.node "if"] .nothing
        ({} : Environment).pushFrame = (.ok .nothing, left) ∧
      (alternative.node.work setup .nothing left).1 ≠ .error (misplaced "else" 2)) ∧
    (∀ fault, ((start {} .standard).run files false).1 = .error fault →
      fault.category? ≠ some .grammar) ∧
    ∀ source fault, ((start {} .standard).runSource files false source).1 = .error fault →
      fault.category? = some .grammar → parse files {} source = .error fault := by
  intro files setup branch alternative
  obtain ⟨hrefusal, hruns, hstandard⟩ := continuations_agree
  have hchains : setup.registry.HasChains := Registry.hasChains_standard
  obtain ⟨hrun, hrunSource⟩ := hruns {} .standard [] files false (hstandard {}).1 (hstandard {}).2
  refine ⟨?_, ?_, hrun, ?_⟩
  · exact (hrefusal setup 0 [] [] alternative.node .nothing .nothing {} _ hchains (.last _) rfl).2 rfl
  · refine ⟨_, rfl, fun h => ?_⟩
    have hends := (hrefusal setup 0 [branch.node "if"] [] alternative.node .nothing .nothing {} _
      hchains (.last _) rfl).1.1 h
    cases hends
  · change ∀ source fault, ((start {} .standard).runSource files false source).1 = .error fault →
      fault.category? = some .grammar →
      parse files (start {} .standard).settings source = .error fault at hrunSource
    rw [settings_start_standard rfl] at hrunSource
    exact hrunSource

end Session

end Pipeline
