import Pipeline.Proofs.Registry.Contents

/-!
# Spellings of a name

Only registration puts a name in lower case.  All other operations take it as it is spelled, and every
name in a registry is in lower case.  So the lower-case spelling of a registered name refers to its command
everywhere, and no other spelling refers to anything: removing it is no fault, and removes nothing.

* `Registry.Made` : the registries that a host can make, all of them with names in lower case only.
* `Registry.RefersTo`, `Registry.Misses` : a spelling in all operations but registration.
* `Registry.register_spellings` : which spellings refer to a registered command.
-/

namespace Pipeline

open Text

namespace Registry

/-- The registries that a host can make: the two it starts with, and those that changes lead to. -/
inductive Made : Registry → Prop where
  | empty : Made .empty
  | standard : Made .standard
  | register {registry registry' : Registry} {name : String} {handler : Handler} {opensBlock : Bool}
      (made : Made registry) (accepted : registry.register name handler opensBlock = .ok registry') :
      Made registry'
  | unregister {registry : Registry} (made : Made registry) (name : String) :
      Made (registry.unregister name)

/-- A spelling refers to a command: asking for it finds the handler, and removing it takes the name and its
block away, and nothing else. -/
structure RefersTo (registry : Registry) (name : String) (handler : Handler) : Prop where
  has : registry.has name = true
  find : registry.find? name = some handler
  lookup : registry.lookup name = .ok handler
  unregister_lookup : ∀ other, (registry.unregister name).lookup other =
    if other = name then .error (.of (.unknownCommand name)) else registry.lookup other
  unregister_blocks : ∀ other, other ∈ (registry.unregister name).blockCommands ↔
    other ≠ name ∧ other ∈ registry.blockCommands

/-- A spelling refers to nothing: asking for it finds no handler, and removing it changes nothing. -/
structure Misses (registry : Registry) (name : String) : Prop where
  has : registry.has name = false
  find : registry.find? name = none
  lookup : registry.lookup name = .error (.of (.unknownCommand name))
  unregister : registry.unregister name = registry

variable {registry registry' : Registry} {map : Contents} {name : String} {handler : Handler}
  {opensBlock : Bool}

/-- Every registry that can be made holds a map of names in lower case. -/
theorem Made.holds (h : Made registry) : ∃ map, Holds registry map ∧ map.WellNamed := by
  induction h with
  | empty => exact ⟨∅, .empty, .empty⟩
  | standard => exact ⟨.standard, .standard, .standard⟩
  | @register registry registry' name handler opensBlock made accepted ih =>
    obtain ⟨map, hholds, hnamed⟩ := ih
    obtain ⟨hrefusal, rfl⟩ := register_eq_ok_iff.1 accepted
    have hentered := hnamed.register name handler opensBlock
    simp only [Contents.register, hrefusal] at hentered
    exact ⟨_, hholds.enter (lowerString name) handler opensBlock, hentered⟩
  | unregister made name ih =>
    obtain ⟨map, hholds, hnamed⟩ := ih
    exact ⟨_, hholds.unregister name, hnamed.erase name⟩

/-- A name with a handler refers to it. -/
theorem Holds.refersTo (h : Holds registry map) (hfind : registry.find? name = some handler) :
    registry.RefersTo name handler where
  has := by
    show (registry.find? name).isSome = true
    simp [hfind]
  find := hfind
  lookup := by simp [Registry.lookup, hfind]
  unregister_lookup other := by
    simp only [Registry.lookup, Registry.find?, Registry.unregister, Table.find?_erase]
    by_cases hother : other = name <;> simp [hother]
  unregister_blocks other := by
    simp only [mem_blockCommands, Registry.unregister, h.blocks_nodup.mem_erase_iff]

/-- A name without one refers to nothing. -/
theorem Holds.misses (h : Holds registry map) (hname : name ∉ map) : registry.Misses name := by
  have hnone : map.lookup name = none := Finmap.lookup_eq_none.2 hname
  have hfind : registry.find? name = none := by simp [Registry.find?, h.find, hnone]
  have hentries : registry.handlers.entries.filter (·.1 != name) = registry.handlers.entries := by
    rw [List.filter_eq_self]
    intro entry hentry
    simp only [bne_iff_ne]
    rintro rfl
    exact hname (h.mem_names.1 (List.mem_map_of_mem hentry))
  have hblocks : registry.blocks.erase name = registry.blocks := by
    apply List.erase_of_not_mem
    simp [h.blocks, hnone]
  refine ⟨?_, hfind, by simp [Registry.lookup, hfind], ?_⟩
  · show (registry.find? name).isSome = false
    simp [hfind]
  · simp [Registry.unregister, Table.erase, hentries, hblocks]

/-- A spelling with other letters than small ones refers to nothing. -/
theorem Made.misses (h : Made registry) (hname : lowerString name ≠ name) : registry.Misses name := by
  obtain ⟨map, hholds, hnamed⟩ := h.holds
  apply hholds.misses
  intro hmem
  exact hname (hnamed name hmem).1

/-- **Which spellings refer to a registered command.**  The lower-case form of the name does, in every
operation.  Every other spelling with the same lower-case form, among them the name as it was registered,
refers to nothing, and removing it leaves the command and its block where they are. -/
theorem register_spellings (made : Made registry)
    (accepted : registry.register name handler opensBlock = .ok registry') :
    registry'.RefersTo (lowerString name) handler ∧
      (lowerString name ∈ registry'.blockCommands ↔ opensBlock = true) ∧
      ∀ spelling, lowerString spelling = lowerString name →
        spelling ≠ lowerString name → registry'.Misses spelling := by
  have made' : Made registry' := made.register accepted
  obtain ⟨map, hholds, -⟩ := made.holds
  obtain ⟨-, rfl⟩ := register_eq_ok_iff.1 accepted
  have hholds' := hholds.enter (lowerString name) handler opensBlock
  refine ⟨hholds'.refersTo ?_, ?_, ?_⟩
  · simp [Registry.find?, enter, Table.find?_insert]
  · rw [mem_blockCommands, hholds'.blocks, Finmap.lookup_insert]
    simp
  · intro spelling hlower hne
    apply made'.misses
    rw [hlower]
    exact hne.symm

/-- A name with one capital letter: the registry knows its lower-case form, and not the name itself. -/
theorem register_spellings_capital :
    ∃ registry, Registry.empty.register "Greet" (.host .identity) true = .ok registry ∧
      registry.RefersTo "greet" (.host .identity) ∧ registry.Misses "Greet" := by
  have accepted : Registry.empty.register "Greet" (.host .identity) true = .ok _ :=
    register_eq_ok_iff.2 ⟨by decide +kernel, rfl⟩
  have hlower : lowerString "Greet" = "greet" := by decide +kernel
  obtain ⟨hrefers, -, hmisses⟩ := register_spellings .empty accepted
  rw [hlower] at hrefers
  exact ⟨_, accepted, hrefers, hmisses "Greet" rfl (by decide +kernel)⟩

/-- Unregistering the name under which a command was registered, the host keeps the command. -/
theorem exists_not_unregistered :
    ∃ registry, Registry.empty.register "Greet" (.host .identity) true = .ok registry ∧
      registry.has "Greet" = false ∧ registry.find? "Greet" = none ∧
      registry.lookup "Greet" = .error (.of (.unknownCommand "Greet")) ∧
      (registry.unregister "Greet").lookup "greet" = .ok (.host .identity) ∧
      (registry.unregister "Greet").blockCommands = ["greet"] := by
  refine ⟨_, register_eq_ok_iff.2 ⟨by decide +kernel, rfl⟩, ?_⟩
  decide +kernel

end Registry

end Pipeline
