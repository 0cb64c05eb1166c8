import Mathlib.Data.Finmap
import Mathlib.Data.Finset.Sort
import Mathlib.Data.String.Basic
import Pipeline.Proofs.Registry.Names

/-!
# What a registry stands for

A registry keeps its handlers in one place and the names that open blocks in another.  Together they stand
for a finite map from names to commands, a handler and a flag each, and every question to the registry is
answered from the map.

* `Registry.Holds` : the two places hold a map, and nothing else.
* `Registry.Holds.enter`, `Registry.Holds.unregister` : changes keep them in step.
* `Registry.Holds.shows` : what is asked of the registry is answered from the map.
-/

namespace Pipeline

/-! ### Sorted names -/

theorem nodup_eraseDups (names : List String) : names.eraseDups.Nodup := by
  match names with
  | [] => exact List.nodup_nil
  | name :: rest =>
    rw [List.eraseDups_cons, List.nodup_cons, List.mem_eraseDups, List.mem_filter]
    exact ⟨fun h => absurd h.2 (by simp), nodup_eraseDups (rest.filter (!· == name))⟩
termination_by names.length
decreasing_by exact Nat.lt_succ_of_le (List.length_filter_le _ rest)

theorem sortedNames_eq_sort (names : List String) : sortedNames names = names.toFinset.sort := by
  have hnodup : (sortedNames names).Nodup := List.nodup_mergeSort.2 (nodup_eraseDups names)
  have hsorted : (sortedNames names).Pairwise (· ≤ ·) := by
    refine (List.pairwise_mergeSort (fun a b c hab hbc => ?_) (fun a b => ?_) names.eraseDups).imp
      of_decide_eq_true
    · exact decide_eq_true (le_trans (of_decide_eq_true hab) (of_decide_eq_true hbc))
    · simpa using le_total a b
  have hsame : (sortedNames names).toFinset = names.toFinset := by
    ext name
    simp [sortedNames]
  rw [← hsame, (List.toFinset_sort (· ≤ ·) hnodup).2 hsorted]

namespace Registry

/-! ### Maps of commands -/

/-- A registered command: its handler, and whether it opens a block. -/
structure Entry where
  handler : Handler
  opensBlock : Bool
  deriving DecidableEq, Repr

/-- A finite map from names to commands. -/
abbrev Contents := Finmap fun _ : String => Entry

namespace Contents

/-- Commands under their words. -/
def ofCommands (commands : List StandardCommand) : Contents :=
  (commands.map fun c => ⟨c.word, ⟨.standard c, c.opensBlock⟩⟩).toFinmap

/-- The standard commands. -/
def standard : Contents :=
  ofCommands StandardCommand.all

/-- Registering enters both parts of a command under the lower-case form of a name, unless something
speaks against it. -/
def register (map : Contents) (name : String) (handler : Handler) (opensBlock : Bool) : Contents :=
  match refusal? (Text.lowerString name) handler with
  | some _ => map
  | none => map.insert (Text.lowerString name) ⟨handler, opensBlock⟩

/-- The names that open blocks. -/
def blocks (map : Contents) : Finset String :=
  map.keys.filter fun name => (map.lookup name).any (·.opensBlock) = true

theorem mem_blocks {map : Contents} {name : String} :
    name ∈ map.blocks ↔ ∃ entry, map.lookup name = some entry ∧ entry.opensBlock = true := by
  rw [blocks, Finset.mem_filter, Finmap.mem_keys, Finmap.mem_iff, Option.any_eq_true]
  exact ⟨fun h => h.2, fun h => ⟨h.imp fun entry => And.left, h⟩⟩

/-- The first command with a word is the one that is found under it. -/
theorem lookup_ofCommands (commands : List StandardCommand) (name : String) :
    (ofCommands commands).lookup name =
      (commands.find? (·.word == name)).map fun c => ⟨.standard c, c.opensBlock⟩ := by
  rw [ofCommands, Finmap.dlookup_list_toFinmap]
  induction commands with
  | nil => rfl
  | cons c rest ih =>
    rw [List.map_cons, List.find?_cons]
    by_cases h : c.word = name
    · subst h
      rw [List.dlookup_cons_eq, beq_self_eq_true]
      rfl
    · rw [List.dlookup_cons_ne _ _ (Ne.symm h), beq_false_of_ne h, ih]

theorem lookup_insert (map : Contents) (name other : String) (entry : Entry) :
    (map.insert name entry).lookup other = if other = name then some entry else map.lookup other := by
  split
  · next h => rw [h, Finmap.lookup_insert]
  · next h => exact Finmap.lookup_insert_of_ne map h

theorem lookup_erase (map : Contents) (name other : String) :
    (map.erase name).lookup other = if other = name then none else map.lookup other := by
  split
  · next h => rw [h, Finmap.lookup_erase]
  · next h => exact Finmap.lookup_erase_ne h

/-! ### Names in maps -/

/-- Every name of a map is in lower case and passes the check. -/
def WellNamed (map : Contents) : Prop :=
  ∀ name ∈ map, Text.lowerString name = name ∧ isCommandName name.toList = true

namespace WellNamed

variable {map : Contents}

theorem empty : WellNamed ∅ :=
  fun _ hname => absurd hname Finmap.notMem_empty

theorem standard : WellNamed .standard := by
  intro name hname
  obtain ⟨entry, hentry⟩ := Finmap.mem_iff.1 hname
  rw [Contents.standard, lookup_ofCommands] at hentry
  obtain ⟨c, hc, -⟩ := Option.map_eq_some_iff.1 hentry
  have hword := List.find?_some hc
  obtain rfl := beq_iff_eq.1 hword
  have hcheck : isCommandName c.word.toList = true := by cases c <;> decide
  exact ⟨lowerString_of_isCommandName hcheck, hcheck⟩

/-- A name that does not pass the check is not entered. -/
theorem register (h : map.WellNamed) (name : String) (handler : Handler) (opensBlock : Bool) :
    (map.register name handler opensBlock).WellNamed := by
  unfold Contents.register
  cases hrefusal : refusal? (Text.lowerString name) handler with
  | some cause => exact h
  | none =>
    intro other hother
    rcases Finmap.mem_insert.1 hother with rfl | hother
    · have hcheck := (refusal?_eq_none_iff.1 hrefusal).1
      exact ⟨lowerString_of_isCommandName hcheck, hcheck⟩
    · exact h other hother

theorem erase (h : map.WellNamed) (name : String) : WellNamed (map.erase name) :=
  fun other hother => h other (Finmap.mem_erase.1 hother).2

end WellNamed

end Contents

/-! ### Registries that hold a map -/

/-- A registry holds a map: its handlers are those of the map, and its block commands are the names that
open blocks there. -/
structure Holds (registry : Registry) (map : Contents) : Prop where
  names_nodup : registry.handlers.names.Nodup
  blocks_nodup : registry.blocks.Nodup
  find : ∀ name, registry.handlers.find? name = (map.lookup name).map (·.handler)
  blocks : ∀ name, name ∈ registry.blocks ↔
    ∃ entry, map.lookup name = some entry ∧ entry.opensBlock = true

/-- What can be asked of a registry, answered from a map. -/
structure Shows (registry : Registry) (map : Contents) : Prop where
  lookup : ∀ name, registry.lookup name =
    match map.lookup name with
    | some entry => .ok entry.handler
    | none => .error (.of (.unknownCommand name))
  find : ∀ name, registry.find? name = (map.lookup name).map (·.handler)
  has : ∀ name, registry.has name = decide (name ∈ map)
  names : registry.names = map.keys.sort
  size : registry.size = map.keys.card
  blockCommands : registry.blockCommands = map.blocks.sort

namespace Holds

variable {registry : Registry} {map : Contents}

theorem empty : Holds .empty ∅ where
  names_nodup := List.nodup_nil
  blocks_nodup := List.nodup_nil
  find name := by rw [Finmap.lookup_empty]; rfl
  blocks name := by simp [Registry.empty]

theorem standard : Holds .standard Contents.standard := by
  have hfind (commands : List StandardCommand) (name : String) :
      Table.findEntry name (commands.map fun c => (c.word, Handler.standard c)) =
        (commands.find? (·.word == name)).map .standard := by
    induction commands with
    | nil => rfl
    | cons c rest ih =>
      rw [List.map_cons, Table.findEntry, List.find?_cons, ih]
      by_cases h : c.word = name
      · rw [if_pos h, h, beq_self_eq_true]
        rfl
      · rw [if_neg h, beq_false_of_ne h]
  refine ⟨by decide, by decide, fun name => ?_, fun name => ?_⟩
  · rw [Contents.standard, Contents.lookup_ofCommands, Option.map_map]
    exact hfind StandardCommand.all name
  · rw [Contents.standard, Contents.lookup_ofCommands]
    constructor
    · intro hname
      obtain ⟨c, hc, rfl⟩ := List.mem_map.1 hname
      cases c <;> first | exact ⟨_, rfl, rfl⟩ | exact absurd (List.mem_filter.1 hc).2 (by decide)
    · rintro ⟨entry, hentry, hopens⟩
      obtain ⟨c, hc, rfl⟩ := Option.map_eq_some_iff.1 hentry
      have hword := List.find?_some hc
      obtain rfl := beq_iff_eq.1 hword
      exact List.mem_map.2 ⟨c, List.mem_filter.2 ⟨List.mem_of_find?_eq_some hc, hopens⟩, rfl⟩

/-- Entering a name writes both places. -/
theorem enter (h : Holds registry map) (name : String) (handler : Handler) (opensBlock : Bool) :
    Holds (registry.enter name handler opensBlock) (map.insert name ⟨handler, opensBlock⟩) where
  names_nodup := Table.nodup_names_insert h.names_nodup name handler
  blocks_nodup := by
    rw [Registry.enter]
    split
    · exact h.blocks_nodup.insert
    · exact h.blocks_nodup.erase name
  find other := by
    rw [Registry.enter, Table.find?_insert, Contents.lookup_insert, h.find]
    split <;> rfl
  blocks other := by
    have hmem : other ∈ (registry.enter name handler opensBlock).blocks ↔
        if other = name then opensBlock = true else other ∈ registry.blocks := by
      cases opensBlock with
      | true =>
        rw [Registry.enter, if_pos rfl, List.mem_insert_iff]
        by_cases heq : other = name <;> simp [heq]
      | false =>
        rw [Registry.enter, if_neg Bool.false_ne_true, h.blocks_nodup.mem_erase_iff]
        by_cases heq : other = name <;> simp [heq]
    rw [hmem, Contents.lookup_insert, h.blocks]
    split <;> simp

theorem unregister (h : Holds registry map) (name : String) :
    Holds (registry.unregister name) (map.erase name) where
  names_nodup := Table.nodup_names_erase h.names_nodup name
  blocks_nodup := h.blocks_nodup.erase name
  find other := by
    rw [Registry.unregister, Table.find?_erase, Contents.lookup_erase, h.find]
    split <;> rfl
  blocks other := by
    rw [Registry.unregister, h.blocks_nodup.mem_erase_iff, Contents.lookup_erase, h.blocks]
    split <;> simp_all

/-! ### Questions -/

theorem mem_names (h : Holds registry map) {name : String} :
    name ∈ registry.handlers.names ↔ name ∈ map := by
  rw [← Finmap.lookup_isSome, Table.names, ← Table.isSome_findEntry]
  show (registry.handlers.find? name).isSome = true ↔ _
  rw [h.find, Option.isSome_map]

theorem toFinset_names (h : Holds registry map) : registry.handlers.names.toFinset = map.keys := by
  ext name
  rw [List.mem_toFinset, Finmap.mem_keys, h.mem_names]

/-- What is asked of a registry is answered from the map that it holds. -/
theorem shows (h : Holds registry map) : Shows registry map where
  lookup name := by
    rw [Registry.lookup, Registry.find?, h.find]
    cases map.lookup name <;> rfl
  find := h.find
  has name := by
    rw [Registry.has, Table.has, h.find, Option.isSome_map, ← Bool.coe_iff_coe]
    simp [Finmap.lookup_isSome]
  names := by rw [Registry.names, sortedNames_eq_sort, h.toFinset_names]
  size := by
    rw [← h.toFinset_names, List.toFinset_card_of_nodup h.names_nodup, Table.names, List.length_map,
      Registry.size]
  blockCommands := by
    rw [Registry.blockCommands, sortedNames_eq_sort]
    congr 1
    ext name
    rw [List.mem_toFinset, h.blocks, Contents.mem_blocks]

end Holds

/-- Every block command is a command. -/
theorem Shows.has_of_mem_blockCommands {registry : Registry} {map : Contents}
    (h : Shows registry map) {name : String} (hname : name ∈ registry.blockCommands) :
    registry.has name = true := by
  rw [h.blockCommands, Finset.mem_sort, Contents.mem_blocks] at hname
  rw [h.has, decide_eq_true_iff, Finmap.mem_iff]
  exact hname.imp fun entry => And.left

end Registry

end Pipeline
