import Mathlib.Logic.Function.Basic
import Pipeline.Proofs.Registry.Contents
import Pipeline.Registry.Shelf

/-!
# Registries in slots

Registries are changed in place, and all of them come from copies of each other or of the standard
commands.  What keeps them independent is that no two slots share a cell, and no slot has the cells of the
standard commands; a change that writes the cells of one slot is then not seen anywhere else.

* `Shelf.Separate` : the invariant on cells.
* `Shelf.fills_put`, `Shelf.fills_update` : filling a slot, with new cells or in place, is seen in that
  slot alone.
* `Shelf.Mirrors.perform`, `Shelf.Mirrors.run` : a change does to the registries what it does to the maps
  that they hold.
* `Shelf.registries_refine_maps` : so after any changes every slot answers as its map does.
-/

namespace Pipeline

namespace Shelf

open Registry

/-! ### Cells -/

/-- Some cells are there. -/
def Within (shelf : Shelf) (cells : Cells) : Prop :=
  cells.handlers < shelf.tables.size ∧ cells.blocks < shelf.sets.size

/-- Two pairs of cells have none in common. -/
def Cells.Apart (a b : Cells) : Prop :=
  a.handlers ≠ b.handlers ∧ a.blocks ≠ b.blocks

theorem Cells.Apart.symm {a b : Cells} (h : a.Apart b) : b.Apart a :=
  ⟨h.1.symm, h.2.symm⟩

/-- No two slots share a cell, and none has a cell of the standard commands. -/
structure Separate (shelf : Shelf) : Prop where
  within_shared : shelf.Within .shared
  within : ∀ {slot cells}, shelf.slots.find? slot = some cells → shelf.Within cells
  apart_shared : ∀ {slot cells}, shelf.slots.find? slot = some cells → cells.Apart .shared
  apart : ∀ {slot other cells cells'}, shelf.slots.find? slot = some cells →
    shelf.slots.find? other = some cells' → slot ≠ other → cells.Apart cells'

section Memory

variable {shelf : Shelf} {cells other : Cells} {slot : String} {registry : Registry}

theorem registry_of_find? (h : shelf.slots.find? slot = some cells) :
    shelf.registry slot = shelf.read cells := by
  rw [Shelf.registry, h]

theorem registry_of_find?_eq_none (h : shelf.slots.find? slot = none) :
    shelf.registry slot = .empty := by
  rw [Shelf.registry, h]

theorem within_write (h : shelf.Within other) : (shelf.write cells registry).Within other := by
  unfold Within write
  rwa [Array.size_setIfInBounds, Array.size_setIfInBounds]

theorem read_write_self (h : shelf.Within cells) : (shelf.write cells registry).read cells = registry := by
  unfold read write
  rw [Array.getElem?_setIfInBounds_self_of_lt h.1, Array.getElem?_setIfInBounds_self_of_lt h.2]
  rfl

theorem read_write_of_apart (h : cells.Apart other) :
    (shelf.write cells registry).read other = shelf.read other := by
  unfold read write
  rw [Array.getElem?_setIfInBounds_ne h.1, Array.getElem?_setIfInBounds_ne h.2]

/-- The cells that a new registry gets. -/
def fresh (shelf : Shelf) : Cells :=
  ⟨shelf.tables.size, shelf.sets.size⟩

theorem apart_fresh (h : shelf.Within cells) : cells.Apart shelf.fresh :=
  ⟨Nat.ne_of_lt h.1, Nat.ne_of_lt h.2⟩

theorem within_put (h : shelf.Within cells) : (shelf.put slot registry).Within cells := by
  unfold Within put
  rw [Array.size_push, Array.size_push]
  exact ⟨Nat.lt_succ_of_lt h.1, Nat.lt_succ_of_lt h.2⟩

theorem within_put_fresh : (shelf.put slot registry).Within shelf.fresh := by
  unfold Within put fresh
  rw [Array.size_push, Array.size_push]
  exact ⟨Nat.lt_succ_self _, Nat.lt_succ_self _⟩

theorem read_put_fresh : (shelf.put slot registry).read shelf.fresh = registry := by
  unfold read put fresh
  rw [Array.getElem?_push_size, Array.getElem?_push_size]
  rfl

theorem read_put (h : shelf.Within cells) :
    (shelf.put slot registry).read cells = shelf.read cells := by
  unfold read put
  rw [Array.getElem?_push, Array.getElem?_push, if_neg (Nat.ne_of_lt h.1), if_neg (Nat.ne_of_lt h.2)]

theorem find?_put (other : String) : (shelf.put slot registry).slots.find? other =
    if other = slot then some shelf.fresh else shelf.slots.find? other :=
  Table.find?_insert shelf.slots slot other shelf.fresh

theorem find?_put_eq_some {other : String}
    (h : (shelf.put slot registry).slots.find? other = some cells) :
    other = slot ∧ cells = shelf.fresh ∨ other ≠ slot ∧ shelf.slots.find? other = some cells := by
  rw [find?_put] at h
  split at h
  · next heq => exact .inl ⟨heq, (Option.some.inj h).symm⟩
  · next hne => exact .inr ⟨hne, h⟩

end Memory

/-! ### Filling a slot -/

/-- One shelf comes from another by filling one slot: nothing else is seen to change. -/
structure Fills (shelf shelf' : Shelf) (slot : String) (registry : Registry) : Prop where
  separate : shelf'.Separate
  shared : shelf'.read .shared = shelf.read .shared
  registry : ∀ other, shelf'.registry other = if other = slot then registry else shelf.registry other

variable {shelf : Shelf}

theorem separate_put (h : shelf.Separate) (slot : String) (registry : Registry) :
    (shelf.put slot registry).Separate where
  within_shared := within_put h.within_shared
  within hcells := by
    rcases find?_put_eq_some hcells with ⟨-, rfl⟩ | ⟨-, hold⟩
    · exact within_put_fresh
    · exact within_put (h.within hold)
  apart_shared hcells := by
    rcases find?_put_eq_some hcells with ⟨-, rfl⟩ | ⟨-, hold⟩
    · exact (apart_fresh h.within_shared).symm
    · exact h.apart_shared hold
  apart hcells hcells' hne := by
    rcases find?_put_eq_some hcells with ⟨rfl, rfl⟩ | ⟨-, hold⟩ <;>
      rcases find?_put_eq_some hcells' with ⟨rfl, rfl⟩ | ⟨-, hold'⟩
    · exact absurd rfl hne
    · exact (apart_fresh (h.within hold')).symm
    · exact apart_fresh (h.within hold)
    · exact h.apart hold hold' hne

theorem fills_put (h : shelf.Separate) (slot : String) (registry : Registry) :
    Fills shelf (shelf.put slot registry) slot registry where
  separate := separate_put h slot registry
  shared := read_put h.within_shared
  registry other := by
    by_cases heq : other = slot
    · rw [if_pos heq, registry_of_find? ((find?_put other).trans (if_pos heq)), read_put_fresh]
    · rw [if_neg heq]
      have hsame : (shelf.put slot registry).slots.find? other = shelf.slots.find? other :=
        (find?_put other).trans (if_neg heq)
      cases hother : shelf.slots.find? other with
      | none => rw [registry_of_find?_eq_none hother, registry_of_find?_eq_none (hsame.trans hother)]
      | some cells =>
        rw [registry_of_find? hother, registry_of_find? (hsame.trans hother),
          read_put (h.within hother)]

theorem separate_write (h : shelf.Separate) (cells : Cells) (registry : Registry) :
    (shelf.write cells registry).Separate where
  within_shared := within_write h.within_shared
  within hslot := within_write (h.within hslot)
  apart_shared hslot := h.apart_shared hslot
  apart hslot hother hne := h.apart hslot hother hne

theorem fills_write (h : shelf.Separate) {slot : String} {cells : Cells}
    (hcells : shelf.slots.find? slot = some cells) (registry : Registry) :
    Fills shelf (shelf.write cells registry) slot registry where
  separate := separate_write h cells registry
  shared := read_write_of_apart (h.apart_shared hcells)
  registry other := by
    have hslots : (shelf.write cells registry).slots = shelf.slots := rfl
    by_cases heq : other = slot
    · rw [if_pos heq, heq, registry_of_find? (hslots ▸ hcells), read_write_self (h.within hcells)]
    · rw [if_neg heq]
      cases hother : shelf.slots.find? other with
      | none => rw [registry_of_find?_eq_none hother, registry_of_find?_eq_none (hslots ▸ hother)]
      | some cells' =>
        rw [registry_of_find? hother, registry_of_find? (hslots ▸ hother),
          read_write_of_apart (h.apart hcells hother (Ne.symm heq))]

theorem fills_update (h : shelf.Separate) (slot : String) (registry : Registry) :
    Fills shelf (shelf.update slot registry) slot registry := by
  unfold update
  cases hcells : shelf.slots.find? slot with
  | none => exact fills_put h slot registry
  | some cells => exact fills_write h hcells registry

/-! ### Maps in slots -/

namespace Change

/-- The slot that a change is made to. -/
def slot : Change → String
  | .create slot | .standard slot | .register slot _ _ _ | .decorate slot _ _ _
  | .unregister slot _ => slot
  | .copy _ target => target

/-- What speaks against a change. -/
def refusal? : Change → Option Fault
  | .register _ name handler _ | .decorate _ name handler _ =>
    (Registry.refusal? (Text.lowerString name) handler).map .of
  | _ => none

/-- The map that a change leaves in its slot, from the maps of all slots. -/
def result (maps : String → Contents) : Change → Contents
  | .create _ => ∅
  | .standard _ => .standard
  | .register slot name handler opensBlock | .decorate slot name handler opensBlock =>
    (maps slot).register name handler opensBlock
  | .unregister slot name => (maps slot).erase name
  | .copy source _ => maps source

/-- A change of maps. -/
def applyTo (maps : String → Contents) (change : Change) : String → Contents :=
  Function.update maps change.slot (change.result maps)

end Change

/-- The maps of all slots after some changes, which start from empty maps. -/
def contents (changes : List Change) : String → Contents :=
  changes.foldl Change.applyTo fun _ => ∅

/-- The registries of a shelf hold maps, and are independent of each other and of the standard
commands. -/
structure Mirrors (shelf : Shelf) (maps : String → Contents) : Prop where
  separate : shelf.Separate
  shared : shelf.read .shared = .standard
  holds : ∀ slot, (shelf.registry slot).Holds (maps slot)

/-- A change is refused and changes nothing, or it fills its slot with a registry that holds the map which
the change leaves there. -/
inductive Outcome (shelf : Shelf) (maps : String → Contents) (change : Change) :
    Option Fault × Shelf → Prop where
  | refused {fault : Fault} : change.refusal? = some fault →
      change.result maps = maps change.slot → Outcome shelf maps change (some fault, shelf)
  | filled {shelf' : Shelf} {registry : Registry} : change.refusal? = none →
      Fills shelf shelf' change.slot registry → registry.Holds (change.result maps) →
      Outcome shelf maps change (none, shelf')

namespace Mirrors

variable {maps : String → Contents}

theorem start : Mirrors {} fun _ => ∅ where
  separate :=
    { within_shared := ⟨Nat.one_pos, Nat.one_pos⟩
      within := nofun
      apart_shared := nofun
      apart := nofun }
  shared := rfl
  holds _ := .empty

/-- A registration, in the one form or in the other, is accepted or refused by the shelf as by the
maps. -/
theorem accept (h : Mirrors shelf maps) {change : Change} {slot name : String} {handler : Handler}
    {opensBlock : Bool} (hslot : change.slot = slot)
    (hchange : change.refusal? = (Registry.refusal? (Text.lowerString name) handler).map Fault.of)
    (hresult : change.result maps = (maps slot).register name handler opensBlock) :
    Outcome shelf maps change
      (shelf.accept slot ((shelf.registry slot).register name handler opensBlock)) := by
  subst hslot
  unfold Contents.register at hresult
  cases hrefusal : Registry.refusal? (Text.lowerString name) handler with
  | some cause =>
    rw [hrefusal] at hchange hresult
    rw [register_of_refused hrefusal]
    exact .refused hchange hresult
  | none =>
    rw [hrefusal] at hchange hresult
    rw [register_of_accepted hrefusal]
    refine .filled hchange (fills_update h.separate change.slot _) ?_
    rw [hresult]
    exact (h.holds change.slot).enter (Text.lowerString name) handler opensBlock

/-- **What one change does.** -/
theorem outcome (h : Mirrors shelf maps) (change : Change) :
    Outcome shelf maps change (shelf.perform change) := by
  cases change with
  | create slot => exact .filled rfl (fills_put h.separate slot _) .empty
  | standard slot => exact .filled rfl (fills_put h.separate slot _) (h.shared ▸ .standard)
  | register slot name handler opensBlock => exact h.accept rfl rfl rfl
  | decorate slot name handler opensBlock => exact h.accept rfl rfl rfl
  | unregister slot name =>
    exact .filled rfl (fills_update h.separate slot _) ((h.holds slot).unregister name)
  | copy source target => exact .filled rfl (fills_put h.separate target _) (h.holds source)

/-- It does to the registries what it does to the maps. -/
theorem perform (h : Mirrors shelf maps) (change : Change) :
    Mirrors (shelf.perform change).2 (change.applyTo maps) := by
  have houtcome := h.outcome change
  unfold Change.applyTo
  generalize shelf.perform change = performed at houtcome ⊢
  cases houtcome with
  | refused _ hresult =>
    rw [hresult, Function.update_eq_self]
    exact h
  | filled _ hfills hholds =>
    refine ⟨hfills.separate, hfills.shared.trans h.shared, fun slot => ?_⟩
    rw [hfills.registry, Function.update_apply]
    split
    · exact hholds
    · exact h.holds slot

/-- So do changes one after the other. -/
theorem run (h : Mirrors shelf maps) (changes : List Change) :
    Mirrors (shelf.run changes) (changes.foldl Change.applyTo maps) := by
  induction changes generalizing shelf maps with
  | nil => exact h
  | cons change rest ih => exact ih (h.perform change)

end Mirrors

theorem wellNamed_applyTo {maps : String → Contents} (h : ∀ slot, (maps slot).WellNamed)
    (change : Change) (slot : String) : (change.applyTo maps slot).WellNamed := by
  rw [Change.applyTo, Function.update_apply]
  split
  · cases change with
    | create slot => exact .empty
    | standard slot => exact .standard
    | register slot name handler opensBlock => exact (h slot).register name handler opensBlock
    | decorate slot name handler opensBlock => exact (h slot).register name handler opensBlock
    | unregister slot name => exact (h slot).erase name
    | copy source target => exact h source
  · exact h slot

theorem wellNamed_contents (changes : List Change) (slot : String) :
    (contents changes slot).WellNamed := by
  have hrun {maps : String → Contents} (h : ∀ slot, (maps slot).WellNamed) :
      ∀ slot, (changes.foldl Change.applyTo maps slot).WellNamed := by
    induction changes generalizing maps with
    | nil => exact h
    | cons change rest ih => exact ih (wellNamed_applyTo h change)
  exact hrun (fun _ => .empty) slot

/-- **Registries refine finite maps.**  After any changes, those included that start a slot empty or with
the standard commands, everything that is asked of a slot is answered from its map; all names in the maps
are in lower case and pass the check, and block commands are commands.  A further change is refused for
what speaks against it, and then no slot changes; an accepted one changes its own slot alone.  The
standard commands stay as they are. -/
theorem registries_refine_maps (changes : List Change) :
    let shelf := ({} : Shelf).run changes
    (∀ slot, (shelf.registry slot).Shows (contents changes slot) ∧
        (contents changes slot).WellNamed ∧
        ∀ name ∈ (shelf.registry slot).blockCommands, (shelf.registry slot).has name = true) ∧
      (∀ change, (shelf.perform change).1 = change.refusal? ∧
        (change.refusal? ≠ none → ∀ slot,
          (shelf.perform change).2.registry slot = shelf.registry slot) ∧
        ∀ slot, slot ≠ change.slot →
          (shelf.perform change).2.registry slot = shelf.registry slot) ∧
      shelf.read .shared = .standard := by
  intro shelf
  have hmirrors : Mirrors shelf (contents changes) := Mirrors.start.run changes
  refine ⟨fun slot => ?_, fun change => ?_, hmirrors.shared⟩
  · have hshows := (hmirrors.holds slot).shows
    exact ⟨hshows, wellNamed_contents changes slot, fun name => hshows.has_of_mem_blockCommands⟩
  · have houtcome := hmirrors.outcome change
    generalize shelf.perform change = performed at houtcome ⊢
    cases houtcome with
    | refused hrefusal _ => exact ⟨hrefusal.symm, fun _ _ => rfl, fun _ _ => rfl⟩
    | filled hrefusal hfills _ =>
      refine ⟨hrefusal.symm, fun h => absurd hrefusal h, fun slot hne => ?_⟩
      rw [hfills.registry, if_neg hne]

/-- A copy of the standard commands loses a command, and the slot it was copied from keeps it. -/
example :
    let shelf := ({} : Shelf).run [.standard "a", .copy "a" "b", .unregister "b" "print"]
    (shelf.registry "a").has "print" = true ∧ (shelf.registry "b").has "print" = false := by
  decide

end Shelf

end Pipeline
