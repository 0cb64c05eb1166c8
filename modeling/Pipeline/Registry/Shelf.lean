import Pipeline.Registry

/-!
# Several registries

A host can keep several registries in named slots and change them one at a time.  Each registry keeps
its handlers and its block commands in cells of the host's memory, and a change writes them in place.
New registries and copies get new cells, and the first cells of all are those of the standard commands,
from which every registry of standard commands is copied.  A slot that was never filled holds the empty
registry.
-/

namespace Pipeline

/-- Where a registry keeps its handlers and its block commands. -/
structure Shelf.Cells where
  handlers : Nat
  blocks : Nat
  deriving DecidableEq, Repr

/-- Registries in named slots, and the memory that they are in. -/
structure Shelf where
  tables : Array (Table Handler) := #[Registry.standard.handlers]
  sets : Array (List String) := #[Registry.standard.blocks]
  slots : Table Shelf.Cells := {}
  deriving Repr

/-- A change to the registries of a shelf. -/
inductive Shelf.Change where
  | create (slot : String)
  | standard (slot : String)
  | register (slot name : String) (handler : Handler) (opensBlock : Bool)
  | decorate (slot name : String) (handler : Handler) (opensBlock : Bool)
  | unregister (slot name : String)
  | copy (source target : String)
  deriving DecidableEq, Repr

namespace Shelf

/-- The cells of the standard commands. -/
def Cells.shared : Cells := ⟨0, 0⟩

/-- What some cells hold. -/
def read (shelf : Shelf) (cells : Cells) : Registry :=
  { handlers := shelf.tables[cells.handlers]?.getD {}
    blocks := shelf.sets[cells.blocks]?.getD [] }

/-- Writes some cells in place. -/
def write (shelf : Shelf) (cells : Cells) (registry : Registry) : Shelf :=
  { shelf with
    tables := shelf.tables.setIfInBounds cells.handlers registry.handlers
    sets := shelf.sets.setIfInBounds cells.blocks registry.blocks }

/-- The registry in a slot. -/
def registry (shelf : Shelf) (slot : String) : Registry :=
  match shelf.slots.find? slot with
  | some cells => shelf.read cells
  | none => .empty

/-- Fills a slot with a registry in new cells. -/
def put (shelf : Shelf) (slot : String) (registry : Registry) : Shelf :=
  { tables := shelf.tables.push registry.handlers
    sets := shelf.sets.push registry.blocks
    slots := shelf.slots.insert slot ⟨shelf.tables.size, shelf.sets.size⟩ }

/-- The shelf with one filled slot. -/
def single (slot : String) (registry : Registry) : Shelf :=
  ({} : Shelf).put slot registry

/-- Changes what the registry in a slot holds. -/
def update (shelf : Shelf) (slot : String) (registry : Registry) : Shelf :=
  match shelf.slots.find? slot with
  | some cells => shelf.write cells registry
  | none => shelf.put slot registry

/-- Changes what the registry in a slot holds to what a registration gives.  A refused registration has
changed nothing. -/
def accept (shelf : Shelf) (slot : String) : Except Fault Registry → Option Fault × Shelf
  | .ok registry => (none, shelf.update slot registry)
  | .error fault => (some fault, shelf)

/-- Makes a change, and gives the fault if it is refused. -/
def perform (shelf : Shelf) : Change → Option Fault × Shelf
  | .create slot => (none, shelf.put slot .empty)
  | .standard slot => (none, shelf.put slot (shelf.read .shared))
  | .register slot name handler opensBlock =>
    shelf.accept slot ((shelf.registry slot).register name handler opensBlock)
  | .decorate slot name handler opensBlock =>
    shelf.accept slot ((shelf.registry slot).decorator name opensBlock handler)
  | .unregister slot name => (none, shelf.update slot ((shelf.registry slot).unregister name))
  | .copy source target => (none, shelf.put target (shelf.registry source))

/-- Makes a change that is not refused. -/
def apply (shelf : Shelf) (change : Change) : Except Fault Shelf :=
  match shelf.perform change with
  | (none, changed) => .ok changed
  | (some fault, _) => .error fault

/-- Makes changes one after the other.  Those that are refused do not stop the others. -/
def run (shelf : Shelf) (changes : List Change) : Shelf :=
  changes.foldl (fun shelf change => (shelf.perform change).2) shelf

end Shelf

end Pipeline
