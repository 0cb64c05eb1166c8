import Pipeline.Environment

/-!
# Renumbered lines

The number of a line stands in every statement and in the place of a fault.  A renumbering changes
these numbers and nothing else.
-/

namespace Pipeline

/-! ### Faults -/

/-- A place whose line has another number. -/
def Place.renumber (f : Int → Int) (place : Place) : Place :=
  { place with line := place.line.map f }

/-- A fault whose line has another number. -/
def Fault.renumber (f : Int → Int) : Fault → Fault
  | .script cause place => .script cause (place.renumber f)
  | fault => fault

theorem Place.renumber_id (place : Place) : place.renumber id = place := by
  rw [renumber, Option.map_id, id_eq]

theorem Fault.renumber_id (fault : Fault) : fault.renumber id = fault := by
  cases fault with
  | script cause place => rw [renumber, Place.renumber_id]
  | _ => rfl

/-- Only faults of the script have places. -/
theorem Fault.renumber_of_isScript {fault : Fault} (h : fault.isScript = false) (f : Int → Int) :
    fault.renumber f = fault := by
  cases fault with
  | script cause place => cases h
  | _ => rfl

/-- A fault that is put at a place does not keep the one it had. -/
theorem Fault.renumber_locate (f g : Int → Int) (place : Place) (fault : Fault) :
    (fault.locate place).renumber f = (fault.renumber g).locate (place.renumber f) := by
  cases fault <;> rfl

/-! ### Statements and programs -/

/-- A statement whose line has another number. -/
def Statement.renumber (f : Int → Int) (s : Statement) : Statement :=
  { s with line := f s.line }

@[simp]
theorem Statement.command_renumber (f : Int → Int) (s : Statement) :
    (s.renumber f).command = s.command := rfl

mutual

/-- A node whose lines have other numbers. -/
def Node.renumber (f : Int → Int) : Node → Node
  | .simple s => .simple (s.renumber f)
  | .block s body => .block (s.renumber f) (Program.renumber f body)

/-- Nodes whose lines have other numbers. -/
def Program.renumber (f : Int → Int) : List Node → List Node
  | [] => []
  | node :: rest => node.renumber f :: Program.renumber f rest

end

namespace Node

variable (f : Int → Int) (node : Node)

@[simp]
theorem statement_renumber : (node.renumber f).statement = node.statement.renumber f := by
  cases node <;> rfl

end Node

mutual

theorem Node.renumber_id : ∀ node : Node, node.renumber id = node
  | .simple _ => rfl
  | .block s body => congrArg (Node.block s) (Program.renumber_id body)

theorem Program.renumber_id : ∀ nodes : List Node, Program.renumber id nodes = nodes
  | [] => rfl
  | node :: rest => by rw [Program.renumber, Node.renumber_id node, Program.renumber_id rest]

end

theorem Program.renumber_id_eq : Program.renumber id = id :=
  funext Program.renumber_id

/-! ### Tables -/

namespace Table

variable {α β : Type}

/-- A table in which every name stands for the image of what it stood for. -/
def map (g : α → β) (table : Table α) : Table β :=
  { entries := table.entries.map fun entry => (entry.1, g entry.2) }

theorem findEntry_map (g : α → β) (name : String) (entries : List (String × α)) :
    findEntry name (entries.map fun entry => (entry.1, g entry.2)) =
      (findEntry name entries).map g := by
  induction entries with
  | nil => rfl
  | cons entry rest ih =>
    rw [List.map_cons, findEntry, findEntry, ih]
    split <;> rfl

theorem find?_map (g : α → β) (table : Table α) (name : String) :
    (table.map g).find? name = (table.find? name).map g :=
  findEntry_map g name table.entries

theorem insertEntry_map (g : α → β) (name : String) (x : α) (entries : List (String × α)) :
    (insertEntry name x entries).map (fun entry => (entry.1, g entry.2)) =
      insertEntry name (g x) (entries.map fun entry => (entry.1, g entry.2)) := by
  induction entries with
  | nil => rfl
  | cons entry rest ih =>
    rw [insertEntry, List.map_cons, insertEntry]
    split
    · rfl
    · rw [List.map_cons, ih]

theorem map_insert (g : α → β) (table : Table α) (name : String) (x : α) :
    (table.insert name x).map g = (table.map g).insert name (g x) :=
  congrArg Table.mk (insertEntry_map g name x table.entries)

theorem map_id (table : Table α) : table.map id = table :=
  congrArg Table.mk (List.map_id table.entries)

end Table

end Pipeline
