/-!
# Tables

Entries by name, in the order in which the names were first entered.  Entering a name again keeps
its place and replaces what it stands for.
-/

namespace Pipeline

/-- A finite map from names, with an order. -/
structure Table (α : Type) where
  entries : List (String × α) := []
  deriving Repr

namespace Table

variable {α : Type}

/-- What the first entry of a name holds. -/
def findEntry (name : String) : List (String × α) → Option α
  | [] => none
  | entry :: rest => if entry.1 = name then some entry.2 else findEntry name rest

/-- What a name stands for. -/
def find? (table : Table α) (name : String) : Option α :=
  findEntry name table.entries

/-- Whether a name is entered. -/
def has (table : Table α) (name : String) : Bool :=
  (table.find? name).isSome

/-- Replaces the entry of a name, or adds one at the end. -/
def insertEntry (name : String) (x : α) : List (String × α) → List (String × α)
  | [] => [(name, x)]
  | entry :: rest =>
    if entry.1 = name then (name, x) :: rest else entry :: insertEntry name x rest

/-- Enters a name. -/
def insert (table : Table α) (name : String) (x : α) : Table α :=
  { entries := insertEntry name x table.entries }

/-- Removes a name. -/
def erase (table : Table α) (name : String) : Table α :=
  { entries := table.entries.filter (·.1 != name) }

/-- The names, in their order. -/
def names (table : Table α) : List String :=
  table.entries.map (·.1)

/-- The sum of all counts. -/
def total (counts : Table Nat) : Nat :=
  counts.entries.foldr (fun entry n => entry.2 + n) 0

theorem mem_of_findEntry {name : String} {x : α} {entries : List (String × α)}
    (h : findEntry name entries = some x) : (name, x) ∈ entries := by
  induction entries with
  | nil => cases h
  | cons entry rest ih =>
    rw [findEntry] at h
    split at h
    · next hname => exact List.mem_cons.2 (.inl (Prod.ext hname.symm (Option.some.inj h).symm))
    · exact List.mem_cons_of_mem _ (ih h)

theorem findEntry_insertEntry (name other : String) (x : α) (entries : List (String × α)) :
    findEntry other (insertEntry name x entries) =
      if other = name then some x else findEntry other entries := by
  induction entries with
  | nil => simp [insertEntry, findEntry, eq_comm]
  | cons entry rest ih =>
    by_cases hk : entry.1 = name
    · by_cases h : other = name
      · simp [insertEntry, findEntry, hk, h]
      · simp [insertEntry, findEntry, hk, h, Ne.symm h]
    · by_cases h : entry.1 = other
      · have hne : other ≠ name := fun heq => hk (h.trans heq)
        simp [insertEntry, findEntry, h, hne]
      · simp [insertEntry, findEntry, hk, h, ih]

/-- Entering a name changes what that name stands for and nothing else. -/
theorem find?_insert (table : Table α) (name other : String) (x : α) :
    (table.insert name x).find? other = if other = name then some x else table.find? other :=
  findEntry_insertEntry name other x table.entries

/-- The names are those that stand for something. -/
theorem isSome_findEntry {name : String} {entries : List (String × α)} :
    (findEntry name entries).isSome = true ↔ name ∈ entries.map (·.1) := by
  induction entries with
  | nil => simp [findEntry]
  | cons entry rest ih =>
    by_cases h : entry.1 = name
    · simp [findEntry, h]
    · simp [findEntry, h, ih, Ne.symm h]

theorem findEntry_filter (name other : String) (entries : List (String × α)) :
    findEntry other (entries.filter (·.1 != name)) =
      if other = name then none else findEntry other entries := by
  induction entries with
  | nil => simp [findEntry]
  | cons entry rest ih =>
    by_cases hk : entry.1 = name
    · rw [List.filter_cons_of_neg (by simp [hk]), ih]
      by_cases h : other = name
      · simp [h]
      · simp [findEntry, hk, h, Ne.symm h]
    · by_cases h : entry.1 = other
      · have hne : other ≠ name := fun heq => hk (h.trans heq)
        simp [findEntry, h, hne]
      · simp [findEntry, hk, h, ih]

/-- Removing a name takes away what that name stands for and nothing else. -/
theorem find?_erase (table : Table α) (name other : String) :
    (table.erase name).find? other = if other = name then none else table.find? other :=
  findEntry_filter name other table.entries

/-- Entering a name adds it to the names at most once. -/
theorem nodup_names_insert {table : Table α} (h : table.names.Nodup) (name : String) (x : α) :
    (table.insert name x).names.Nodup := by
  have hnames (entries : List (String × α)) : (insertEntry name x entries).map (·.1) =
      if name ∈ entries.map (·.1) then entries.map (·.1) else entries.map (·.1) ++ [name] := by
    induction entries with
    | nil => simp [insertEntry]
    | cons entry rest ih =>
      by_cases hk : entry.1 = name
      · simp [insertEntry, hk]
      · simp only [insertEntry, hk, List.map_cons, ih, List.mem_cons, Ne.symm hk, if_false, false_or]
        split <;> rfl
  show ((insertEntry name x table.entries).map (·.1)).Nodup
  rw [hnames]
  split
  · exact h
  · next hnew =>
    refine List.nodup_append.2 ⟨h, List.nodup_cons.2 ⟨List.not_mem_nil, List.nodup_nil⟩, ?_⟩
    rintro old hold _ hlast rfl
    exact hnew (List.mem_singleton.1 hlast ▸ hold)

theorem nodup_names_erase {table : Table α} (h : table.names.Nodup) (name : String) :
    (table.erase name).names.Nodup :=
  (List.filter_sublist.map _).nodup h

end Table

/-- Names in the order of their code points, each of them once. -/
def sortedNames (names : List String) : List String :=
  names.eraseDups.mergeSort fun a b => decide (a ≤ b)

end Pipeline
