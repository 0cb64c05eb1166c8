import Pipeline.Fault

/-!
# Values and the store of lists

A value is nothing, a number, a string, or a list.  Lists are shared: a value only holds the address
of a list, the store holds the elements, and everyone who holds the address sees a change.  A host
program can also pass in objects that are no values of the language; of these only the text they are
shown by is known.
-/

namespace Pipeline

/-- A value at run time. -/
inductive Value where
  | nothing
  | number (n : Int)
  | string (s : String)
  | list (address : Nat)
  | foreign (shown : String)
  deriving DecidableEq, Repr

/-- The kind of a value; a foreign object has none. -/
def Value.kind : Value → Except Fault ValueKind
  | .nothing => .ok .nothing
  | .number _ => .ok .number
  | .string _ => .ok .string
  | .list _ => .ok .list
  | .foreign shown => .error (.notValue shown)

/-- The elements of all lists, by address. -/
structure Store where
  lists : Array (Array Value) := #[]
  deriving DecidableEq, Repr

namespace Store

/-- The elements of a list. -/
def elements (store : Store) (address : Nat) : Array Value :=
  store.lists[address]?.getD #[]

/-- Adds a new list. -/
def alloc (store : Store) (elements : Array Value) : Nat × Store :=
  (store.lists.size, { lists := store.lists.push elements })

/-- Replaces one element of a list. -/
def write (store : Store) (address index : Nat) (value : Value) : Store :=
  { lists := store.lists.modify address fun elements => elements.setIfInBounds index value }

/-- Whether a value counts as true. -/
def isTruthy (store : Store) : Value → Except Fault Bool
  | .nothing => .ok false
  | .number n => .ok (n != 0)
  | .string s => .ok (s != "")
  | .list address => .ok (!(store.elements address).isEmpty)
  | .foreign shown => .error (.notValue shown)

end Store

end Pipeline
