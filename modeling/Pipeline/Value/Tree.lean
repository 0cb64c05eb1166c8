import Pipeline.Literal
import Pipeline.Value

/-!
# Values as trees

A value together with the elements of all lists it reaches is a tree.  A list that is met again
below itself is cut off there, so that every value has a tree; the mark left in its place says how
many levels up the list is.  What the language prints, and the form in which a host is shown a
value, are functions of the tree.
-/

namespace Pipeline

/-- A value with all its elements. -/
inductive Tree where
  | nothing
  | number (n : Int)
  | string (s : String)
  | list (elements : List Tree)
  /-- A list that contains itself: 1 is the list around the mark. -/
  | cycle (up : Nat)
  | foreign (shown : String)
  deriving Repr

/-- The tree of a value that was met inside the lists of `path`, the nearest one first. -/
def Store.treeBelow (store : Store) : (fuel : Nat) → (path : List Nat) → Value → Tree
  | _, _, .nothing => .nothing
  | _, _, .number n => .number n
  | _, _, .string s => .string s
  | _, _, .foreign shown => .foreign shown
  | fuel, path, .list address =>
    match path.idxOf? address with
    | some k => .cycle (k + 1)
    | none =>
      match fuel with
      | 0 => .cycle 0
      | fuel + 1 =>
        .list ((store.elements address).toList.map (store.treeBelow fuel (address :: path)))

/-- The tree of a value.  No path is longer than the number of lists. -/
def Store.tree (store : Store) (value : Value) : Tree :=
  store.treeBelow (store.lists.size + 1) [] value

namespace Tree

/-! ## The text of a value -/

mutual
/-- The text that printing and joining use. -/
def render : Tree → Except Fault String
  | .nothing => .ok "nil"
  | .number n => (Numeral.write n).mapError .numeral
  | .string s => .ok s
  | .list elements => do
    let items ← renderItems elements
    return "[" ++ ", ".intercalate items ++ "]"
  | .cycle _ => .error .endless
  | .foreign shown => .error (.notValue shown)

/-- The texts of list elements, strings among them as literals. -/
def renderItems : List Tree → Except Fault (List String)
  | [] => .ok []
  | .string s :: rest => do return Literal.ofString s :: (← renderItems rest)
  | element :: rest => do
    let item ← element.render
    return item :: (← renderItems rest)
end

/-! ## How a host is shown a value -/

mutual
/-- The form in which a message shows a value to a host. -/
def shown : Tree → Except Fault String
  | .nothing => .ok "None"
  | .number n => (Numeral.write n).mapError .numeral
  | .string s => .ok (Text.quoted s)
  | .list elements => do
    let items ← shownItems elements
    return "[" ++ ", ".intercalate items ++ "]"
  | .cycle _ => .ok "[...]"
  | .foreign shown => .ok shown

/-- The forms of list elements. -/
def shownItems : List Tree → Except Fault (List String)
  | [] => .ok []
  | element :: rest => do
    let item ← element.shown
    return item :: (← shownItems rest)
end

/-- The literal of a number or a string; nothing else has one. -/
def literal : Tree → Except Fault String
  | .number n => (Literal.ofInt n).mapError .numeral
  | .string s => .ok (Literal.ofString s)
  | other => do throw (.noLiteral (← other.shown))

end Tree

/-- The text of a value. -/
def Store.render (store : Store) (value : Value) : Except Fault String :=
  (store.tree value).render

end Pipeline
