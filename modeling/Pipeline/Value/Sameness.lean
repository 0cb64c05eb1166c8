import Pipeline.Value
import Pipeline.Value.Shape

/-!
# Sameness of values

Numbers, strings and nothing are the same when they are equal.  Two lists are the same when they are
one list, or have the same number of elements and the same elements in order.  A foreign object goes
by its shape: it is the same as what is shown alike, as an object of the same shape, and as the
number that it is.
-/

namespace Pipeline

/-- Whether two foreign objects are the same. -/
def sameShown (x y : String) : Bool :=
  x == y ||
    match Shape.ofText? x, Shape.ofText? y with
    | some a, some b => a.same b
    | _, _ => false

/-- Whether a foreign object is a whole number. -/
def isShownNumber (shown : String) (n : Int) : Bool :=
  match Shape.ofText? shown with
  | some shape => shape.same (.whole n)
  | none => false

namespace Store

/-- Compares pairs in order until two are not the same. -/
def sameAll (same : Value → Value → Option Bool) : List (Value × Value) → Option Bool
  | [] => some true
  | pair :: rest =>
    match same pair.1 pair.2 with
    | some true => sameAll same rest
    | other => other

/-- Compares two values through at most `fuel` levels of lists; `none` if there are more. -/
def sameWithin (store : Store) : (fuel : Nat) → Value → Value → Option Bool
  | fuel, .list a, .list b =>
    if a = b then some true
    else
      let xs := store.elements a
      let ys := store.elements b
      if xs.size != ys.size then some false
      else
        match fuel with
        | 0 => none
        | fuel + 1 => sameAll (store.sameWithin fuel) (xs.toList.zip ys.toList)
  | _, .foreign x, .foreign y => some (sameShown x y)
  | _, .foreign x, .number n | _, .number n, .foreign x => some (isShownNumber x n)
  | _, x, y => some (x == y)

/-- Whether two values are the same.  A comparison that goes on for longer than there are pairs of
lists meets some pair again and has no end. -/
def same (store : Store) (x y : Value) : Except Fault Bool :=
  match store.sameWithin (store.lists.size * store.lists.size + 1) x y with
  | some result => .ok result
  | none => .error .endless

end Store

end Pipeline
