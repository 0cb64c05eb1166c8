import Pipeline.Decimal

/-!
# Shapes of foreign objects

Of an object that is no value of the language only the text it is shown by is known.  The text
tells what the object is made of: numbers, strings, sequences in brackets, and collections in
braces, whose order does not matter and whose entries may be pairs.  Two objects are the same when
their shapes are; the truth values are the numbers one and zero.
-/

namespace Pipeline

/-- What the text of an object says. -/
inductive Shape where
  | whole (n : Int)
  /-- A number with a fraction. -/
  | fraction (d : Decimal)
  /-- A text that stands for itself. -/
  | atom (text : List Char)
  /-- Items in order, behind an opening bracket; the two of a pair are behind a colon. -/
  | sequence (opening : Char) (items : List Shape)
  | collection (items : List Shape)
  deriving Repr

namespace Shape

/-! ## Reading -/

/-- The shape of a word. -/
def ofWord (word : List Char) : Shape :=
  if word = ['T', 'r', 'u', 'e'] then .whole 1
  else if word = ['F', 'a', 'l', 's', 'e'] then .whole 0
  else
    let digits := if word.head? = some '-' then word.drop 1 else word
    match Decimal.latinNumber? digits with
    | some n => .whole (if digits.length = word.length then n else -(n : Int))
    | none =>
      match Decimal.ofText? word with
      | none => .atom word
      | some d =>
        match d.whole? with
        | some n => .whole n
        | none => .fraction d

/-- Whether a character ends a word. -/
def endsWord (c : Char) : Bool :=
  [' ', ',', ':', '(', ')', '[', ']', '\x7b', '\x7d'].contains c

/-- Cuts behind the quote that closes a string. -/
def closeString (quote : Char) : List Char → Option (List Char × List Char)
  | [] => none
  | ['\\'] => none
  | '\\' :: c :: rest => (closeString quote rest).map fun r => ('\\' :: c :: r.1, r.2)
  | c :: rest =>
    if c = quote then some ([c], rest)
    else (closeString quote rest).map fun r => (c :: r.1, r.2)

mutual
/-- Reads one object; `fuel` bounds the number of objects in it. -/
def read : (fuel : Nat) → List Char → Option (Shape × List Char)
  | 0, _ => none
  | fuel + 1, s =>
    match s with
    | [] => none
    | 'b' :: '\'' :: rest =>
      (closeString '\'' rest).map fun r => (.atom ('b' :: '\'' :: r.1), r.2)
    | 'b' :: '"' :: rest =>
      (closeString '"' rest).map fun r => (.atom ('b' :: '"' :: r.1), r.2)
    | c :: rest =>
      if c = '\'' || c = '"' then (closeString c rest).map fun r => (.atom (c :: r.1), r.2)
      else if c = '(' then (readItems fuel ')' rest).map fun r => (.sequence c r.1, r.2)
      else if c = '[' then (readItems fuel ']' rest).map fun r => (.sequence c r.1, r.2)
      else if c = '\x7b' then (readItems fuel '\x7d' rest).map fun r => (.collection r.1, r.2)
      else
        match s.takeWhile (!endsWord ·) with
        | [] => none
        | word => some (ofWord word, s.dropWhile (!endsWord ·))

/-- Reads items up to a closing bracket. -/
def readItems : (fuel : Nat) → (closing : Char) → List Char → Option (List Shape × List Char)
  | 0, _, _ => none
  | fuel + 1, closing, s =>
    if s.head? = some closing then some ([], s.drop 1)
    else do
      let (item, rest) ← readItem fuel s
      match rest with
      | ',' :: ' ' :: more =>
        let (items, rest) ← readItems fuel closing more
        return (item :: items, rest)
      | ',' :: more => if more.head? = some closing then some ([item], more.drop 1) else none
      | _ => if rest.head? = some closing then some ([item], rest.drop 1) else none

/-- Reads an item, which may be a pair. -/
def readItem : (fuel : Nat) → List Char → Option (Shape × List Char)
  | 0, _ => none
  | fuel + 1, s => do
    let (key, rest) ← read fuel s
    match rest with
    | ':' :: ' ' :: more =>
      let (item, rest) ← read fuel more
      return (.sequence ':' [key, item], rest)
    | _ => return (key, rest)
end

/-- The shape that a text describes, if it describes one. -/
def ofText? (s : String) : Option Shape :=
  match read (3 * s.length + 1) s.toList with
  | some (shape, []) => some shape
  | _ => none

/-! ## Sameness -/

mutual
/-- Whether two shapes are the same. -/
def same : Shape → Shape → Bool
  | .whole m, .whole n => m == n
  | .fraction d, .fraction e => d.same e
  | .atom s, .atom t => s == t
  | .sequence c xs, .sequence d ys => c == d && sameItems xs ys
  | .collection xs, .collection ys => xs.length == ys.length && allAmong xs ys
  | _, _ => false

/-- Whether two lists of items are the same, item by item. -/
def sameItems : List Shape → List Shape → Bool
  | [], [] => true
  | x :: xs, y :: ys => same x y && sameItems xs ys
  | _, _ => false

/-- Whether each of the first items is the same as one of the second. -/
def allAmong : List Shape → List Shape → Bool
  | [], _ => true
  | x :: xs, ys => ys.any (fun y => same x y) && allAmong xs ys
end

end Shape

end Pipeline
