/-!
# Cutting at a separator

The pieces of a text between the leftmost occurrences of a separator that do not overlap, and
single characters where the separator is empty.  Joining puts the separator back.
-/

namespace Pipeline.Text

/-- Puts a character in front of the first piece. -/
def consPiece (c : Char) : List (List Char) → List (List Char)
  | [] => [[c]]
  | piece :: pieces => (c :: piece) :: pieces

/-- Cuts at a separator that is not empty; the first `skip` characters belong to an occurrence
already seen. -/
def cutFrom (separator : List Char) : (skip : Nat) → List Char → List (List Char)
  | _, [] => [[]]
  | skip + 1, _ :: rest => cutFrom separator skip rest
  | 0, c :: rest =>
    if separator.isPrefixOf (c :: rest) then [] :: cutFrom separator (separator.length - 1) rest
    else consPiece c (cutFrom separator 0 rest)

/-- The pieces of a text. -/
def cut (separator s : List Char) : List (List Char) :=
  if separator.isEmpty then s.map fun c => [c] else cutFrom separator 0 s

/-- The pieces with the separator between each two of them. -/
def joined (separator : List Char) (pieces : List (List Char)) : List Char :=
  separator.intercalate pieces

example : cut "aa".toList "aaab".toList = ["".toList, "ab".toList] := by decide

example : cut ",".toList "".toList = [[]] := by decide

end Pipeline.Text
