/-!
# Line ends

A program is cut into lines at line feeds only.  Text that is read as data, or from the standard
input, has every carriage return, alone or before a line feed, turned into a line feed first.
-/

namespace Pipeline.Text

/-- The lines of a text; there is one more than there are line feeds. -/
def lines (s : List Char) : List (List Char) :=
  s.splitOn '\n'

/-- Turns every carriage return, with the line feed after it if there is one, into a line feed. -/
def unifyLineEnds : List Char → List Char
  | [] => []
  | '\r' :: '\n' :: rest => '\n' :: unifyLineEnds rest
  | c :: rest => (if c = '\r' then '\n' else c) :: unifyLineEnds rest

example : unifyLineEnds "a\r\nb\rc\n\r".toList = "a\nb\nc\n\n".toList := by decide

end Pipeline.Text
