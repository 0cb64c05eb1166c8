import Pipeline.Numeral

/-!
# Literals

How a number or a text is written so that it can be read back as an argument.  Four characters of a
text have escapes; a negative number, which has no sign of its own in an argument, is written as a
difference.
-/

namespace Pipeline.Literal

/-- The form of one character inside quotes. -/
def escapeChar : Char → List Char
  | '\\' => ['\\', '\\']
  | '"' => ['\\', '"']
  | '\n' => ['\\', 'n']
  | '\t' => ['\\', 't']
  | c => [c]

/-- The literal of a text, as characters. -/
def quote (s : List Char) : List Char :=
  '"' :: s.flatMap escapeChar ++ ['"']

/-- The literal of a text. -/
def ofString (s : String) : String :=
  String.ofList (quote s.toList)

/-- The literal of a number. -/
def ofInt (n : Int) : Except NumeralProblem String :=
  if 0 ≤ n then Numeral.write n
  else (Numeral.write (-n)).map fun digits => "(0-" ++ digits ++ ")"

end Pipeline.Literal
