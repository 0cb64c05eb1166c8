import Pipeline.Text.Blank
import Pipeline.Text.Digit

/-!
# Numerals

Reading and writing whole numbers.  A numeral has at most 4300 digits in either direction: a longer
one is refused, and a number that would need more is not written.  In between, numbers have no
bound.
-/

namespace Pipeline

/-- Why a numeral cannot be read or written. -/
inductive NumeralProblem where
  | malformed
  | tooLong
  deriving DecidableEq, Repr

namespace Numeral

open Text

/-- The most digits a numeral may have, leading zeros counted and the sign not. -/
def digitLimit : Nat := 4300

/-- A one with `n` zeros behind it. -/
def tenTo (n : Nat) : Nat := Nat.pow 10 n

/-- The first number with more digits than the limit. -/
def bound : Nat := tenTo digitLimit

/-- The values of digits with single underscores between them; `none` when the text is anything
else. -/
def digits? : List Char → Option (List Nat)
  | [] => none
  | [c] => (digitValue? c).map ([·])
  | c :: '_' :: rest => do return (← digitValue? c) :: (← digits? rest)
  | c :: rest => do return (← digitValue? c) :: (← digits? rest)

/-- The number that digits write, most significant first. -/
def ofDigits (digits : List Nat) : Nat :=
  digits.foldl (fun n d => 10 * n + d) 0

/-- Reads digits of at most the limit. -/
def readNat (s : List Char) : Except NumeralProblem Nat :=
  match digits? s with
  | none => .error .malformed
  | some digits => if digits.length ≤ digitLimit then .ok (ofDigits digits) else .error .tooLong

/-- Reads a numeral: white space around it, a sign, digits of any script. -/
def read (s : List Char) : Except NumeralProblem Int :=
  match trimWith isSpace s with
  | '-' :: rest => (readNat rest).map fun n => -(n : Int)
  | '+' :: rest => (readNat rest).map (↑·)
  | digits => (readNat digits).map (↑·)

/-- Writes a number in the ten Latin digits. -/
def write (n : Int) : Except NumeralProblem String :=
  if n.natAbs < bound then .ok (toString n) else .error .tooLong

example : (read " -1_0".toList).toOption = some (-10) := by decide +kernel

end Numeral

end Pipeline
