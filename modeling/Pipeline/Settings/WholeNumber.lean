import Pipeline.Fault
import Pipeline.Text.Blank

/-!
# Whole numbers in settings

A whole number may be given as a string.  Its plain form is a minus sign or none, and digits without
a leading zero, no more characters than a numeral may have digits.  A string that is not in plain
form is cleaned and tried once more: white space around it, a plus sign, leading zeros with the
underscores among them, a point with zeros behind it, and single underscores are left out.  A minus
sign may come before the leading zeros or behind them.
-/

namespace Pipeline.WholeNumber

open Text

/-- The sign and the number that digits write. -/
def signed (negative : Bool) (digits : List Char) : Int :=
  let n := Numeral.ofDigits (digits.filterMap digitValue?)
  if negative then -(n : Int) else n

/-- Reads the plain form.  A number that starts a string and is too long is found before anything
that is wrong behind it. -/
def readPlain (s : List Char) : Except SettingProblem Int :=
  let negative := s.head? == some '-'
  let rest := if negative then s.drop 1 else s
  let digits := rest.takeWhile isLatinDigit
  match digits with
  | [] => .error .notInteger
  | '0' :: _ :: _ => .error .notInteger
  | _ =>
    if Numeral.digitLimit < (s.length - rest.length) + digits.length then .error .tooLarge
    else if digits.length < rest.length then .error .notInteger
    else .ok (signed negative digits)

/-- Leaves a plus sign out; a minus sign must not follow it. -/
def dropPlus? : List Char → Option (List Char)
  | '+' :: '-' :: _ => none
  | '+' :: rest => some rest
  | s => some s

/-- The digits other than zero, and the minus sign. -/
def startsNumber (c : Char) : Bool :=
  ('1' ≤ c && c ≤ '9') || c == '-'

/-- Leaves leading zeros and the underscores among them out; the last one stays where nothing but a
point or the end follows. -/
def dropZeros? : List Char → Option (List Char)
  | [] => none
  | c :: rest =>
    if c = '0' then
      let isFiller (c : Char) : Bool := c == '0' || c == '_'
      let last := (c :: rest.takeWhile isFiller).getLastD '0'
      match rest.dropWhile isFiller with
      | [] => some [last]
      | d :: more =>
        if d = '.' then some (last :: d :: more)
        else if startsNumber d then some (d :: more)
        else none
    else if startsNumber c then some (c :: rest)
    else none

/-- Leaves leading zeros out, behind the minus sign where the string starts with one. -/
def dropZerosPastSign? : List Char → Option (List Char)
  | '-' :: rest => (dropZeros? rest).map ('-' :: ·)
  | s => dropZeros? s

/-- Leaves the first point out when zeros, and nothing else, are behind it. -/
def dropFraction (s : List Char) : List Char :=
  match s.dropWhile (· != '.') with
  | _ :: zero :: zeros =>
    if (zero :: zeros).all (· == '0') then s.takeWhile (· != '.') else s
  | _ => s

/-- Whether two underscores stand side by side. -/
def hasDoubleUnderscore : List Char → Bool
  | '_' :: '_' :: _ => true
  | _ :: rest => hasDoubleUnderscore rest
  | [] => false

/-- Leaves single underscores inside the string out. -/
def dropUnderscores (s : List Char) : List Char :=
  if s.head? == some '_' || s.getLast? == some '_' || hasDoubleUnderscore s then s
  else s.filter (· != '_')

/-- A string in cleaned form. -/
def clean? (s : List Char) : Option (List Char) := do
  let s ← dropPlus? (trimWith isSpace s)
  let s ← dropZerosPastSign? s
  return dropUnderscores (dropFraction s)

/-- Reads a whole number.  Only the plain form can be too large. -/
def read (s : List Char) : Except SettingProblem Int :=
  match readPlain s with
  | .ok n => .ok n
  | .error .tooLarge => .error .tooLarge
  | .error _ =>
    match (clean? s).map readPlain with
    | some (.ok n) => .ok n
    | _ => .error .notInteger

example : (read " +0__1_0.00 ".toList).toOption = some 10 := by decide +kernel

example : (read "00-_1".toList).toOption = some (-1) := by decide +kernel

example : (read "-00_7.0".toList).toOption = some (-7) := by decide +kernel

example : (read "-0-7".toList).toOption = none := by decide +kernel

end Pipeline.WholeNumber
