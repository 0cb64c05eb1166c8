import Pipeline.Numeral

/-!
# Decimal numbers

Numbers in decimal notation, with a point or an exponent, as a host writes its floating-point
numbers.  Such a number has 53 significant bits and is written with the fewest digits that tell it
apart, so below `2 ^ 53` a whole number is what its digits say; beyond that it is the nearest number
that has 53 significant bits.
-/

namespace Pipeline

/-- `digits` times ten to the power of `exponent`, with a sign that zero has, too. -/
structure Decimal where
  negative : Bool := false
  digits : Nat
  exponent : Int := 0
  deriving DecidableEq, Repr

namespace Decimal

open Text

/-! ## Reading -/

/-- The number that Latin digits write; there has to be one digit at least. -/
def latinNumber? (s : List Char) : Option Nat :=
  if s.isEmpty || !s.all isLatinDigit then none
  else some (Numeral.ofDigits (s.filterMap digitValue?))

/-- An exponent with its mark and its sign; a text that ends here has the exponent zero. -/
def exponent? : List Char → Option Int
  | [] => some 0
  | mark :: rest =>
    if mark = 'e' || mark = 'E' then
      match rest with
      | '-' :: digits => (latinNumber? digits).map fun n => -(n : Int)
      | '+' :: digits => (latinNumber? digits).map (↑·)
      | digits => (latinNumber? digits).map (↑·)
    else none

/-- Reads digits, perhaps a point with digits behind it, and perhaps an exponent. -/
def unsigned? (s : List Char) : Option Decimal := do
  let whole := s.takeWhile isLatinDigit
  let (part, rest) ←
    match s.dropWhile isLatinDigit with
    | '.' :: rest =>
      let part := rest.takeWhile isLatinDigit
      if part.isEmpty then none else some (part, rest.dropWhile isLatinDigit)
    | rest => some ([], rest)
  let _ ← latinNumber? whole
  let digits ← latinNumber? (whole ++ part)
  let exponent ← exponent? rest
  return { digits := digits, exponent := exponent - part.length }

/-- Reads a decimal number, with a minus sign or without. -/
def ofText? : List Char → Option Decimal
  | '-' :: rest => (unsigned? rest).map fun d => { d with negative := true }
  | s => unsigned? s

/-! ## Values -/

/-- A number with the sign of a decimal. -/
def signed (d : Decimal) (n : Nat) : Int :=
  if d.negative then -(n : Int) else n

/-- The nearest number with 53 significant bits; of two, the one with an even last bit. -/
def nearest (n : Nat) : Nat :=
  let unit := Nat.pow 2 (n.log2 - 52)
  let quotient := n / unit
  let rest := n % unit
  if unit < 2 * rest || (unit = 2 * rest && quotient % 2 = 1) then (quotient + 1) * unit
  else quotient * unit

/-- The whole number that a decimal stands for, if it has no fraction. -/
def whole? (d : Decimal) : Option Int :=
  let unit := Numeral.tenTo d.exponent.natAbs
  if 0 ≤ d.exponent then some (d.signed (nearest (d.digits * unit)))
  else if d.digits % unit = 0 then some (d.signed (nearest (d.digits / unit)))
  else none

/-- The digits as a multiple of ten to the power of a lower exponent. -/
def scaledTo (d : Decimal) (exponent : Int) : Int :=
  d.signed (d.digits * Numeral.tenTo (d.exponent - exponent).toNat)

/-- Whether two decimals are one number. -/
def same (a b : Decimal) : Bool :=
  let exponent := min a.exponent b.exponent
  a.scaledTo exponent == b.scaledTo exponent

/-! ## Writing -/

/-- An exponent with its sign and at least two digits. -/
def exponentText (exponent : Int) : List Char :=
  let digits := Nat.toDigits 10 exponent.natAbs
  (if exponent < 0 then '-' else '+') :: List.replicate (2 - digits.length) '0' ++ digits

/-- The leading digit, the point and the other digits, and the exponent. -/
def scientific (digits : List Char) (exponent : Int) : List Char :=
  digits.take 1 ++ (if digits.length ≤ 1 then [] else '.' :: digits.drop 1) ++
    'e' :: exponentText exponent

/-- Digits with a point that stands behind the first `point` of them, and with zeros where digits
are wanting: there is one on each side of the point. -/
def positional (digits : List Char) (point : Int) : List Char :=
  if point ≤ 0 then ['0', '.'] ++ List.replicate point.natAbs '0' ++ digits
  else
    let before := digits.take point.toNat
    let behind := digits.drop point.toNat
    before ++ List.replicate (point.toNat - before.length) '0' ++ '.' ::
      (if behind.isEmpty then ['0'] else behind)

/-- The shortest text: positional for sizes from `0.0001` to below `10 ^ 16`, and with an exponent
for the others. -/
def chars (d : Decimal) : List Char :=
  let all := Nat.toDigits 10 d.digits
  let digits := (all.reverse.dropWhile (· == '0')).reverse
  let point := all.length + d.exponent
  (if d.negative then ['-'] else []) ++
    if digits.isEmpty then ['0', '.', '0']
    else if -4 < point && point ≤ 16 then positional digits point
    else scientific digits (point - 1)

/-- The text of a decimal. -/
def text (d : Decimal) : String :=
  String.ofList d.chars

example : (ofText? "1.50e1".toList).map text = some "15.0" := by decide +kernel

example : (ofText? "-0.00001".toList).map text = some "-1e-05" := by decide +kernel

example : (ofText? "9007199254740993e0".toList).bind whole? = some 9007199254740992 := by
  decide +kernel

end Decimal

end Pipeline
