import Pipeline.Text.LetterCaseData

/-!
# Lower case

Full Unicode lower-casing of a text.  All characters go by the table, except two: the dotted capital
I becomes an i and a combining dot, and a capital sigma takes its final form at the end of a word,
that is after a cased letter and not before one, marks being looked through.
-/

namespace Pipeline.Text

/-- Whether the code point is one of the run's. -/
def CaseRun.has (run : CaseRun) (n : Nat) : Bool :=
  run.first ≤ n && n ≤ run.last && (n - run.first) % run.step == 0

/-- The lower-case form of a character whose form is a single one. -/
def lowerChar (c : Char) : Char :=
  match caseRuns.find? (·.has c.toNat) with
  | some run => Char.ofNat (c.toNat + run.offset).toNat
  | none => c

/-- Whether the nearest character that is no mark is a cased letter. -/
def meetsCased (s : List Char) : Bool :=
  match s.dropWhile caseIgnorable.has with
  | [] => false
  | c :: _ => casedLetters.has c

/-- Lower-cases a text whose preceding characters, nearest first, are given. -/
def lowerAfter (before : List Char) : List Char → List Char
  | [] => []
  | c :: rest =>
    let lowered :=
      if c = 'Σ' then [if meetsCased before && !meetsCased rest then 'ς' else 'σ']
      else if c = 'İ' then ['i', Char.ofNat 0x307]
      else [lowerChar c]
    lowered ++ lowerAfter (c :: before) rest

/-- The lower-case form of a text. -/
def lower (s : List Char) : List Char :=
  lowerAfter [] s

/-- The lower-case form of a string. -/
def lowerString (s : String) : String :=
  String.ofList (lower s.toList)

example : lower "Set".toList = "set".toList := by decide +kernel

example : lower "ΟΔΟΣ".toList = "οδος".toList := by decide +kernel

end Pipeline.Text
