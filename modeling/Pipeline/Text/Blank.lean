/-!
# Blank characters

Which characters separate words, and the operations that only look at them: trimming a text and
cutting its first word off.  A text is a list of characters throughout this folder.

The set is the Unicode white space together with the four information separators `U+001C` to
`U+001F`; `isSpace` leaves those four out and is what surrounds a numeral.
-/

namespace Pipeline.Text

/-- White space in the sense of the Unicode property `White_Space`. -/
def isSpace (c : Char) : Bool :=
  let n := c.toNat
  (0x9 ≤ n && n ≤ 0xD) || n == 0x20 || n == 0x85 || n == 0xA0 || n == 0x1680 ||
    (0x2000 ≤ n && n ≤ 0x200A) || n == 0x2028 || n == 0x2029 || n == 0x202F ||
    n == 0x205F || n == 0x3000

/-- White space or one of the information separators. -/
def isBlank (c : Char) : Bool :=
  isSpace c || (0x1C ≤ c.toNat && c.toNat ≤ 0x1F)

/-! ## Trimming -/

/-- Drops the characters of a class from both ends. -/
def trimWith (p : Char → Bool) (s : List Char) : List Char :=
  ((s.dropWhile p).reverse.dropWhile p).reverse

/-- Drops the blanks at both ends. -/
def trim (s : List Char) : List Char :=
  trimWith isBlank s

/-- Cuts the first word off: the longest run without blanks, and what follows the blanks after
it. -/
def cutWord (s : List Char) : List Char × List Char :=
  (s.takeWhile (!isBlank ·), (s.dropWhile (!isBlank ·)).dropWhile isBlank)

theorem length_dropWhile_le {α : Type _} (p : α → Bool) (s : List α) :
    (s.dropWhile p).length ≤ s.length := by
  induction s with
  | nil => exact Nat.le_refl _
  | cons c s ih =>
    rw [List.dropWhile_cons]
    split
    · exact Nat.le_succ_of_le ih
    · exact Nat.le_refl _

example : trim " a b\t".toList = "a b".toList := by decide

example : cutWord "set  1, 2".toList = ("set".toList, "1, 2".toList) := by decide

end Pipeline.Text
