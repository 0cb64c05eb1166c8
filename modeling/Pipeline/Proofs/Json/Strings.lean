import Pipeline.Json
import Mathlib.Data.Nat.Digits.Defs

/-!
# Strings in documents

A string in the text of a document is ASCII between two quotes, and every character stands for itself, for
an escape, or for one or two UTF-16 units of four digits.  No character is written with a bare quote, a
backslash says that an escape begins, and a unit of the first half of a pair, which is no character, says
that a second one belongs to it.  So the text of a string can be read from the front, and says itself where
it ends.

* `readHex_hexDigits` : the digits of a unit, read back.
* `readChar_escapeChar` : one character, read back.
* `writeString_append_inj` : a whole string.
-/

namespace Pipeline

namespace Text

/-! ### Digits -/

/-- What a hexadecimal digit counts. -/
def hexValue (c : Char) : Nat :=
  if c.toNat < 0x3A then c.toNat - 0x30 else c.toNat - 0x57

/-- The number that some hexadecimal digits write. -/
def readHex (digits : List Char) : Nat :=
  digits.foldl (fun n c => 16 * n + hexValue c) 0

theorem hexValue_digitChar : ∀ d < 16, hexValue (Nat.digitChar d) = d := by decide

theorem readHex_concat (digits : List Char) (c : Char) :
    readHex (digits ++ [c]) = 16 * readHex digits + hexValue c := by
  simp [readHex]

theorem readHex_toDigits (n : Nat) : readHex (Nat.toDigits 16 n) = n := by
  induction n using Nat.strongRecOn with
  | ind n ih =>
    rw [Nat.toDigits_eq_if (by decide)]
    split
    · next hlt => simp [readHex, hexValue_digitChar n hlt]
    · have hlast := hexValue_digitChar (n % 16) (Nat.mod_lt n (by decide))
      rw [readHex_concat, ih (n / 16) (by omega), hlast]
      omega

/-- Zeros in front do not count. -/
theorem readHex_hexDigits (width n : Nat) : readHex (hexDigits width n) = n := by
  have hzeros (k : Nat) : (List.replicate k '0').foldl (fun n c => 16 * n + hexValue c) 0 = 0 := by
    induction k with
    | zero => rfl
    | succ k ih => exact ih
  rw [readHex, hexDigits, List.foldl_append, hzeros]
  exact readHex_toDigits n

theorem length_hexDigits {width n : Nat} (hwidth : 0 < width) (h : n < 16 ^ width) :
    (hexDigits width n).length = width := by
  have hlength := Nat.toDigits_length 16 n width hwidth h
  simp only [hexDigits, List.length_append, List.length_replicate]
  omega

end Text

namespace Json

/-! ### Characters -/

/-- The unit that a text begins with, and what comes behind it. -/
def readUnit (s : List Char) : Nat × List Char :=
  (Text.readHex (s.take 4), s.drop 4)

/-- The code point that a letter behind a backslash stands for. -/
def unescape (c : Char) : Nat :=
  if c = 'n' then 0x0A
  else if c = 'r' then 0x0D
  else if c = 't' then 0x09
  else if c = 'f' then 0x0C
  else if c = 'b' then 0x08
  else c.toNat

/-- The code point of the character that a text in a string begins with, and what comes behind it; `none`
where the string ends. -/
def readChar : List Char → Option (Nat × List Char)
  | [] => none
  | '\\' :: 'u' :: s =>
    let (unit, rest) := readUnit s
    if 0xD800 ≤ unit ∧ unit < 0xDC00 then
      let (second, rest) := readUnit (rest.drop 2)
      some (0x10000 + 0x400 * (unit - 0xD800) + (second - 0xDC00), rest)
    else some (unit, rest)
  | '\\' :: c :: s => some (unescape c, s)
  | c :: s => if c = '"' then none else some (c.toNat, s)

theorem readUnit_hexDigits {n : Nat} (h : n < 0x10000) (rest : List Char) :
    readUnit (Text.hexDigits 4 n ++ rest) = (n, rest) := by
  have hlength : (Text.hexDigits 4 n).length = 4 := Text.length_hexDigits (by decide) h
  rw [readUnit, List.take_left' hlength, List.drop_left' hlength, Text.readHex_hexDigits]

/-- A unit outside the first halves of pairs is a character. -/
theorem readChar_writeUnit {n : Nat} (h : n < 0x10000) (hsingle : n < 0xD800 ∨ 0xDFFF < n)
    (rest : List Char) : readChar (writeUnit n ++ rest) = some (n, rest) := by
  have hpair : ¬(0xD800 ≤ n ∧ n < 0xDC00) := by omega
  show readChar ('\\' :: 'u' :: (Text.hexDigits 4 n ++ rest)) = _
  simp only [readChar, readUnit_hexDigits h, if_neg hpair]

/-- Two units of a pair are one. -/
theorem readChar_writeUnit_pair {n : Nat} (h : n < 0x100000) (rest : List Char) :
    readChar (writeUnit (0xD800 + n / 0x400) ++ writeUnit (0xDC00 + n % 0x400) ++ rest) =
      some (0x10000 + n, rest) := by
  have hfirst : 0xD800 + n / 0x400 < 0x10000 := by omega
  have hsecond : 0xDC00 + n % 0x400 < 0x10000 := by omega
  have hpair : 0xD800 ≤ 0xD800 + n / 0x400 ∧ 0xD800 + n / 0x400 < 0xDC00 := by omega
  show readChar ('\\' :: 'u' :: (Text.hexDigits 4 _ ++
    '\\' :: 'u' :: (Text.hexDigits 4 _) ++ rest)) = _
  rw [List.append_assoc]
  simp only [readChar, readUnit_hexDigits hfirst, if_pos hpair, List.cons_append, List.drop_succ_cons,
    List.drop_zero, readUnit_hexDigits hsecond, Option.some.injEq, Prod.mk.injEq, and_true]
  omega

/-- A character is read back from what it is written as. -/
theorem readChar_escapeChar (c : Char) (rest : List Char) :
    readChar (escapeChar c ++ rest) = some (c.toNat, rest) := by
  have hvalid : c.toNat < 0xD800 ∨ 0xDFFF < c.toNat ∧ c.toNat < 0x110000 := c.valid
  unfold escapeChar
  split_ifs with hquoted hn hr ht hf hb hprintable hunit
  · rcases (Bool.or_eq_true _ _).mp hquoted with h | h <;> rw [of_decide_eq_true h] <;> rfl
  · rw [hn]; rfl
  · rw [hr]; rfl
  · rw [ht]; rfl
  · rw [hf]; rfl
  · rw [hb]; rfl
  · -- A printable character that is no quote and no backslash stands for itself.
    simp only [Bool.or_eq_true, decide_eq_true_eq, not_or] at hquoted
    simp [readChar, hquoted]
  · exact readChar_writeUnit hunit (by omega) rest
  · have hpair := readChar_writeUnit_pair (n := c.toNat - 0x10000) (by omega) rest
    rwa [Nat.add_sub_cancel' (by omega)] at hpair

/-! ### Strings -/

/-- The characters of a string are told from its text, which ends at the first bare quote. -/
theorem flatMap_escapeChar_append_inj {s s' rest rest' : List Char}
    (h : s.flatMap escapeChar ++ '"' :: rest = s'.flatMap escapeChar ++ '"' :: rest') :
    s = s' ∧ rest = rest' := by
  have hend (rest : List Char) : readChar ('"' :: rest) = none := by simp [readChar]
  induction s generalizing s' with
  | nil =>
    cases s' with
    | nil => simpa using h
    | cons c' s' =>
      rw [List.flatMap_cons, List.append_assoc] at h
      have hread := congrArg readChar h
      rw [List.flatMap_nil, List.nil_append, hend, readChar_escapeChar] at hread
      cases hread
  | cons c s ih =>
    rw [List.flatMap_cons, List.append_assoc] at h
    cases s' with
    | nil =>
      have hread := congrArg readChar h
      rw [List.flatMap_nil, List.nil_append, hend, readChar_escapeChar] at hread
      cases hread
    | cons c' s' =>
      rw [List.flatMap_cons, List.append_assoc] at h
      have hread := congrArg readChar h
      rw [readChar_escapeChar, readChar_escapeChar] at hread
      simp only [Option.some.injEq, Prod.mk.injEq] at hread
      obtain ⟨rfl, hrest⟩ := ih hread.2
      rw [Char.toNat_inj.1 hread.1]
      exact ⟨rfl, hrest⟩

/-- The text of a string ends where it says. -/
theorem writeString_append_inj {s s' : String} {rest rest' : List Char}
    (h : writeString s ++ rest = writeString s' ++ rest') : s = s' ∧ rest = rest' := by
  have hinner : s.toList.flatMap escapeChar ++ '"' :: rest =
      s'.toList.flatMap escapeChar ++ '"' :: rest' := by
    simpa [writeString] using h
  obtain ⟨hs, hrest⟩ := flatMap_escapeChar_append_inj hinner
  exact ⟨String.toList_inj.1 hs, hrest⟩

end Json

end Pipeline
