import Pipeline.Fault
import Pipeline.Text.Blank
import Pipeline.Text.Digit

/-!
# Tokens of an argument

An argument is read from left to right; blanks between tokens are skipped.  A variable is a dollar
sign and the longest run of name characters after it, a number the longest run of digits, an
operator one of nine characters, and a string a quoted sequence in which a backslash starts an
escape.  Each reader leaves a rest that is shorter than what it was given, which ends the reading.
-/

namespace Pipeline

/-- What a string does with a backslash before a character that has no escape. -/
inductive EscapePolicy where
  | reject
  | keep
  | drop
  deriving DecidableEq, Repr

namespace Token

open Text

/-- The characters of names. -/
def isNameChar (c : Char) : Bool :=
  ('A' ≤ c && c ≤ 'Z') || ('a' ≤ c && c ≤ 'z') || isLatinDigit c || c == '_'

/-- The characters that are operators. -/
def isOperatorChar (c : Char) : Bool :=
  "+-/*()|&^".toList.contains c

/-- The characters that an escape can stand for. -/
def escape? : Char → Option Char
  | '"' => some '"'
  | 'n' => some '\n'
  | 't' => some '\t'
  | '\\' => some '\\'
  | _ => none

/-- What a backslash and a character mean under a policy; `none` where they are refused. -/
def escaped? (policy : EscapePolicy) (c : Char) : Option (List Char) :=
  match escape? c, policy with
  | some meant, _ => some [meant]
  | none, .keep => some ['\\', c]
  | none, .drop => some []
  | none, .reject => none

/-- Reads a string from behind its opening quote: what it means, and what follows its closing
quote. -/
def readString (policy : EscapePolicy) : List Char → Except Fault (List Char × List Char)
  | [] => .error (.of .unterminatedString)
  | ['\\'] => .error (.of .unterminatedString)
  | '\\' :: c :: rest =>
    match escaped? policy c with
    | none => .error (.of (.unknownEscape c))
    | some meant => (readString policy rest).map fun r => (meant ++ r.1, r.2)
  | c :: rest =>
    if c = '"' then .ok ([], rest)
    else (readString policy rest).map fun r => (c :: r.1, r.2)

theorem length_readString {policy : EscapePolicy} {s text rest : List Char}
    (h : readString policy s = .ok (text, rest)) : rest.length < s.length := by
  fun_induction readString policy s generalizing text rest with
  | case1 => simp at h
  | case2 => simp at h
  | case3 => simp at h
  | case4 c s meant _ ih =>
    cases hr : readString policy s with
    | error e => simp [hr, Except.map] at h
    | ok r =>
      obtain ⟨text₁, rest₁⟩ := r
      have := ih hr
      simp [hr, Except.map] at h
      simp [← h.2]
      omega
  | case5 => simp at h; simp [h.2]
  | case6 c s _ _ _ ih =>
    cases hr : readString policy s with
    | error e => simp [hr, Except.map] at h
    | ok r =>
      obtain ⟨text₁, rest₁⟩ := r
      have := ih hr
      simp [hr, Except.map] at h
      simp [← h.2]
      omega

/-- The tokens of an argument. -/
def scan (policy : EscapePolicy) : List Char → Except Fault (List Token)
  | [] => .ok []
  | c :: rest =>
    if isBlank c then scan policy rest
    else if c = '"' then
      match _h : readString policy rest with
      | .error fault => .error fault
      | .ok (text, rest') =>
        (scan policy rest').map (stringOf (String.ofList text) :: ·)
    else if c = '$' then
      match rest.takeWhile isNameChar with
      | [] => .error (.of .missingName)
      | name =>
        (scan policy (rest.dropWhile isNameChar)).map (variableOf (String.ofList name) :: ·)
    else if isLatinDigit c then
      (scan policy (rest.dropWhile isLatinDigit)).map
        (numberOf (String.ofList (c :: rest.takeWhile isLatinDigit)) :: ·)
    else if isOperatorChar c then
      (scan policy rest).map (.operator (String.singleton c) :: ·)
    else .error (.of (.unexpectedCharacter c))
termination_by s => s.length
decreasing_by
  · simp
  · have := length_readString _h
    simp; omega
  · have := length_dropWhile_le isNameChar rest
    simp; omega
  · have := length_dropWhile_le isLatinDigit rest
    simp; omega
  · simp

end Token

end Pipeline
