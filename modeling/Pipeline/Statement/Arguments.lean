import Pipeline.Fault
import Pipeline.Text.Blank

/-!
# Cutting the arguments of a statement

The arguments of a statement are separated by the commas that lie outside strings and outside
parentheses.  A backslash inside a string always takes the next character with it, and a closing
parenthesis with nothing open is an ordinary character here.
-/

namespace Pipeline.Arguments

open Text

/-- Cuts behind the quote that closes a string whose opening quote has been passed. -/
def closeQuote : List Char → Option (List Char × List Char)
  | [] => none
  | ['\\'] => none
  | '\\' :: c :: rest => (closeQuote rest).map fun r => ('\\' :: c :: r.1, r.2)
  | c :: rest =>
    if c = '"' then some ([c], rest) else (closeQuote rest).map fun r => (c :: r.1, r.2)

theorem closeQuote_append {s inside rest : List Char} (h : closeQuote s = some (inside, rest)) :
    inside ++ rest = s := by
  fun_induction closeQuote s generalizing inside rest with
  | case1 => simp at h
  | case2 => simp at h
  | case3 c s ih =>
    obtain ⟨⟨inside₁, rest₁⟩, hr, heq⟩ := Option.map_eq_some_iff.1 h
    cases heq
    simp [ih hr]
  | case4 => simp at h; simp [← h.1, ← h.2]
  | case5 c s _ _ _ ih =>
    obtain ⟨⟨inside₁, rest₁⟩, hr, heq⟩ := Option.map_eq_some_iff.1 h
    cases heq
    simp [ih hr]

theorem length_closeQuote {s inside rest : List Char} (h : closeQuote s = some (inside, rest)) :
    rest.length ≤ s.length := by
  rw [← closeQuote_append h, List.length_append]
  omega

/-- Puts characters in front of the first piece. -/
def prepend (front : List Char) : List (List Char) → List (List Char)
  | [] => [front]
  | piece :: pieces => (front ++ piece) :: pieces

/-- The pieces between the commas of the top level, of a text that starts inside `depth`
parentheses. -/
def pieces (depth : Nat) : List Char → Except Fault (List (List Char))
  | [] => if depth = 0 then .ok [[]] else .error (.of .unterminatedParenthesis)
  | c :: rest =>
    if c = '"' then
      match _h : closeQuote rest with
      | none => .error (.of .unterminatedString)
      | some (inside, rest') => (pieces depth rest').map (prepend (c :: inside))
    else if c = '(' then (pieces (depth + 1) rest).map (prepend [c])
    else if c = ')' then (pieces (depth - 1) rest).map (prepend [c])
    else if c = ',' && depth = 0 then (pieces depth rest).map ([] :: ·)
    else (pieces depth rest).map (prepend [c])
termination_by s => s.length
decreasing_by
  · have := length_closeQuote _h
    simp; omega
  all_goals simp

/-- The trimmed arguments of a statement; a blank text has none. -/
def split (s : List Char) : Except Fault (List (List Char)) :=
  if (trim s).isEmpty then .ok [] else (pieces 0 s).map (·.map trim)

end Pipeline.Arguments
