import Mathlib.Data.List.Forall2
import Mathlib.Data.List.Infix
import Pipeline.Proofs.Text.Trimming
import Pipeline.Text.LineEnd

/-!
# Two ways into the program

A text comes from a file as it is, or from the standard input, where line ends are unified on the way.
Unified line ends make no difference but for blanks at the ends of lines, as long as every carriage
return stands in front of a line feed; alone it would begin a line on one of the two ways only.

* `forall₂_lines_unify` : the lines of the two ways agree up to blanks behind them.
-/

namespace Pipeline.Text

/-! ### Line ends -/

/-- Every carriage return stands in front of a line feed. -/
def PairedReturns (s : List Char) : Prop :=
  ∀ before after, s = before ++ '\r' :: after → after.head? = some '\n'

instance (s : List Char) : Decidable (PairedReturns s) :=
  decidable_of_iff (∀ rest ∈ s.tails, rest.head? = some '\r' → rest.tail.head? = some '\n') <| by
    constructor
    · intro h before after hs
      exact h ('\r' :: after) ((List.mem_tails _ _).2 ⟨before, hs.symm⟩) rfl
    · intro h rest hrest hhead
      obtain ⟨before, rfl⟩ := (List.mem_tails _ _).1 hrest
      obtain ⟨after, rfl⟩ := List.head?_eq_some_iff.1 hhead
      exact h before after rfl

theorem PairedReturns.tail {c : Char} {s : List Char} (h : PairedReturns (c :: s)) :
    PairedReturns s := by
  rintro before after rfl
  exact h (c :: before) after rfl

/-- A line with blanks behind it. -/
def Trails (line line' : List Char) : Prop :=
  ∃ back, Blank back ∧ line = line' ++ back

theorem lines_newline (s : List Char) : lines ('\n' :: s) = [] :: lines s := by
  rw [lines, List.splitOn_cons_eq_if_modifyHead]
  rfl

theorem lines_cons {c : Char} (h : c ≠ '\n') (s : List Char) :
    lines (c :: s) = (lines s).modifyHead (c :: ·) := by
  rw [lines, List.splitOn_cons_eq_if_modifyHead, if_neg (by simp [h])]
  rfl

theorem forall₂_modifyHead (c : Char) {given given' : List (List Char)}
    (h : List.Forall₂ Trails given given') :
    List.Forall₂ Trails (given.modifyHead (c :: ·)) (given'.modifyHead (c :: ·)) := by
  cases h with
  | nil => exact .nil
  | cons hline hrest =>
    obtain ⟨back, hback, rfl⟩ := hline
    exact .cons ⟨back, hback, rfl⟩ hrest

/-- With unified line ends a text has the same lines, but for blanks behind them. -/
theorem forall₂_lines_unify {s : List Char} (h : PairedReturns s) :
    List.Forall₂ Trails (lines s) (lines (unifyLineEnds s)) := by
  have hreturn : Blank ['\r'] := List.forall_mem_singleton.2 (by decide)
  fun_induction unifyLineEnds s with
  | case1 => exact .cons ⟨[], List.forall_mem_nil _, rfl⟩ .nil
  | case2 rest ih =>
    rw [lines_cons (by decide), lines_newline, lines_newline]
    exact .cons ⟨['\r'], hreturn, rfl⟩ (ih h.tail.tail)
  | case3 c rest hpair ih =>
    have hc : c ≠ '\r' := by
      rintro rfl
      have hnext := h [] rest rfl
      cases rest with
      | nil => cases hnext
      | cons d rest =>
        obtain rfl := Option.some.inj hnext
        exact hpair rest rfl rfl
    rw [if_neg hc]
    by_cases hline : c = '\n'
    · rw [hline, lines_newline, lines_newline]
      exact .cons ⟨[], List.forall_mem_nil _, rfl⟩ (ih h.tail)
    · rw [lines_cons hline, lines_cons hline]
      exact forall₂_modifyHead c (ih h.tail)

end Pipeline.Text
