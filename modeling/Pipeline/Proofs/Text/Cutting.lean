import Mathlib.Data.List.Basic
import Mathlib.Data.List.Infix
import Pipeline.Text.Separator

/-!
# Cutting and joining

A text is cut at the leftmost occurrences of a separator that do not overlap: the first cut is made where
the separator occurs first, and what stands behind that occurrence is cut in the same way.  Occurrences
can overlap, so which of them are cut depends on where the search starts, and the pieces are described
from the front on.

* `LeftmostCut` : the pieces of such a cut.
* `LeftmostCut.joined_eq` : putting the separator back gives the text.
* `LeftmostCut.not_infix` : no piece has an occurrence in it.
* `cut_eq_iff` : cutting gives these pieces, and there is only one such cut.
-/

namespace Pipeline.Text

/-- A separator occurs in a text behind its first `i` characters. -/
def OccursAt (separator s : List Char) (i : Nat) : Prop :=
  separator <+: s.drop i

/-- The pieces of a text between the leftmost occurrences of a separator that do not overlap. -/
inductive LeftmostCut (separator : List Char) : List Char → List (List Char) → Prop where
  /-- The separator does not occur. -/
  | last {s : List Char} : (∀ i, ¬OccursAt separator s i) → LeftmostCut separator s [s]
  /-- The separator occurs behind the piece and nowhere before. -/
  | next {piece rest : List Char} {pieces : List (List Char)} :
      (∀ i < piece.length, ¬OccursAt separator (piece ++ (separator ++ rest)) i) →
      LeftmostCut separator rest pieces →
      LeftmostCut separator (piece ++ (separator ++ rest)) (piece :: pieces)

variable {separator s : List Char} {pieces : List (List Char)}

/-! ### Occurrences -/

theorem occursAt_behind (piece separator rest : List Char) :
    OccursAt separator (piece ++ (separator ++ rest)) piece.length := by
  rw [OccursAt, List.drop_left]
  exact List.prefix_append separator rest

theorem not_occursAt_nil (hseparator : separator ≠ []) (i : Nat) : ¬OccursAt separator [] i := by
  rw [OccursAt, List.drop_nil, List.prefix_nil]
  exact hseparator

/-- A separator that is part of a text occurs somewhere in it, where enough characters are left. -/
theorem exists_occursAt_of_infix (h : separator <:+: s) :
    ∃ i, i + separator.length ≤ s.length ∧ OccursAt separator s i := by
  obtain ⟨front, back, rfl⟩ := h
  refine ⟨front.length, ?_, ?_⟩
  · rw [List.length_append, List.length_append]
    exact Nat.le_add_right _ _
  · rw [List.append_assoc]
    exact occursAt_behind front separator back

/-- What occurs in the front of a text occurs in the text. -/
theorem OccursAt.append {i : Nat} (h : OccursAt separator s i) (back : List Char) :
    OccursAt separator (s ++ back) i := by
  rw [OccursAt, List.drop_append]
  exact h.trans (List.prefix_append _ _)

/-! ### The pieces -/

namespace LeftmostCut

theorem ne_nil (h : LeftmostCut separator s pieces) : pieces ≠ [] := by
  cases h <;> exact List.cons_ne_nil _ _

/-- The separator between each two of the pieces gives the text back. -/
theorem joined_eq (h : LeftmostCut separator s pieces) : joined separator pieces = s := by
  induction h with
  | last => exact List.intercalate_singleton
  | @next piece rest pieces _ hrest ih =>
    obtain ⟨second, others, rfl⟩ := List.exists_cons_of_ne_nil hrest.ne_nil
    rw [joined, List.intercalate_cons_cons, ← joined, ih, List.append_assoc]

/-- The separator is not part of any piece. -/
theorem not_infix (hseparator : separator ≠ []) (h : LeftmostCut separator s pieces) :
    ∀ piece ∈ pieces, ¬separator <:+: piece := by
  have hlength : 0 < separator.length := List.length_pos_iff.2 hseparator
  induction h with
  | last hnot =>
    refine List.forall_mem_singleton.2 fun hinfix => ?_
    obtain ⟨i, -, hoccurs⟩ := exists_occursAt_of_infix hinfix
    exact hnot i hoccurs
  | @next piece rest pieces hnot _ ih =>
    refine List.forall_mem_cons.2 ⟨fun hinfix => ?_, ih⟩
    obtain ⟨i, hi, hoccurs⟩ := exists_occursAt_of_infix hinfix
    exact hnot i (by omega) (hoccurs.append _)

/-- A text is cut in one way only: the first cut is at the least place where the separator occurs. -/
theorem unique {pieces' : List (List Char)} (h : LeftmostCut separator s pieces)
    (h' : LeftmostCut separator s pieces') : pieces = pieces' := by
  induction h generalizing pieces' with
  | last hnot =>
    cases h' with
    | last => rfl
    | next _ _ => exact absurd (occursAt_behind _ _ _) (hnot _)
  | @next piece rest pieces hnot hrest ih =>
    generalize hs : piece ++ (separator ++ rest) = s at h'
    cases h' with
    | last hnot' => exact absurd (hs ▸ occursAt_behind piece separator rest) (hnot' _)
    | @next piece' rest' pieces' hnot' hrest' =>
      have hle : piece'.length ≤ piece.length := Nat.not_lt.1 fun hlt =>
        hnot' _ hlt (hs ▸ occursAt_behind piece separator rest)
      have hge : piece.length ≤ piece'.length := Nat.not_lt.1 fun hlt =>
        hnot _ hlt (hs ▸ occursAt_behind piece' separator rest')
      obtain ⟨rfl, hbehind⟩ := List.append_inj hs (Nat.le_antisymm hge hle)
      obtain rfl := List.append_cancel_left hbehind
      rw [ih hrest']

/-- A character where the separator does not begin goes to the first piece. -/
theorem cons {c : Char} (hc : ¬separator <+: c :: s) (h : LeftmostCut separator s pieces) :
    LeftmostCut separator (c :: s) (consPiece c pieces) := by
  have hnot {n : Nat} (hs : ∀ i < n, ¬OccursAt separator s i) :
      ∀ i < n + 1, ¬OccursAt separator (c :: s) i := by
    intro i hi
    cases i with
    | zero => exact hc
    | succ i => exact hs i (Nat.lt_of_succ_lt_succ hi)
  cases h with
  | last hs => exact .last fun i => hnot (fun j _ => hs j) i (Nat.lt_succ_self i)
  | @next piece rest pieces hs hrest =>
    rw [← List.cons_append] at hnot ⊢
    exact .next (hnot hs) hrest

end LeftmostCut

/-! ### Cutting -/

/-- Cutting behind an occurrence already seen is cutting what is left. -/
theorem leftmostCut_cutFrom (hseparator : separator ≠ []) (skip : Nat) (s : List Char) :
    LeftmostCut separator (s.drop skip) (cutFrom separator skip s) := by
  fun_induction cutFrom separator skip s with
  | case1 skip =>
    rw [List.drop_nil]
    exact .last (not_occursAt_nil hseparator)
  | case2 skip c rest ih => exact ih
  | case3 c rest hoccurs ih =>
    obtain ⟨back, hback⟩ := List.isPrefixOf_iff_prefix.1 hoccurs
    obtain ⟨d, tail, rfl⟩ := List.exists_cons_of_ne_nil hseparator
    have hrest : rest = tail ++ back := (List.cons.inj hback).2.symm
    rw [List.length_cons, Nat.add_sub_cancel, hrest, List.drop_left] at ih
    rw [List.length_cons, Nat.add_sub_cancel, List.drop_zero, ← hback, hrest]
    exact @LeftmostCut.next _ [] back _ (fun i hi => nomatch hi) ih
  | case4 c rest hoccurs ih =>
    exact LeftmostCut.cons (fun hprefix => hoccurs (List.isPrefixOf_iff_prefix.2 hprefix)) ih

/-- **The pieces of a text.**  At a separator that is not empty, a text is cut into exactly the pieces
between its leftmost occurrences that do not overlap. -/
theorem cut_eq_iff (hseparator : separator ≠ []) :
    cut separator s = pieces ↔ LeftmostCut separator s pieces := by
  have hcut : LeftmostCut separator s (cut separator s) := by
    rw [cut, if_neg (by simpa using hseparator)]
    exact leftmostCut_cutFrom hseparator 0 s
  exact ⟨fun h => h ▸ hcut, fun h => hcut.unique h⟩

/-- An empty separator cuts between each two characters. -/
theorem cut_nil (s : List Char) : cut [] s = s.map fun c => [c] := rfl

theorem joined_nil (pieces : List (List Char)) : joined [] pieces = pieces.flatten := by
  induction pieces with
  | nil => rfl
  | cons piece pieces ih =>
    cases pieces with
    | nil => rw [joined, List.intercalate_singleton, List.flatten_singleton]
    | cons second others =>
      rw [joined, List.intercalate_cons_cons, ← joined, ih, List.append_nil]
      rfl

/-- Joining undoes cutting. -/
theorem joined_cut (separator s : List Char) : joined separator (cut separator s) = s := by
  rcases eq_or_ne separator [] with rfl | hseparator
  · rw [cut_nil, joined_nil, ← List.flatMap_def, List.flatMap_singleton']
  · exact ((cut_eq_iff hseparator).1 rfl).joined_eq

end Pipeline.Text
