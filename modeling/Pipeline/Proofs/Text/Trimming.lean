import Mathlib.Data.List.Basic
import Mathlib.Data.List.TakeWhile
import Pipeline.Text.Blank

/-!
# Texts without blanks at their ends

Trimming leaves such texts as they are, whatever margins stand around them, and cutting the first word
off gives back the word and the text that were put together.  Reading a line that was written from its
parts rests on these facts.
-/

namespace Pipeline.Text

theorem dropWhile_eq_self {p : Char → Bool} {s : List Char} (h : ∀ c ∈ s.head?, p c = false) :
    s.dropWhile p = s := by
  cases s with
  | nil => rfl
  | cons c s =>
    have hc : ¬p c = true := by
      rw [h c rfl]
      exact Bool.false_ne_true
    exact List.dropWhile_cons_of_neg hc

/-- A run of characters of a class ends where the next character is not in the class. -/
theorem run_append {p : Char → Bool} {s rest : List Char} (h : ∀ c ∈ s, p c = true)
    (hrest : ∀ c ∈ rest.head?, p c = false) :
    (s ++ rest).takeWhile p = s ∧ (s ++ rest).dropWhile p = rest := by
  have hdrop : (s ++ rest).dropWhile p = rest := by
    rw [List.dropWhile_append_of_pos h, dropWhile_eq_self hrest]
  have hall : (s ++ rest).takeWhile p ++ (s ++ rest).dropWhile p = s ++ rest :=
    List.takeWhile_append_dropWhile
  rw [hdrop] at hall
  exact ⟨List.append_cancel_right hall, hdrop⟩

/-- The run of a class that starts a text is followed by no other character of the class. -/
theorem head?_dropWhile_eq_false (p : Char → Bool) (s : List Char) :
    ∀ c ∈ (s.dropWhile p).head?, p c = false := by
  intro c hc
  have hnot := List.head?_dropWhile_not p s
  rw [Option.mem_def.1 hc] at hnot
  exact hnot

/-- Every text begins with such a run, which may be empty. -/
theorem exists_run (p : Char → Bool) (s : List Char) : ∃ run rest, s = run ++ rest ∧
    (∀ c ∈ run, p c = true) ∧ ∀ c ∈ rest.head?, p c = false := by
  exact ⟨s.takeWhile p, s.dropWhile p, List.takeWhile_append_dropWhile.symm,
    fun c => List.mem_takeWhile_imp, head?_dropWhile_eq_false p s⟩

/-- A text that begins and ends with characters which are not blank. -/
structure Tight (s : List Char) : Prop where
  ne_nil : s ≠ []
  head : ∀ c ∈ s.head?, isBlank c = false
  last : ∀ c ∈ s.getLast?, isBlank c = false

namespace Tight

variable {s t : List Char}

theorem of_forall (hne : s ≠ []) (h : ∀ c ∈ s, isBlank c = false) : Tight s :=
  ⟨hne, fun c hc => h c (List.mem_of_mem_head? hc), fun c hc => h c (List.mem_of_mem_getLast? hc)⟩

theorem singleton {c : Char} (h : isBlank c = false) : Tight [c] :=
  .of_forall (List.cons_ne_nil c []) (List.forall_mem_singleton.2 h)

/-- What stands between two texts does not matter for the ends. -/
theorem around (hs : Tight s) (between : List Char) (ht : Tight t) :
    Tight (s ++ (between ++ t)) := by
  obtain ⟨c, s, rfl⟩ := List.exists_cons_of_ne_nil hs.ne_nil
  refine ⟨List.cons_ne_nil _ _, hs.head, ?_⟩
  intro d hd
  rw [← List.append_assoc, List.getLast?_append_of_ne_nil _ ht.ne_nil] at hd
  exact ht.last d hd

theorem trim_eq (h : Tight s) : trim s = s := by
  have hback : ∀ c ∈ s.reverse.head?, isBlank c = false := by
    rw [List.head?_reverse]
    exact h.last
  rw [trim, trimWith, dropWhile_eq_self h.head, dropWhile_eq_self hback, List.reverse_reverse]

end Tight

/-! ### Margins -/

/-- A text of blanks only. -/
abbrev Blank (s : List Char) : Prop :=
  ∀ c ∈ s, isBlank c = true

section Margins

variable {front core back : List Char}

theorem trim_of_blank {s : List Char} (h : Blank s) : trim s = [] := by
  have hrun := run_append h (fun c (hc : c ∈ [].head?) => nomatch hc)
  rw [List.append_nil] at hrun
  rw [trim, trimWith, hrun.2]
  rfl

/-- What stands between two margins is left. -/
theorem Tight.trim_margins (hcore : Tight core) (hfront : Blank front) (hback : Blank back) :
    trim (front ++ (core ++ back)) = core := by
  have hhead : ∀ c ∈ (core ++ back).head?, isBlank c = false := by
    rw [List.head?_append_of_ne_nil core hcore.ne_nil]
    exact hcore.head
  have hlast : ∀ c ∈ core.reverse.head?, isBlank c = false := by
    rw [List.head?_reverse]
    exact hcore.last
  have hrback : Blank back.reverse := fun c hc => hback c (List.mem_reverse.1 hc)
  rw [trim, trimWith, (run_append hfront hhead).2, List.reverse_append,
    (run_append hrback hlast).2, List.reverse_reverse]

/-- A blank behind a text is trimmed away. -/
theorem Tight.trim_append_blank (h : Tight core) : trim (core ++ [' ']) = core :=
  @Tight.trim_margins [] core [' '] h (fun _ hmem => nomatch hmem)
    (List.forall_mem_singleton.2 (by decide))

/-- A text is blank, or it has a part that begins and ends with other characters, between two
margins. -/
theorem blank_or_exists_tight (s : List Char) :
    Blank s ∨ ∃ front core back, Blank front ∧ Tight core ∧ Blank back ∧
      s = front ++ (core ++ back) := by
  obtain ⟨front, rest, rfl, hfront, hrest⟩ := exists_run isBlank s
  rcases rest with _ | ⟨c, rest⟩
  · rw [List.append_nil]
    exact .inl hfront
  obtain ⟨back, core, hsplit, hback, hcore⟩ := exists_run isBlank (c :: rest).reverse
  have hwhole : c :: rest = core.reverse ++ back.reverse := by
    rw [← List.reverse_append, ← hsplit, List.reverse_reverse]
  have hrback : Blank back.reverse := fun d hd => hback d (List.mem_reverse.1 hd)
  refine .inr ⟨front, core.reverse, back.reverse, hfront, ?_, hrback, by rw [hwhole]⟩
  have hc : isBlank c = false := hrest c rfl
  have hne : core.reverse ≠ [] := by
    intro hnil
    rw [hnil, List.nil_append] at hwhole
    have hblank := hrback c (hwhole ▸ List.mem_cons_self)
    rw [hc] at hblank
    cases hblank
  refine ⟨hne, fun d hd => hrest d ?_, fun d hd => hcore d ?_⟩
  · rwa [hwhole, List.head?_append_of_ne_nil _ hne]
  · rwa [List.getLast?_reverse] at hd

/-- Margins are trimmed away. -/
theorem trim_margins (hfront : Blank front) (core : List Char) (hback : Blank back) :
    trim (front ++ (core ++ back)) = trim core := by
  rcases blank_or_exists_tight core with hcore | ⟨front', inner, back', hfront', hinner, hback', rfl⟩
  · rw [trim_of_blank hcore]
    exact trim_of_blank (List.forall_mem_append.2 ⟨hfront, List.forall_mem_append.2 ⟨hcore, hback⟩⟩)
  · have hwhole : front ++ (front' ++ (inner ++ back') ++ back) =
        (front ++ front') ++ (inner ++ (back' ++ back)) := by
      simp only [List.append_assoc]
    rw [hinner.trim_margins hfront' hback', hwhole]
    exact hinner.trim_margins (List.forall_mem_append.2 ⟨hfront, hfront'⟩)
      (List.forall_mem_append.2 ⟨hback', hback⟩)

end Margins

/-! ### Words -/

/-- A word: it is not empty and has no blanks. -/
structure IsWord (s : List Char) : Prop where
  ne_nil : s ≠ []
  not_blank : ∀ c ∈ s, isBlank c = false

namespace IsWord

instance (s : List Char) : Decidable (IsWord s) :=
  decidable_of_iff (s ≠ [] ∧ s.all (!isBlank ·) = true) <| by
    simp only [List.all_eq_true, Bool.not_eq_true']
    exact ⟨fun ⟨hne, h⟩ => ⟨hne, h⟩, fun ⟨hne, h⟩ => ⟨hne, h⟩⟩

variable {word text : List Char}

theorem tight (h : IsWord word) : Tight word :=
  .of_forall h.ne_nil h.not_blank

theorem newline_not_mem (h : IsWord word) : '\n' ∉ word := by
  intro hmem
  have hblank := h.not_blank '\n' hmem
  revert hblank
  decide

theorem cutWord_eq (h : IsWord word) : cutWord word = (word, []) := by
  have hword : ∀ c ∈ word, (!isBlank c) = true := by
    intro c hc
    rw [h.not_blank c hc, Bool.not_false]
  have hrun := run_append hword (fun c (hc : c ∈ [].head?) => nomatch hc)
  rw [List.append_nil] at hrun
  rw [cutWord, hrun.1, hrun.2, List.dropWhile_nil]

/-- A word is cut off whatever blanks stand behind it. -/
theorem cutWord_append_gap (h : IsWord word) {gap : List Char} (hgap : Blank gap) (hne : gap ≠ [])
    (htext : Tight text) : cutWord (word ++ (gap ++ text)) = (word, text) := by
  have hword : ∀ c ∈ word, (!isBlank c) = true := by
    intro c hc
    rw [h.not_blank c hc, Bool.not_false]
  have hstop : ∀ c ∈ (gap ++ text).head?, (!isBlank c) = false := by
    intro c hc
    rw [List.head?_append_of_ne_nil gap hne] at hc
    rw [hgap c (List.mem_of_mem_head? hc), Bool.not_true]
  obtain ⟨htake, hdrop⟩ := run_append hword hstop
  rw [cutWord, htake, hdrop, (run_append hgap htext.head).2]

theorem cutWord_append (h : IsWord word) (htext : Tight text) :
    cutWord (word ++ ' ' :: text) = (word, text) :=
  h.cutWord_append_gap (List.forall_mem_singleton.2 (by decide)) (List.cons_ne_nil ' ' []) htext

end IsWord

end Pipeline.Text
