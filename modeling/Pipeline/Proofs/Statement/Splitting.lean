import Pipeline.Proofs.Statement.Reading
import Pipeline.Text.Separator

/-!
# Where arguments are cut

The commas that separate arguments are those outside of strings and of parentheses.  What lies between
two of them is a text in which every string and every parenthesis is closed, and which no comma divides;
the same is said of the text between a pair of parentheses, which no closing parenthesis divides.  So one
notion, `Undivided`, describes both.

* `pieces_eq_ok_iff` : the splitter cuts a text into such texts, from any depth on.
* `open_of_pieces`, `closed_of_pieces` : it refuses a text when a string or a parenthesis is left open,
  and only then.
* `Undivided.trim` : margins have no part in strings or parentheses.
* `split_cuts` : so arguments are cut at the commas of the top level, and cutting them again changes
  nothing.

A closing parenthesis with nothing open divides nothing here.
-/

namespace Pipeline.Arguments

open Text

/-! ### Texts with closed strings and parentheses -/

/-- A text in which all strings and all parentheses are closed, and which a character does not divide:
it stands in strings and in parentheses only. -/
inductive Undivided : (divider : Char) → List Char → Prop where
  | nil {divider : Char} : Undivided divider []
  | other {divider c : Char} {s : List Char} : c ≠ '"' → c ≠ '(' → c ≠ divider →
      Undivided divider s → Undivided divider (c :: s)
  | string {divider : Char} {inside s : List Char} : Inside inside → Undivided divider s →
      Undivided divider ('"' :: (inside ++ '"' :: s))
  | group {divider : Char} {inside s : List Char} : Undivided ')' inside → Undivided divider s →
      Undivided divider ('(' :: (inside ++ ')' :: s))

/-- A text behind which no string is open. -/
inductive Outside : List Char → Prop where
  | nil : Outside []
  | other {c : Char} {s : List Char} : c ≠ '"' → Outside s → Outside (c :: s)
  | string {inside s : List Char} : Inside inside → Outside s →
      Outside ('"' :: (inside ++ '"' :: s))

/-- Some string of a text is not closed. -/
def OpenString (s : List Char) : Prop :=
  ∃ before rest, s = before ++ '"' :: rest ∧ Outside before ∧
    ∀ inside after, Inside inside → rest ≠ inside ++ '"' :: after

/-- Some parenthesis of a text, outside of its strings, is never closed. -/
def OpenParenthesis (s : List Char) : Prop :=
  ∃ before rest, s = before ++ '(' :: rest ∧ Outside before ∧
    ∀ inside after, Undivided ')' inside → rest ≠ inside ++ ')' :: after

/-- The pieces of a text between its commas of the top level. -/
structure IsCut (s : List Char) (cut : List (List Char)) : Prop where
  ne_nil : cut ≠ []
  joined_eq : joined [','] cut = s
  undivided : ∀ piece ∈ cut, Undivided ',' piece

/-! ### One step of the splitter -/

/-- The character that divides a text at a depth of parentheses. -/
def dividerAt (depth : Nat) : Char :=
  if depth = 0 then ',' else ')'

theorem pieces_opening (depth : Nat) (rest : List Char) :
    pieces depth ('(' :: rest) = (pieces (depth + 1) rest).map (prepend ['(']) := by
  rw [pieces, if_neg (by decide), if_pos rfl]

theorem pieces_closing (depth : Nat) (rest : List Char) :
    pieces depth (')' :: rest) = (pieces (depth - 1) rest).map (prepend [')']) := by
  rw [pieces, if_neg (by decide), if_neg (by decide), if_pos rfl]

theorem pieces_dividing (rest : List Char) :
    pieces 0 (',' :: rest) = (pieces 0 rest).map ([] :: ·) := by
  rw [pieces, if_neg (by decide), if_neg (by decide), if_neg (by decide), if_pos (by decide)]

theorem pieces_quoted {inside : List Char} (h : Inside inside) (depth : Nat) (rest : List Char) :
    pieces depth ('"' :: (inside ++ '"' :: rest)) =
      (pieces depth rest).map (prepend ('"' :: (inside ++ ['"']))) := by
  have hclose := h.closeQuote_eq rest
  rw [pieces, if_pos rfl]
  split
  · next hnone =>
    rw [hclose] at hnone
    cases hnone
  · next hsome =>
    rw [hclose] at hsome
    cases hsome
    rfl

/-- A character that begins nothing and divides nothing stands for itself. -/
theorem pieces_other {depth : Nat} {c : Char} (hquote : c ≠ '"') (hopen : c ≠ '(')
    (hdivider : c ≠ dividerAt depth) (rest : List Char) :
    pieces depth (c :: rest) = (pieces depth rest).map (prepend [c]) := by
  rw [pieces, if_neg hquote, if_neg hopen]
  by_cases hzero : depth = 0
  · subst hzero
    have hcomma : c ≠ ',' := hdivider
    by_cases hclose : c = ')'
    · rw [if_pos hclose]
    · rw [if_neg hclose, if_neg (by simp [hcomma])]
  · have hclose : c ≠ ')' := by
      rwa [dividerAt, if_neg hzero] at hdivider
    rw [if_neg hclose, if_neg (by simp [hzero])]

/-! ### The pieces -/

/-- The pieces of a text that starts inside of some parentheses, which are closed one after the
other. -/
inductive CutsFrom : (depth : Nat) → List Char → List (List Char) → Prop where
  | last {piece : List Char} : Undivided ',' piece → CutsFrom 0 piece [piece]
  | comma {piece rest : List Char} {cut : List (List Char)} : Undivided ',' piece →
      CutsFrom 0 rest cut → CutsFrom 0 (piece ++ ',' :: rest) (piece :: cut)
  | closing {depth : Nat} {inside rest piece : List Char} {others : List (List Char)} :
      Undivided ')' inside → CutsFrom depth rest (piece :: others) →
      CutsFrom (depth + 1) (inside ++ ')' :: rest) ((inside ++ ')' :: piece) :: others)

/-- What can stand in front of an undivided text can stand in front of the first piece. -/
theorem CutsFrom.front {depth : Nat} {front s piece : List Char} {others : List (List Char)}
    (hfront : ∀ t, Undivided (dividerAt depth) t → Undivided (dividerAt depth) (front ++ t))
    (h : CutsFrom depth s (piece :: others)) :
    CutsFrom depth (front ++ s) ((front ++ piece) :: others) := by
  cases h with
  | last hpiece => exact .last (hfront _ hpiece)
  | comma hpiece hrest =>
    rw [← List.append_assoc]
    exact .comma (hfront _ hpiece) hrest
  | closing hinside hrest =>
    rw [← List.append_assoc, ← List.append_assoc]
    exact .closing (hfront _ hinside) hrest

theorem cutsFrom_of_pieces {depth : Nat} {s : List Char} {cut : List (List Char)}
    (h : pieces depth s = .ok cut) : ∃ piece others, cut = piece :: others ∧ CutsFrom depth s cut := by
  fun_induction pieces depth s generalizing cut with
  | case1 => cases h; exact ⟨[], [], rfl, .last .nil⟩
  | case2 => cases h
  | case3 => cases h
  | case4 depth s shut rest hclose ih =>
    obtain ⟨cut, hcut, rfl⟩ := exists_of_map_eq_ok h
    obtain ⟨piece, others, rfl, hcuts⟩ := ih hcut
    obtain ⟨inside, hinside, rfl, rfl⟩ := exists_inside_of_closeQuote hclose
    refine ⟨_, others, rfl, ?_⟩
    have hfront (t : List Char) (ht : Undivided (dividerAt depth) t) :
        Undivided (dividerAt depth) ('"' :: (inside ++ ['"']) ++ t) := by
      simpa using Undivided.string hinside ht
    simpa [prepend] using hcuts.front hfront
  | case5 depth rest _ ih =>
    obtain ⟨cut, hcut, rfl⟩ := exists_of_map_eq_ok h
    obtain ⟨piece, others, rfl, hcuts⟩ := ih hcut
    refine ⟨_, others, rfl, ?_⟩
    cases hcuts with
    | @closing _ inside rest piece _ hinside hrest =>
      have hfront (t : List Char) (ht : Undivided (dividerAt depth) t) :
          Undivided (dividerAt depth) ('(' :: (inside ++ [')']) ++ t) := by
        simpa using Undivided.group hinside ht
      simpa [prepend] using hrest.front hfront
  | case6 depth rest _ _ ih =>
    obtain ⟨cut, hcut, rfl⟩ := exists_of_map_eq_ok h
    obtain ⟨piece, others, rfl, hcuts⟩ := ih hcut
    refine ⟨_, others, rfl, ?_⟩
    cases depth with
    | zero =>
      have hfront (t : List Char) (ht : Undivided (dividerAt 0) t) :
          Undivided (dividerAt 0) ([')'] ++ t) := .other (by decide) (by decide) (by decide) ht
      exact hcuts.front hfront
    | succ depth => exact .closing .nil hcuts
  | case7 depth c rest _ _ _ hcomma ih =>
    obtain ⟨cut, hcut, rfl⟩ := exists_of_map_eq_ok h
    obtain ⟨piece, others, rfl, hcuts⟩ := ih hcut
    obtain ⟨rfl, rfl⟩ : c = ',' ∧ depth = 0 := by simpa using hcomma
    exact ⟨[], piece :: others, rfl, .comma .nil hcuts⟩
  | case8 depth c rest hquote hopen hclose hcomma ih =>
    obtain ⟨cut, hcut, rfl⟩ := exists_of_map_eq_ok h
    obtain ⟨piece, others, rfl, hcuts⟩ := ih hcut
    have hdivider : c ≠ dividerAt depth := by
      unfold dividerAt
      split
      · next hzero => exact fun hc => hcomma (by simp [hc, hzero])
      · exact hclose
    have hfront (t : List Char) (ht : Undivided (dividerAt depth) t) :
        Undivided (dividerAt depth) ([c] ++ t) := .other hquote hopen hdivider ht
    exact ⟨_, others, rfl, hcuts.front hfront⟩

/-- An undivided text in front goes into the first piece. -/
theorem Undivided.pieces_append {divider : Char} {s : List Char} (h : Undivided divider s)
    {depth : Nat} (hdivider : divider = dividerAt depth) {rest piece : List Char}
    {others : List (List Char)} (hrest : pieces depth rest = .ok (piece :: others)) :
    pieces depth (s ++ rest) = .ok ((s ++ piece) :: others) := by
  induction h generalizing depth rest piece others with
  | nil => exact hrest
  | other hquote hopen hne _ ih =>
    rw [List.cons_append, pieces_other hquote hopen (hdivider ▸ hne), ih hdivider hrest]
    rfl
  | @string divider inside s hinside _ ih =>
    have htext : '"' :: (inside ++ '"' :: s) ++ rest = '"' :: (inside ++ '"' :: (s ++ rest)) := by
      simp
    rw [htext, pieces_quoted hinside, ih hdivider hrest]
    simp [prepend, Except.map]
  | @group divider inside s _ _ ihinside ih =>
    have htext : '(' :: (inside ++ ')' :: s) ++ rest = '(' :: (inside ++ ')' :: (s ++ rest)) := by
      simp
    have hclosing : pieces (depth + 1) (')' :: (s ++ rest)) = .ok ((')' :: (s ++ piece)) :: others) := by
      rw [pieces_closing, Nat.add_sub_cancel, ih hdivider hrest]
      rfl
    rw [htext, pieces_opening, ihinside rfl hclosing]
    simp [prepend, Except.map]

theorem CutsFrom.pieces_eq {depth : Nat} {s : List Char} {cut : List (List Char)}
    (h : CutsFrom depth s cut) : pieces depth s = .ok cut := by
  induction h with
  | @last piece hpiece =>
    have hend : pieces 0 [] = .ok [[]] := by rw [pieces, if_pos rfl]
    have hpieces := hpiece.pieces_append rfl hend
    rwa [List.append_nil] at hpieces
  | @comma piece rest cut hpiece _ ih =>
    have hcomma : pieces 0 (',' :: rest) = .ok ([] :: cut) := by
      rw [pieces_dividing, ih]
      rfl
    have hpieces := hpiece.pieces_append rfl hcomma
    rwa [List.append_nil] at hpieces
  | @closing depth inside rest piece others hinside _ ih =>
    have hclosing : pieces (depth + 1) (')' :: rest) = .ok ((')' :: piece) :: others) := by
      rw [pieces_closing, Nat.add_sub_cancel, ih]
      rfl
    exact hinside.pieces_append rfl hclosing

/-- The splitter gives exactly the pieces of a text. -/
theorem pieces_eq_ok_iff {depth : Nat} {s : List Char} {cut : List (List Char)} :
    pieces depth s = .ok cut ↔ CutsFrom depth s cut := by
  constructor
  · intro h
    obtain ⟨piece, others, -, hcuts⟩ := cutsFrom_of_pieces h
    exact hcuts
  · exact CutsFrom.pieces_eq

theorem isCut_of_cutsFrom {s : List Char} {cut : List (List Char)} (h : CutsFrom 0 s cut) :
    IsCut s cut := by
  generalize hdepth : 0 = depth at h
  induction h with
  | last hpiece =>
    exact ⟨List.cons_ne_nil _ _, List.intercalate_singleton, List.forall_mem_singleton.2 hpiece⟩
  | @comma piece rest cut hpiece _ ih =>
    obtain ⟨hne, hjoined, hcut⟩ := ih hdepth
    obtain ⟨next, others, rfl⟩ := List.exists_cons_of_ne_nil hne
    refine ⟨List.cons_ne_nil _ _, ?_, List.forall_mem_cons.2 ⟨hpiece, hcut⟩⟩
    rw [joined, List.intercalate_cons_cons, ← hjoined, joined]
    simp
  | closing => cases hdepth

theorem IsCut.cutsFrom {s : List Char} {cut : List (List Char)} (h : IsCut s cut) :
    CutsFrom 0 s cut := by
  obtain ⟨hne, rfl, hcut⟩ := h
  induction cut with
  | nil => exact absurd rfl hne
  | cons piece cut ih =>
    obtain ⟨hpiece, hcut⟩ := List.forall_mem_cons.1 hcut
    cases cut with
    | nil =>
      rw [joined, List.intercalate_singleton]
      exact .last hpiece
    | cons next others =>
      rw [joined, List.intercalate_cons_cons, List.append_assoc]
      exact .comma hpiece (ih (List.cons_ne_nil _ _) hcut)

theorem pieces_eq_ok_iff_isCut {s : List Char} {cut : List (List Char)} :
    pieces 0 s = .ok cut ↔ IsCut s cut :=
  pieces_eq_ok_iff.trans ⟨isCut_of_cutsFrom, IsCut.cutsFrom⟩

/-! ### Texts that are refused -/

/-- Where the splitter finds no closing quote, there is none. -/
theorem ne_of_closeQuote_eq_none {s : List Char} (h : closeQuote s = none) (inside after : List Char)
    (hinside : Inside inside) : s ≠ inside ++ '"' :: after := by
  rintro rfl
  rw [hinside.closeQuote_eq] at h
  cases h

theorem Outside.append {s t : List Char} (hs : Outside s) (ht : Outside t) : Outside (s ++ t) := by
  induction hs with
  | nil => exact ht
  | other hquote _ ih => exact .other hquote ih
  | string hinside _ ih =>
    rw [List.cons_append, List.append_assoc]
    exact .string hinside ih

/-- No string is open behind an undivided text. -/
theorem Undivided.outside {divider : Char} {s : List Char} (h : Undivided divider s) : Outside s := by
  induction h with
  | nil => exact .nil
  | other hquote _ _ _ ih => exact .other hquote ih
  | string hinside _ ih => exact .string hinside ih
  | group _ _ ihinside ih => exact .other (by decide) (ihinside.append (.other (by decide) ih))

/-- A text has a string or a parenthesis that is left open. -/
def LeftOpen (s : List Char) : Prop :=
  OpenString s ∨ OpenParenthesis s

theorem LeftOpen.behind {front s : List Char} (hfront : Outside front) (h : LeftOpen s) :
    LeftOpen (front ++ s) := by
  rcases h with ⟨before, rest, rfl, hbefore, hrest⟩ | ⟨before, rest, rfl, hbefore, hrest⟩
  · exact .inl ⟨front ++ before, rest, (List.append_assoc ..).symm, hfront.append hbefore, hrest⟩
  · exact .inr ⟨front ++ before, rest, (List.append_assoc ..).symm, hfront.append hbefore, hrest⟩

/-- A text is refused only if a string or a parenthesis is left open. -/
theorem open_of_pieces {s : List Char} {fault : Fault} (h : pieces 0 s = .error fault) :
    LeftOpen s := by
  -- The induction is on the length, for behind a group the text goes on at the depth zero again.
  induction hlength : s.length using Nat.strong_induction_on generalizing s fault with
  | _ n ih =>
    have later {front rest : List Char} {fault : Fault} (hfront : Outside front) (hne : front ≠ [])
        (htext : front ++ rest = s) (hrest : pieces 0 rest = .error fault) : LeftOpen s := by
      have hshorter : rest.length < n := by
        have hpos := List.length_pos_iff.2 hne
        rw [← hlength, ← htext, List.length_append]
        omega
      rw [← htext]
      exact (ih _ hshorter hrest rfl).behind hfront
    cases s with
    | nil =>
      rw [pieces, if_pos rfl] at h
      cases h
    | cons c rest =>
      by_cases hquote : c = '"'
      · subst hquote
        cases hclose : closeQuote rest with
        | none => exact .inl ⟨[], rest, rfl, .nil, ne_of_closeQuote_eq_none hclose⟩
        | some r =>
          obtain ⟨shut, after⟩ := r
          obtain ⟨inside, hinside, rfl, rfl⟩ := exists_inside_of_closeQuote hclose
          rw [pieces_quoted hinside] at h
          exact later (.string hinside .nil) (List.cons_ne_nil _ _) (by simp) (eq_error_of_map h)
      by_cases hopen : c = '('
      · subst hopen
        rw [pieces_opening] at h
        by_cases hgroup : ∃ inside after, Undivided ')' inside ∧ rest = inside ++ ')' :: after
        · obtain ⟨inside, after, hinside, rfl⟩ := hgroup
          have hfront : Outside ('(' :: (inside ++ [')'])) :=
            .other (by decide) (hinside.outside.append (.other (by decide) .nil))
          cases hafter : pieces 0 after with
          | error other => exact later hfront (List.cons_ne_nil _ _) (by simp) hafter
          | ok cut =>
            obtain ⟨piece, others, rfl, hcuts⟩ := cutsFrom_of_pieces hafter
            rw [(CutsFrom.closing hinside hcuts).pieces_eq] at h
            cases h
        · refine .inr ⟨[], rest, rfl, .nil, fun inside after hinside hrest => ?_⟩
          exact hgroup ⟨inside, after, hinside, hrest⟩
      have hfront : Outside [c] := .other hquote .nil
      by_cases hcomma : c = ','
      · subst hcomma
        rw [pieces_dividing] at h
        exact later hfront (List.cons_ne_nil _ _) rfl (eq_error_of_map h)
      · have hdivider : c ≠ dividerAt 0 := hcomma
        rw [pieces_other hquote hopen hdivider] at h
        exact later hfront (List.cons_ne_nil _ _) rfl (eq_error_of_map h)

/-- A text that is not refused is cut to its end, from some depth on, behind any place outside of
strings. -/
theorem exists_pieces_behind {before s : List Char} (hbefore : Outside before) {depth : Nat}
    {cut : List (List Char)} (h : pieces depth (before ++ s) = .ok cut) :
    ∃ depth cut, pieces depth s = .ok cut := by
  induction hbefore generalizing depth cut with
  | nil => exact ⟨depth, cut, h⟩
  | other hquote _ ih =>
    rw [List.cons_append, pieces, if_neg hquote] at h
    split at h
    · obtain ⟨cut, hcut, -⟩ := exists_of_map_eq_ok h
      exact ih hcut
    split at h
    · obtain ⟨cut, hcut, -⟩ := exists_of_map_eq_ok h
      exact ih hcut
    split at h <;>
    · obtain ⟨cut, hcut, -⟩ := exists_of_map_eq_ok h
      exact ih hcut
  | string hinside _ ih =>
    rw [List.cons_append, List.append_assoc] at h
    obtain ⟨cut, hcut, -⟩ := exists_of_map_eq_ok ((pieces_quoted hinside depth _).symm.trans h)
    exact ih hcut

/-- In a text that is not refused no string and no parenthesis is left open. -/
theorem closed_of_pieces {depth : Nat} {s : List Char} {cut : List (List Char)}
    (h : pieces depth s = .ok cut) : ¬LeftOpen s := by
  rintro (⟨before, rest, rfl, hbefore, hrest⟩ | ⟨before, rest, rfl, hbefore, hrest⟩)
  · obtain ⟨depth, cut, hbehind⟩ := exists_pieces_behind hbefore h
    cases hclose : closeQuote rest with
    | none =>
      rw [pieces, if_pos rfl] at hbehind
      split at hbehind
      · cases hbehind
      · next hsome =>
        rw [hclose] at hsome
        cases hsome
    | some r =>
      obtain ⟨inside, hinside, -, htext⟩ := exists_inside_of_closeQuote hclose
      exact hrest inside _ hinside htext
  · obtain ⟨depth, cut, hbehind⟩ := exists_pieces_behind hbefore h
    rw [pieces_opening] at hbehind
    obtain ⟨cut, hcut, -⟩ := exists_of_map_eq_ok hbehind
    cases pieces_eq_ok_iff.1 hcut with
    | closing hinside _ => exact hrest _ _ hinside rfl

/-! ### Margins -/

/-- A blank that ends a text stands behind what closes a string or a group. -/
theorem exists_behind_of_blank {c close : Char} (hc : isBlank c = true) (hclose : isBlank close = false)
    {s front rest : List Char} (h : s ++ [c] = front ++ close :: rest) :
    ∃ inner, rest = inner ++ [c] ∧ s = front ++ close :: inner := by
  rcases rest.eq_nil_or_concat with rfl | ⟨inner, last, rfl⟩
  · obtain ⟨-, hlast⟩ := List.append_inj' h rfl
    cases hlast
    rw [hc] at hclose
    cases hclose
  · rw [List.concat_eq_append, ← List.cons_append, ← List.append_assoc] at h
    obtain ⟨hfront, hlast⟩ := List.append_inj' h rfl
    cases hlast
    exact ⟨inner, List.concat_eq_append, hfront⟩

namespace Undivided

variable {divider : Char} {s : List Char}

theorem tail {c : Char} (hc : isBlank c = true) (h : Undivided divider (c :: s)) :
    Undivided divider s := by
  cases h with
  | other _ _ _ hrest => exact hrest
  | string => exact absurd hc (by decide)
  | group => exact absurd hc (by decide)

/-- A blank at the end has no part in a string or in parentheses. -/
theorem init {c : Char} (hc : isBlank c = true) (h : Undivided divider (s ++ [c])) :
    Undivided divider s := by
  generalize htext : s ++ [c] = text at h
  induction h generalizing s with
  | nil => exact absurd htext (List.append_ne_nil_of_right_ne_nil s (List.cons_ne_nil c []))
  | other hquote hopen hdivider _ ih =>
    rcases List.append_eq_cons_iff.1 htext with ⟨rfl, -⟩ | ⟨s', rfl, rfl⟩
    · exact .nil
    · exact .other hquote hopen hdivider (ih rfl)
  | @string divider shut rest hshut _ ih =>
    have htext : s ++ [c] = ('"' :: shut) ++ '"' :: rest := htext
    obtain ⟨rest', rfl, rfl⟩ := exists_behind_of_blank hc (by decide) htext
    exact .string hshut (ih rfl)
  | @group divider shut rest hshut _ _ ih =>
    have htext : s ++ [c] = ('(' :: shut) ++ ')' :: rest := htext
    obtain ⟨rest', rfl, rfl⟩ := exists_behind_of_blank hc (by decide) htext
    exact .group hshut (ih rfl)

theorem of_front {front : List Char} (hfront : Blank front) (h : Undivided divider (front ++ s)) :
    Undivided divider s := by
  induction front with
  | nil => exact h
  | cons c front ih =>
    obtain ⟨hc, hfront⟩ := List.forall_mem_cons.1 hfront
    exact ih hfront (h.tail hc)

theorem of_back {back : List Char} (hback : Blank back) (h : Undivided divider (s ++ back)) :
    Undivided divider s := by
  induction back generalizing s with
  | nil => rwa [List.append_nil] at h
  | cons c back ih =>
    obtain ⟨hc, hback⟩ := List.forall_mem_cons.1 hback
    rw [← List.singleton_append, ← List.append_assoc] at h
    exact (ih hback h).init hc

/-- Trimming never takes a part of a string or of a group away. -/
theorem trim (h : Undivided divider s) : Undivided divider (trim s) := by
  rcases blank_or_exists_tight s with hblank | ⟨front, core, back, hfront, hcore, hback, rfl⟩
  · rw [trim_of_blank hblank]
    exact .nil
  · rw [hcore.trim_margins hfront hback]
    exact (h.of_front hfront).of_back hback

end Undivided

/-! ### Arguments -/

/-- What is left of a text by trimming is empty, or begins and ends with other characters. -/
theorem trim_eq_nil_or_tight (s : List Char) : trim s = [] ∧ Blank s ∨ Tight (trim s) := by
  rcases blank_or_exists_tight s with hblank | ⟨front, core, back, hfront, hcore, hback, rfl⟩
  · exact .inl ⟨trim_of_blank hblank, hblank⟩
  · rw [hcore.trim_margins hfront hback]
    exact .inr hcore

theorem trim_trim (s : List Char) : trim (trim s) = trim s := by
  rcases trim_eq_nil_or_tight s with ⟨hnil, -⟩ | htight
  · rw [hnil]
    rfl
  · exact htight.trim_eq

theorem trim_ne_nil {s : List Char} (h : ¬Blank s) : trim s ≠ [] := by
  rcases trim_eq_nil_or_tight s with ⟨-, hblank⟩ | htight
  · exact absurd hblank h
  · exact htight.ne_nil

/-- The arguments of a text that is not blank are its pieces without their margins. -/
theorem split_eq {s : List Char} (h : ¬Blank s) : split s = (pieces 0 s).map (·.map trim) := by
  rw [split, if_neg]
  rw [List.isEmpty_iff]
  exact trim_ne_nil h

/-- The texts that can be arguments: undivided, and without margins. -/
structure IsArgument (arg : List Char) : Prop where
  trim_eq : trim arg = arg
  undivided : Undivided ',' arg

theorem IsCut.isArgument {s : List Char} {cut : List (List Char)} (h : IsCut s cut) :
    ∀ arg ∈ cut.map trim, IsArgument arg := by
  intro arg harg
  obtain ⟨piece, hpiece, rfl⟩ := List.mem_map.1 harg
  exact ⟨trim_trim piece, (h.undivided piece hpiece).trim⟩

/-- Arguments that are joined by commas are blank only if there is one and it is empty. -/
theorem not_blank_joined {args : List (List Char)} (hne : args ≠ []) (hargs : args ≠ [[]])
    (h : ∀ arg ∈ args, IsArgument arg) : ¬Blank (joined [','] args) := by
  obtain ⟨arg, others, rfl⟩ := List.exists_cons_of_ne_nil hne
  cases others with
  | nil =>
    intro hblank
    rw [joined, List.intercalate_singleton] at hblank
    have htrim := (h arg List.mem_cons_self).trim_eq
    rw [trim_of_blank hblank] at htrim
    exact hargs (by rw [← htrim])
  | cons next others =>
    intro hblank
    rw [joined, List.intercalate_cons_cons] at hblank
    have hcomma := hblank ',' (by simp)
    exact absurd hcomma (by decide)

/-- Arguments that are joined by commas are found again. -/
theorem split_joined_of_isArgument {args : List (List Char)} (hne : args ≠ [])
    (hargs : args ≠ [[]]) (h : ∀ arg ∈ args, IsArgument arg) :
    split (joined [','] args) = .ok args := by
  have hcut : IsCut (joined [','] args) args := ⟨hne, rfl, fun arg harg => (h arg harg).undivided⟩
  have htrim : args.map trim = args := by
    rw [List.map_congr_left fun arg harg => (h arg harg).trim_eq, List.map_id']
  rw [split_eq (not_blank_joined hne hargs h), pieces_eq_ok_iff_isCut.2 hcut]
  exact congrArg Except.ok htrim

/-- So is one argument alone. -/
theorem IsArgument.split_eq {arg : List Char} (h : IsArgument arg) (hne : arg ≠ []) :
    split arg = .ok [arg] := by
  have hsplit := split_joined_of_isArgument (List.cons_ne_nil arg [])
    (fun heq => hne (List.cons.inj heq).1) (List.forall_mem_singleton.2 h)
  rwa [joined, List.intercalate_singleton] at hsplit

/-- A text that is not blank is not cut into one blank piece. -/
theorem IsCut.map_trim_ne {s : List Char} {cut : List (List Char)} (h : IsCut s cut)
    (hs : ¬Blank s) : cut.map trim ≠ [[]] := by
  intro heq
  obtain ⟨piece, rfl, htrim⟩ := List.map_eq_singleton_iff.1 heq
  have hjoined := h.joined_eq
  rw [joined, List.intercalate_singleton] at hjoined
  exact trim_ne_nil hs (hjoined ▸ htrim)

/-- **Arguments are cut at the commas of the top level.**  A text that is not blank is refused, as a
text, exactly if a string or a parenthesis is left open.  Otherwise there is one way to take it apart
at the commas outside of strings and parentheses, and its arguments are these pieces without their
margins; each of them that is not empty is cut into itself alone, and joined by commas they are found
again.  So are any texts without margins that are not empty and that no such comma divides. -/
theorem split_cuts :
    (∀ s, ¬Blank s →
      match split s with
      | .error fault =>
        fault.category? = some .lexical ∧ (OpenString s ∨ OpenParenthesis s)
      | .ok args =>
        ¬(OpenString s ∨ OpenParenthesis s) ∧
          (∃ cut, (∀ other, IsCut s other ↔ other = cut) ∧ args = cut.map trim) ∧
          (∀ arg ∈ args, arg ≠ [] → split arg = .ok [arg]) ∧
          split (joined [','] args) = .ok args) ∧
      ∀ args, args ≠ [] →
        (∀ arg ∈ args, arg ≠ [] ∧ trim arg = arg ∧ Undivided ',' arg) →
        split (joined [','] args) = .ok args := by
  refine ⟨fun s hs => ?_, fun args hne hargs => ?_⟩
  · cases hsplit : split s with
    | error fault =>
      rw [split_eq hs] at hsplit
      exact ⟨category?_of_pieces (eq_error_of_map hsplit), open_of_pieces (eq_error_of_map hsplit)⟩
    | ok args =>
      rw [split_eq hs] at hsplit
      obtain ⟨cut, hpieces, rfl⟩ := exists_of_map_eq_ok hsplit
      have hcut := pieces_eq_ok_iff_isCut.1 hpieces
      have hunique (other : List (List Char)) : IsCut s other ↔ other = cut := by
        rw [← pieces_eq_ok_iff_isCut, hpieces, Except.ok.injEq]
        exact eq_comm
      have hne : cut.map trim ≠ [] := fun heq => hcut.ne_nil (List.map_eq_nil_iff.1 heq)
      exact ⟨closed_of_pieces hpieces, ⟨cut, hunique, rfl⟩,
        fun arg harg => (hcut.isArgument arg harg).split_eq,
        split_joined_of_isArgument hne (hcut.map_trim_ne hs) hcut.isArgument⟩
  · refine split_joined_of_isArgument hne ?_ fun arg harg => ⟨(hargs arg harg).2.1, (hargs arg harg).2.2⟩
    rintro rfl
    exact (hargs [] List.mem_cons_self).1 rfl

/-- A comma in a string that stands in parentheses, blanks around the pieces, and a closing parenthesis
with nothing open. -/
theorem split_cuts_surplus_closing :
    let s := " a) , (\"x),\" + 1) ".toList
    let args := ["a)".toList, "(\"x),\" + 1)".toList]
    ¬Blank s ∧ split s = .ok args ∧ ¬(OpenString s ∨ OpenParenthesis s) ∧
      (∀ arg ∈ args, arg ≠ [] ∧ trim arg = arg ∧ Undivided ',' arg) ∧
      split (joined [','] args) = .ok args ∧ split "a)".toList = .ok ["a)".toList] := by
  intro s args
  have hs : ¬Blank s := fun hblank => absurd (hblank 'a' (by decide)) (by decide)
  have hsplit : split s = .ok args := by decide +kernel
  obtain ⟨hcuts, hjoined⟩ := split_cuts
  have hfirst := hcuts s hs
  rw [hsplit] at hfirst
  obtain ⟨hclosed, ⟨cut, hcut, hargs⟩, halone, -⟩ := hfirst
  have hall : ∀ arg ∈ args, arg ≠ [] ∧ trim arg = arg ∧ Undivided ',' arg := by
    intro arg harg
    have hne : ∀ arg ∈ args, arg ≠ [] := by decide
    have harg' := ((hcut cut).2 rfl).isArgument arg (hargs ▸ harg)
    exact ⟨hne arg harg, harg'.trim_eq, harg'.undivided⟩
  exact ⟨hs, hsplit, hclosed, hall, hjoined args (List.cons_ne_nil _ _) hall,
    halone _ List.mem_cons_self (by decide)⟩

end Pipeline.Arguments
