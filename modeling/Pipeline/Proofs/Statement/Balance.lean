import Pipeline.Proofs.Expr.Printing
import Pipeline.Proofs.Statement.Reading

/-!
# Quotes and parentheses

Three readers look at the quotes and the parentheses of an argument.  The splitter goes through the
whole text and counts open parentheses, the lexer goes through one argument and decodes its strings,
and the pass that orders the tokens comes from the right with a stack.  They never disagree:

* `readString_of_closeQuote` : a string has one end, for the splitter and for the lexer.
* `closes_of_pieces`, `Closes.trim` : in every argument all strings and all parentheses are closed.
* `closed_of_scan` : so the lexer finds an end for every string, and tokens in which all parentheses are
  closed.
* `waiting_of_pass` : and the pass finds a group for every parenthesis that it ends.
* `readers_agree` : the readers agree on every text.

A closing parenthesis with nothing open is no concern of the splitter, so nothing is said about it.
-/

namespace Pipeline

open Text

/-! ### The end of a string -/

namespace Arguments

/-- The characters up to the closing quote are the same, whatever stands behind it. -/
theorem closeQuote_inside {s inside rest : List Char} (h : closeQuote s = some (inside, rest))
    (tail : List Char) : closeQuote (inside ++ tail) = some (inside, tail) := by
  obtain ⟨front, hfront, rfl, -⟩ := exists_inside_of_closeQuote h
  rw [List.append_assoc]
  exact hfront.closeQuote_eq tail

/-- The last of these characters is the closing quote. -/
theorem exists_of_closeQuote {s inside rest : List Char} (h : closeQuote s = some (inside, rest)) :
    ∃ front, inside = front ++ ['"'] := by
  obtain ⟨front, -, rfl, -⟩ := exists_inside_of_closeQuote h
  exact ⟨front, rfl⟩

end Arguments

namespace Token

open Arguments

variable {policy : EscapePolicy} {s : List Char}

theorem escaped?_ne_none (h : policy ≠ .reject) (c : Char) : escaped? policy c ≠ none := by
  cases policy with
  | reject => exact absurd rfl h
  | keep => unfold escaped?; split <;> simp_all
  | drop => unfold escaped?; split <;> simp_all

/-- The lexer ends a string where the splitter does, unless it refuses one of its escapes. -/
theorem readString_of_closeQuote {inside rest : List Char} (h : closeQuote s = some (inside, rest))
    (policy : EscapePolicy) :
    (∃ text, readString policy s = .ok (text, rest)) ∨
      policy = .reject ∧ ∃ c, readString policy s = .error (.of (.unknownEscape c)) := by
  fun_induction closeQuote s generalizing inside rest with
  | case1 => cases h
  | case2 => cases h
  | case3 c s ih =>
    obtain ⟨⟨inside, rest⟩, hr, heq⟩ := Option.map_eq_some_iff.1 h
    cases heq
    rw [readString]
    cases hescaped : escaped? policy c with
    | none =>
      refine .inr ⟨?_, c, rfl⟩
      by_contra hpolicy
      exact escaped?_ne_none hpolicy c hescaped
    | some meant =>
      rcases ih hr with ⟨text, htext⟩ | ⟨hpolicy, d, hfault⟩
      · exact .inl ⟨meant ++ text, by simp only [htext, Except.map]⟩
      · exact .inr ⟨hpolicy, d, by simp only [hfault, Except.map]⟩
  | case4 s => cases h; exact .inl ⟨[], rfl⟩
  | case5 c s hdangling hescape hquote ih =>
    obtain ⟨⟨inside, rest⟩, hr, heq⟩ := Option.map_eq_some_iff.1 h
    cases heq
    rw [readString, if_neg hquote]
    · rcases ih hr with ⟨text, htext⟩ | ⟨hpolicy, d, hfault⟩
      · exact .inl ⟨c :: text, by simp only [htext, Except.map]⟩
      · exact .inr ⟨hpolicy, d, by simp only [hfault, Except.map]⟩
    · exact hdangling
    · exact hescape

/-- A string that the splitter finds no end for has none for the lexer. -/
theorem readString_of_closeQuote_eq_none (h : closeQuote s = none) (policy : EscapePolicy) :
    ∃ fault, readString policy s = .error fault := by
  fun_induction closeQuote s with
  | case1 => exact ⟨_, rfl⟩
  | case2 => exact ⟨_, rfl⟩
  | case3 c s ih =>
    rw [readString]
    cases escaped? policy c with
    | none => exact ⟨_, rfl⟩
    | some meant =>
      obtain ⟨fault, hfault⟩ := ih (Option.map_eq_none_iff.1 h)
      exact ⟨fault, by simp only [hfault, Except.map]⟩
  | case4 s => cases h
  | case5 c s hdangling hescape hquote ih =>
    obtain ⟨fault, hfault⟩ := ih (Option.map_eq_none_iff.1 h)
    refine ⟨fault, ?_⟩
    rw [readString, if_neg hquote, hfault]
    · rfl
    · exact hdangling
    · exact hescape

end Token

section Positions

open Arguments

variable (policy : EscapePolicy) (s : List Char) (start : Nat)

/-- The position of the quote that closes a string, whose opening quote is at a position. -/
def Arguments.closingQuote : Option Nat :=
  (closeQuote (s.drop (start + 1))).map fun r => start + r.1.length

/-- The position behind a string, whose opening quote is at a position. -/
def Token.stringEnd : Except Fault Nat :=
  (Token.readString policy (s.drop (start + 1))).map fun r => s.length - r.2.length

variable {s start} {inside rest : List Char}

/-- What follows a string starts behind its closing quote. -/
theorem length_sub_of_closeQuote (h : closeQuote (s.drop (start + 1)) = some (inside, rest)) :
    s.length - rest.length = start + inside.length + 1 := by
  obtain ⟨front, rfl⟩ := exists_of_closeQuote h
  have hlength := congrArg List.length (closeQuote_append h)
  simp only [List.length_append, List.length_singleton, List.length_drop] at hlength ⊢
  omega

variable {policy}

theorem closingQuote_eq_some_iff (h : policy ≠ .reject) (e : Nat) :
    closingQuote s start = some e ↔ Token.stringEnd policy s start = .ok (e + 1) := by
  unfold closingQuote Token.stringEnd
  cases hclose : closeQuote (s.drop (start + 1)) with
  | none =>
    obtain ⟨fault, hfault⟩ := Token.readString_of_closeQuote_eq_none hclose policy
    simp [hfault, Except.map]
  | some r =>
    obtain ⟨inside, rest⟩ := r
    have hlength := length_sub_of_closeQuote hclose
    rcases Token.readString_of_closeQuote hclose policy with ⟨text, htext⟩ | ⟨hpolicy, -⟩
    · simp only [htext, Except.map, hlength, Option.map_some, Option.some.injEq, Except.ok.injEq]
      omega
    · exact absurd hpolicy h

theorem stringEnd_reject {e : Nat} (h : closingQuote s start = some e) :
    Token.stringEnd .reject s start = .ok (e + 1) ∨
      ∃ c, Token.stringEnd .reject s start = .error (.of (.unknownEscape c)) := by
  obtain ⟨⟨inside, rest⟩, hclose, rfl⟩ := Option.map_eq_some_iff.1 h
  have hlength := length_sub_of_closeQuote hclose
  unfold Token.stringEnd
  rcases Token.readString_of_closeQuote hclose .reject with ⟨text, htext⟩ | ⟨-, c, hfault⟩
  · exact .inl (by simp only [htext, Except.map, hlength])
  · exact .inr ⟨c, by simp only [hfault, Except.map]⟩

end Positions

/-! ### Closed texts -/

namespace Arguments

/-- From inside of some parentheses on, all strings and all parentheses of a text are closed.  A
closing parenthesis stands for itself where nothing is open. -/
inductive Closes : (depth : Nat) → List Char → Prop where
  | nil : Closes 0 []
  | string {depth : Nat} {s inside rest : List Char} :
      closeQuote s = some (inside, rest) → Closes depth rest → Closes depth ('"' :: s)
  | opening {depth : Nat} {rest : List Char} : Closes (depth + 1) rest → Closes depth ('(' :: rest)
  | closing {depth : Nat} {rest : List Char} : Closes (depth - 1) rest → Closes depth (')' :: rest)
  | other {depth : Nat} {c : Char} {rest : List Char} : c ≠ '"' → c ≠ '(' → c ≠ ')' →
      Closes depth rest → Closes depth (c :: rest)

/-- All pieces are closed, the first one from the depth on at which the text starts. -/
theorem closes_of_pieces {depth : Nat} {s : List Char} {cut : List (List Char)}
    (h : pieces depth s = .ok cut) :
    ∃ piece others, cut = piece :: others ∧ Closes depth piece ∧ ∀ p ∈ others, Closes 0 p := by
  fun_induction pieces depth s generalizing cut with
  | case1 => cases h; exact ⟨[], [], rfl, .nil, List.forall_mem_nil _⟩
  | case2 => cases h
  | case3 => cases h
  | case4 depth rest inside rest' hclose ih =>
    obtain ⟨others, hothers, rfl⟩ := exists_of_map_eq_ok h
    obtain ⟨piece, others, rfl, hpiece, hall⟩ := ih hothers
    exact ⟨_, others, rfl, .string (closeQuote_inside hclose piece) hpiece, hall⟩
  | case5 depth rest _ ih =>
    obtain ⟨others, hothers, rfl⟩ := exists_of_map_eq_ok h
    obtain ⟨piece, others, rfl, hpiece, hall⟩ := ih hothers
    exact ⟨_, others, rfl, .opening hpiece, hall⟩
  | case6 depth rest _ _ ih =>
    obtain ⟨others, hothers, rfl⟩ := exists_of_map_eq_ok h
    obtain ⟨piece, others, rfl, hpiece, hall⟩ := ih hothers
    exact ⟨_, others, rfl, .closing hpiece, hall⟩
  | case7 depth c rest _ _ _ hcomma ih =>
    obtain ⟨others, hothers, rfl⟩ := exists_of_map_eq_ok h
    obtain ⟨piece, others, rfl, hpiece, hall⟩ := ih hothers
    obtain rfl : depth = 0 := by simp_all
    exact ⟨[], piece :: others, rfl, .nil, List.forall_mem_cons.2 ⟨hpiece, hall⟩⟩
  | case8 depth c rest hquote hopening hclosing hcomma ih =>
    obtain ⟨others, hothers, rfl⟩ := exists_of_map_eq_ok h
    obtain ⟨piece, others, rfl, hpiece, hall⟩ := ih hothers
    exact ⟨_, others, rfl, .other hquote hopening hclosing hpiece, hall⟩

/-- A character that is no quote and no parenthesis. -/
abbrev Other (c : Char) : Prop :=
  c ≠ '"' ∧ c ≠ '(' ∧ c ≠ ')'

theorem other_of_isBlank {c : Char} (h : isBlank c = true) : Other c := by
  refine ⟨?_, ?_, ?_⟩ <;> rintro rfl <;> revert h <;> decide

theorem other_of_isNameChar {c : Char} (h : Token.isNameChar c = true) : Other c := by
  obtain ⟨-, hquote, hopening, hclosing, -⟩ := isPlain_of_isNameChar h
  exact ⟨hquote, hopening, hclosing⟩

namespace Closes

variable {depth : Nat} {s : List Char}

theorem tail {c : Char} (hc : Other c) (h : Closes depth (c :: s)) : Closes depth s := by
  obtain ⟨hquote, hopening, hclosing⟩ := hc
  cases h with
  | string => exact absurd rfl hquote
  | opening => exact absurd rfl hopening
  | closing => exact absurd rfl hclosing
  | other _ _ _ hrest => exact hrest

/-- What holds no quotes and no parentheses can be left out in front of a text. -/
theorem of_front {front : List Char} (hfront : ∀ c ∈ front, Other c)
    (h : Closes depth (front ++ s)) : Closes depth s := by
  induction front with
  | nil => exact h
  | cons c front ih =>
    obtain ⟨hc, hfront⟩ := List.forall_mem_cons.1 hfront
    exact ih hfront (h.tail hc)

/-- So can a run of characters of which none is a quote or a parenthesis. -/
theorem dropWhile {p : Char → Bool} (hp : ∀ c, p c = true → Other c) (h : Closes depth s) :
    Closes depth (s.dropWhile p) := by
  have hparts : Closes depth (s.takeWhile p ++ s.dropWhile p) := by
    rwa [List.takeWhile_append_dropWhile]
  exact hparts.of_front fun c hc => hp c (List.mem_takeWhile_imp hc)

theorem of_margin {front : List Char} (hfront : Blank front) (h : Closes depth (front ++ s)) :
    Closes depth s :=
  h.of_front fun c hc => other_of_isBlank (hfront c hc)

/-- The closing quote of a string is not in the margin behind a text. -/
theorem exists_rest_of_back {back inside rest : List Char} (hback : Blank back)
    (h : closeQuote (s ++ back) = some (inside, rest)) : ∃ rest', rest = rest' ++ back ∧
      closeQuote s = some (inside, rest') := by
  obtain ⟨front, hfront⟩ := exists_of_closeQuote h
  rcases List.append_eq_append_iff.1 (closeQuote_append h) with ⟨rest', rfl, rfl⟩ | ⟨beyond, rfl, rfl⟩
  · exact ⟨rest', rfl, closeQuote_inside h rest'⟩
  · cases beyond with
    | nil =>
      refine ⟨[], rfl, ?_⟩
      have hinside := closeQuote_inside h []
      simpa using hinside
    | cons c beyond =>
      have hlast : '"' ∈ c :: beyond := by
        have hgetLast := congrArg List.getLast? hfront
        rw [List.getLast?_append_of_ne_nil _ (List.cons_ne_nil c beyond)] at hgetLast
        exact List.mem_of_getLast? (by simpa using hgetLast)
      have hblank := hback '"' (List.mem_append_left rest hlast)
      exact absurd hblank (by decide)

/-- A margin behind a text closes nothing. -/
theorem of_back {back : List Char} (hback : Blank back) (h : Closes depth (s ++ back)) :
    Closes depth s := by
  generalize htext : s ++ back = text at h
  -- A margin holds no quotes and no parentheses, so these begin the text itself.
  have inside {c : Char} {rest : List Char} (hc : isBlank c = false) {s : List Char}
      (htext : s ++ back = c :: rest) : ∃ s', s = c :: s' ∧ rest = s' ++ back := by
    rcases List.append_eq_cons_iff.1 htext with ⟨-, hwhole⟩ | hinside
    · have hblank := hback c (by rw [hwhole]; exact List.mem_cons_self)
      rw [hc] at hblank
      cases hblank
    · exact hinside
  induction h generalizing s with
  | nil =>
    obtain ⟨rfl, -⟩ := List.append_eq_nil_iff.1 htext
    exact .nil
  | string hclose _ ih =>
    obtain ⟨s', rfl, rfl⟩ := inside (by decide) htext
    obtain ⟨rest', rfl, hclose'⟩ := exists_rest_of_back hback hclose
    exact .string hclose' (ih rfl)
  | opening _ ih =>
    obtain ⟨s', rfl, rfl⟩ := inside (by decide) htext
    exact .opening (ih rfl)
  | closing _ ih =>
    obtain ⟨s', rfl, rfl⟩ := inside (by decide) htext
    exact .closing (ih rfl)
  | @other depth c rest hquote hopening hclosing hrest ih =>
    rcases List.append_eq_cons_iff.1 htext with ⟨rfl, rfl⟩ | ⟨s', rfl, rfl⟩
    · have hblank : Blank rest := (List.forall_mem_cons.1 hback).2
      exact of_margin hblank (by rwa [List.append_nil])
    · exact .other hquote hopening hclosing (ih rfl)

/-- Trimming leaves a text closed. -/
theorem trim (h : Closes depth s) : Closes depth (trim s) := by
  rcases blank_or_exists_tight s with hblank | ⟨front, core, back, hfront, hcore, hback, rfl⟩
  · rw [trim_of_blank hblank]
    refine of_margin hblank ?_
    rwa [List.append_nil]
  · rw [hcore.trim_margins hfront hback]
    exact (h.of_margin hfront).of_back hback

end Closes

end Arguments

/-! ### The lexer -/

namespace Token

open Arguments

/-- How many parentheses are open behind a token.  A closing parenthesis stands for itself where
nothing is open. -/
def levelBehind (depth : Nat) : Token → Nat
  | .operand _ => depth
  | .operator symbol =>
    if symbol = "(" then depth + 1 else if symbol = ")" then depth - 1 else depth

/-- From inside of some parentheses on, all parentheses of some tokens are closed. -/
def Closed (depth : Nat) (tokens : List Token) : Prop :=
  tokens.foldl levelBehind depth = 0

/-- What the lexer gives for a closed text: it misses no end of a string, and the tokens are closed. -/
def ClosedOrFault (depth : Nat) : Except Fault (List Token) → Prop
  | .ok tokens => Closed depth tokens
  | .error fault => ∀ place, fault ≠ .script .unterminatedString place

theorem ClosedOrFault.map {depth : Nat} {token : Token} {scanned : Except Fault (List Token)}
    (h : ClosedOrFault (levelBehind depth token) scanned) :
    ClosedOrFault depth (scanned.map (token :: ·)) := by
  cases scanned with
  | error fault => exact h
  | ok tokens => exact h

/-- Reading one character as an operator keeps the count of the open parentheses. -/
theorem closes_behind {depth : Nat} {c : Char} {rest : List Char} (hquote : c ≠ '"')
    (h : Closes depth (c :: rest)) :
    Closes (levelBehind depth (.operator (String.singleton c))) rest := by
  cases h with
  | string => exact absurd rfl hquote
  | opening hrest => exact hrest
  | closing hrest => exact hrest
  | other _ hopening hclosing hrest =>
    have hno (d : Char) (hd : c ≠ d) : String.singleton c ≠ String.singleton d := by
      intro heq
      exact hd (String.singleton_inj.1 heq)
    have hlevel : levelBehind depth (.operator (String.singleton c)) = depth := by
      unfold levelBehind
      exact (if_neg (hno '(' hopening)).trans (if_neg (hno ')' hclosing))
    rwa [hlevel]

theorem closed_of_scan {policy : EscapePolicy} {depth : Nat} {s : List Char} (h : Closes depth s) :
    ClosedOrFault depth (scan policy s) := by
  fun_induction scan policy s generalizing depth with
  | case1 => cases h; rfl
  | case2 c rest hblank ih => exact ih (h.tail (other_of_isBlank hblank))
  | case3 rest fault hread =>
    cases h with
    | string hclose _ =>
      rcases readString_of_closeQuote hclose policy with ⟨text, htext⟩ | ⟨-, c, hfault⟩
      · rw [htext] at hread
        cases hread
      · rw [hfault] at hread
        cases hread
        intro place hplace
        cases hplace
    | other hquote => exact absurd rfl hquote
  | case4 rest _ rest' hread _ ih =>
    cases h with
    | string hclose hrest =>
      rcases readString_of_closeQuote hclose policy with ⟨text, htext⟩ | ⟨-, c, hfault⟩
      · rw [htext] at hread
        cases hread
        exact ClosedOrFault.map (ih hrest)
      · rw [hfault] at hread
        cases hread
    | other hquote => exact absurd rfl hquote
  | case5 =>
    intro place hplace
    cases hplace
  | case6 rest _ _ _ ih =>
    have hrest := h.tail (by decide)
    exact ClosedOrFault.map (ih (hrest.dropWhile fun c => other_of_isNameChar))
  | case7 c rest _ _ _ hdigit ih =>
    have hother {d : Char} (hd : isLatinDigit d = true) : Other d :=
      other_of_isNameChar (isNameChar_of_isLatinDigit hd)
    have hrest := h.tail (hother hdigit)
    exact ClosedOrFault.map (ih (hrest.dropWhile fun d => hother))
  | case8 c rest _ hquote _ _ _ ih => exact ClosedOrFault.map (ih (closes_behind hquote h))
  | case9 =>
    intro place hplace
    cases hplace

end Token

/-! ### The pass over the tokens -/

namespace OperatorFirst

/-- What the pass gives for the rest of closed tokens: a group waits for each parenthesis that is
open. -/
def WaitingOrFault (depth : Nat) : Except Fault State → Prop
  | .ok s => depth ≤ groups s.stack
  | .error fault => ∀ place, fault ≠ .script .missingClosing place

theorem waiting_of_step {depth : Nat} {token : Token} {s : State}
    (h : Token.levelBehind depth token ≤ groups s.stack) : WaitingOrFault depth (step token s) := by
  cases token with
  | operand o => exact h
  | operator symbol =>
    rw [Token.levelBehind] at h
    rw [step]
    by_cases hclosing : symbol = ")"
    · subst hclosing
      have hlevel : depth - 1 ≤ groups s.stack := h
      have hcount : groups (.group :: s.stack) = groups s.stack + 1 := by simp [groups]
      show depth ≤ groups (.group :: s.stack)
      omega
    · by_cases hopening : symbol = "("
      · subst hopening
        have hlevel : depth + 1 ≤ groups s.stack := h
        have hsome : 0 < groups s.stack := by omega
        obtain ⟨s', hs', hgroups⟩ := exists_of_endGroup hsome s.output
        rw [if_neg hclosing, if_pos rfl, hs']
        show depth ≤ groups s'.stack
        omega
      · rw [if_neg hopening, if_neg hclosing] at h
        rw [if_neg hclosing, if_neg hopening]
        cases Operator.ofSymbol? symbol with
        | none =>
          intro place hplace
          cases hplace
        | some op =>
          have hrelease := groups_release op.rank s.stack s.output
          have hcount : groups (.operator op :: (release op.rank s.stack s.output).stack) =
              groups (release op.rank s.stack s.output).stack := by simp [groups]
          show depth ≤ groups (.operator op :: (release op.rank s.stack s.output).stack)
          omega

theorem waiting_of_pass {depth : Nat} {tokens : List Token} (h : Token.Closed depth tokens) :
    WaitingOrFault depth (pass tokens) := by
  induction tokens generalizing depth with
  | nil =>
    have hdepth : depth = 0 := h
    exact hdepth.le
  | cons token rest ih =>
    have hrest : WaitingOrFault (Token.levelBehind depth token) (pass rest) := ih h
    unfold pass
    cases hpass : pass rest with
    | error fault =>
      rw [hpass] at hrest
      exact hrest
    | ok s =>
      rw [hpass] at hrest
      exact waiting_of_step hrest

theorem finish_ne_missingClosing (stack : List Waiting) (output : List Token) (place : Place) :
    finish stack output ≠ .error (.script .missingClosing place) := by
  rcases finish_cases stack output with ⟨-, queue, hqueue⟩ | ⟨-, hopening⟩
  · rw [hqueue]
    nofun
  · rw [hopening]
    nofun

end OperatorFirst

theorem operatorFirst_ne_missingClosing {tokens : List Token} (h : Token.Closed 0 tokens)
    (place : Place) : operatorFirst tokens ≠ .error (.script .missingClosing place) := by
  have hpass := OperatorFirst.waiting_of_pass h
  unfold operatorFirst
  cases hs : OperatorFirst.pass tokens with
  | error fault =>
    rw [hs] at hpass
    intro hfault
    exact hpass place (Except.error.inj hfault)
  | ok s => exact OperatorFirst.finish_ne_missingClosing s.stack s.output place

/-! ### The three readers -/

namespace Arguments

theorem closes_of_split {s : List Char} {args : List (List Char)} (h : split s = .ok args) :
    ∀ arg ∈ args, Closes 0 arg := by
  unfold split at h
  by_cases hempty : (trim s).isEmpty = true
  · rw [if_pos hempty] at h
    cases h
    exact List.forall_mem_nil _
  · rw [if_neg hempty] at h
    obtain ⟨cut, hcut, rfl⟩ := exists_of_map_eq_ok h
    obtain ⟨piece, others, rfl, hpiece, hothers⟩ := closes_of_pieces hcut
    intro arg harg
    obtain ⟨p, hp, rfl⟩ := List.mem_map.1 harg
    rcases List.mem_cons.1 hp with rfl | hp
    · exact hpiece.trim
    · exact (hothers p hp).trim

/-- **The readers of an argument agree on its quotes and its parentheses.**  Where the splitter
accepts a text, the lexer misses no closing quote in any of the arguments, and the pass that orders
the tokens misses no closing parenthesis.  At every position of every text a string ends for the
splitter where it ends for the lexer, unless the lexer refuses one of its escapes. -/
theorem readers_agree (s : List Char) :
    (∀ args, split s = .ok args → ∀ arg ∈ args, ∀ policy,
      (∀ place, Token.scan policy arg ≠ .error (.script .unterminatedString place)) ∧
        ∀ tokens, Token.scan policy arg = .ok tokens →
          ∀ place, operatorFirst tokens ≠ .error (.script .missingClosing place)) ∧
      ∀ start,
        (∀ policy, policy ≠ .reject → ∀ e,
          closingQuote s start = some e ↔ Token.stringEnd policy s start = .ok (e + 1)) ∧
        ∀ e, closingQuote s start = some e →
          Token.stringEnd .reject s start = .ok (e + 1) ∨
            ∃ c, Token.stringEnd .reject s start = .error (.of (.unknownEscape c)) := by
  refine ⟨fun args hargs arg harg policy => ?_, fun start => ⟨fun policy hpolicy e => ?_, ?_⟩⟩
  · have hscan : Token.ClosedOrFault 0 (Token.scan policy arg) :=
      Token.closed_of_scan (closes_of_split hargs arg harg)
    constructor
    · intro place hplace
      rw [hplace] at hscan
      exact hscan place rfl
    · intro tokens htokens
      rw [htokens] at hscan
      exact operatorFirst_ne_missingClosing hscan
  · exact closingQuote_eq_some_iff hpolicy e
  · exact fun e => stringEnd_reject

/-- A closing parenthesis with nothing open, and a string with a quote and a parenthesis in it. -/
theorem readers_agree_on_string_in_parentheses :
    split "1), (\"a\\\")\" + $b)".toList = .ok ["1)".toList, "(\"a\\\")\" + $b)".toList] ∧
      (∀ place, Token.scan .drop "(\"a\\\")\" + $b)".toList ≠
        .error (.script .unterminatedString place)) ∧
      Token.scan .keep "1)".toList = .ok [.numberOf "1", .operator ")"] ∧
      (∀ place, operatorFirst [.numberOf "1", .operator ")"] ≠
        .error (.script .missingClosing place)) ∧
      Token.stringEnd .keep "1), (\"a\\\")\" + $b)".toList 5 = .ok (10 + 1) := by
  have hsplit : split "1), (\"a\\\")\" + $b)".toList =
      .ok ["1)".toList, "(\"a\\\")\" + $b)".toList] := by decide +kernel
  have hscan : Token.scan .keep "1)".toList = .ok [.numberOf "1", .operator ")"] := by
    decide +kernel
  obtain ⟨hargs, hends⟩ := readers_agree "1), (\"a\\\")\" + $b)".toList
  refine ⟨hsplit, ?_, hscan, ?_, ?_⟩
  · exact (hargs _ hsplit _ (List.mem_cons_of_mem _ List.mem_cons_self) .drop).1
  · exact (hargs _ hsplit _ List.mem_cons_self .keep).2 _ hscan
  · exact ((hends 5).1 .keep (by decide) 10).1 (by decide +kernel)

end Arguments

end Pipeline
