import Pipeline.Literal
import Pipeline.Proofs.Expr.Precedence
import Pipeline.Proofs.Text.Trimming
import Pipeline.Statement.Arguments

/-!
# Writing an argument

An argument is written with parentheses around every operation, and with literals for its texts.
What the readers of an argument make of that text:

* `inside_literal`, `isPlain_symbol`: of its parts, only strings and groups hold what divides arguments;
* `scan_source`: the lexer gives the tokens of the tree, unless a name goes on behind it;
* `ofText_source`: the reader gives the tree back, under every policy for unknown escapes.
-/

namespace Pipeline

open Text

/-! ### Strings -/

namespace Arguments

/-- The inside of a string.  A backslash takes the next character with it; no other quote stands here. -/
inductive Inside : List Char → Prop where
  | nil : Inside []
  | plain {c : Char} {s : List Char} : c ≠ '"' → c ≠ '\\' → Inside s → Inside (c :: s)
  | escape (c : Char) {s : List Char} : Inside s → Inside ('\\' :: c :: s)

theorem closeQuote_plain {c : Char} (hquote : c ≠ '"') (hslash : c ≠ '\\') (s : List Char) :
    closeQuote (c :: s) = (closeQuote s).map fun r => (c :: r.1, r.2) := by
  rw [closeQuote, if_neg hquote]
  · exact fun hc _ => hslash hc
  · exact fun _ _ hc _ => hslash hc

/-- The splitter finds the quote behind the inside of a string. -/
theorem Inside.closeQuote_eq {inside : List Char} (h : Inside inside) (rest : List Char) :
    closeQuote (inside ++ '"' :: rest) = some (inside ++ ['"'], rest) := by
  induction h with
  | nil => rfl
  | plain hquote hslash _ ih =>
    rw [List.cons_append, closeQuote_plain hquote hslash, ih]
    rfl
  | escape c _ ih =>
    rw [List.cons_append, List.cons_append, closeQuote, ih]
    rfl

theorem exists_inside_of_closeQuote {s shut rest : List Char} (h : closeQuote s = some (shut, rest)) :
    ∃ inside, Inside inside ∧ shut = inside ++ ['"'] ∧ s = inside ++ '"' :: rest := by
  fun_induction closeQuote s generalizing shut rest with
  | case1 => cases h
  | case2 => cases h
  | case3 c s ih =>
    obtain ⟨⟨shut, rest⟩, hr, heq⟩ := Option.map_eq_some_iff.1 h
    cases heq
    obtain ⟨inside, hinside, rfl, rfl⟩ := ih hr
    exact ⟨'\\' :: c :: inside, .escape c hinside, rfl, rfl⟩
  | case4 s => cases h; exact ⟨[], .nil, rfl, rfl⟩
  | case5 c s hdangling hescape hquote ih =>
    obtain ⟨⟨shut, rest⟩, hr, heq⟩ := Option.map_eq_some_iff.1 h
    cases heq
    obtain ⟨inside, hinside, rfl, rfl⟩ := ih hr
    have hslash : c ≠ '\\' := by
      intro hc
      cases inside with
      | nil => exact hescape _ _ hc rfl
      | cons d inside => exact hescape _ _ hc rfl
    exact ⟨c :: inside, .plain hquote hslash hinside, rfl, rfl⟩

end Arguments

namespace Token

variable {policy : EscapePolicy}

theorem readString_escape {c : Char} {meant : List Char} (h : escaped? policy c = some meant)
    (s : List Char) : readString policy ('\\' :: c :: s) =
      (readString policy s).map fun r => (meant ++ r.1, r.2) := by
  rw [readString, h]

theorem readString_plain {c : Char} (hquote : c ≠ '"') (hslash : c ≠ '\\') (s : List Char) :
    readString policy (c :: s) = (readString policy s).map fun r => (c :: r.1, r.2) := by
  rw [readString, if_neg hquote]
  · exact fun hc _ => hslash hc
  · exact fun _ _ hc _ => hslash hc

end Token

/-! ### Literals -/

theorem escapeChar_eq_self {c : Char} (hslash : c ≠ '\\') (hquote : c ≠ '"') (hline : c ≠ '\n')
    (htab : c ≠ '\t') : Literal.escapeChar c = [c] := by
  unfold Literal.escapeChar
  split <;> first | contradiction | rfl

/-- The forms of a character: an escape that means it, or the character itself. -/
theorem escapeChar_cases (c : Char) :
    (∃ e, Literal.escapeChar c = ['\\', e] ∧ Token.escape? e = some c) ∨
      (Literal.escapeChar c = [c] ∧ c ≠ '\\' ∧ c ≠ '"' ∧ c ≠ '\n') := by
  by_cases hslash : c = '\\'
  · subst hslash
    exact .inl ⟨'\\', rfl, rfl⟩
  by_cases hquote : c = '"'
  · subst hquote
    exact .inl ⟨'"', rfl, rfl⟩
  by_cases hline : c = '\n'
  · subst hline
    exact .inl ⟨'n', rfl, rfl⟩
  by_cases htab : c = '\t'
  · subst htab
    exact .inl ⟨'t', rfl, rfl⟩
  exact .inr ⟨escapeChar_eq_self hslash hquote hline htab, hslash, hquote, hline⟩

theorem quote_eq (s : List Char) :
    Literal.quote s = '"' :: (s.flatMap Literal.escapeChar ++ ['"']) := rfl

/-- The inside of a literal is read back under every policy, since it has no unknown escapes. -/
theorem readString_literal (policy : EscapePolicy) (s rest : List Char) :
    Token.readString policy (s.flatMap Literal.escapeChar ++ '"' :: rest) = .ok (s, rest) := by
  induction s with
  | nil => rfl
  | cons c s ih =>
    rw [List.flatMap_cons, List.append_assoc]
    rcases escapeChar_cases c with ⟨e, he, hmeant⟩ | ⟨hself, hslash, hquote, -⟩
    · have hescaped : Token.escaped? policy e = some [c] := by
        simp only [Token.escaped?, hmeant]
      rw [he, List.cons_append, List.singleton_append, Token.readString_escape hescaped, ih]
      rfl
    · rw [hself, List.singleton_append, Token.readString_plain hquote hslash, ih]
      rfl

theorem inside_literal (s : List Char) : Arguments.Inside (s.flatMap Literal.escapeChar) := by
  induction s with
  | nil => exact .nil
  | cons c s ih =>
    rw [List.flatMap_cons]
    rcases escapeChar_cases c with ⟨e, he, -⟩ | ⟨hself, hslash, hquote, -⟩
    · rw [he]
      exact .escape e ih
    · rw [hself]
      exact .plain hquote hslash ih

theorem newline_not_mem_literal (s : List Char) : '\n' ∉ Literal.quote s := by
  rw [quote_eq]
  simp only [List.mem_cons, List.mem_append, List.mem_flatMap, List.not_mem_nil, or_false]
  rintro (h | ⟨c, -, h⟩ | h)
  · cases h
  · rcases escapeChar_cases c with ⟨e, he, hmeant⟩ | ⟨hself, -, -, hline⟩
    · rw [he] at h
      simp only [List.mem_cons, List.not_mem_nil, or_false] at h
      rcases h with h | rfl
      · cases h
      · cases hmeant
    · rw [hself, List.mem_singleton] at h
      exact hline h.symm
  · cases h

/-! ### Characters -/

/-- The characters that the splitter takes as they come. -/
def IsPlain (c : Char) : Prop :=
  isBlank c = false ∧ c ≠ '"' ∧ c ≠ '(' ∧ c ≠ ')' ∧ c ≠ ','

theorem isNameChar_of_isLatinDigit {c : Char} (h : isLatinDigit c = true) :
    Token.isNameChar c = true := by
  simp [Token.isNameChar, h]

/-- Name characters lie between the digit zero and the letter z. -/
theorem toNat_of_isNameChar {c : Char} (h : Token.isNameChar c = true) :
    0x30 ≤ c.toNat ∧ c.toNat ≤ 0x7A := by
  simp only [Token.isNameChar, isLatinDigit, Bool.or_eq_true, Bool.and_eq_true, decide_eq_true_eq,
    beq_iff_eq] at h
  rcases h with ((⟨hfrom, hto⟩ | ⟨hfrom, hto⟩) | ⟨hfrom, hto⟩) | rfl
  · exact ⟨Nat.le_trans (by decide) hfrom, Nat.le_trans hto (by decide)⟩
  · exact ⟨Nat.le_trans (by decide) hfrom, Nat.le_trans hto (by decide)⟩
  · exact ⟨Nat.le_trans (by decide) hfrom, Nat.le_trans hto (by decide)⟩
  · decide

theorem isPlain_of_isNameChar {c : Char} (h : Token.isNameChar c = true) : IsPlain c := by
  obtain ⟨hfrom, hto⟩ := toNat_of_isNameChar h
  refine ⟨?_, ?_, ?_, ?_, ?_⟩
  · simp only [isBlank, isSpace, Bool.or_eq_false_iff, Bool.and_eq_false_iff,
      decide_eq_false_iff_not, beq_eq_false_iff_ne]
    omega
  all_goals
    rintro rfl
    revert h
    decide

/-- What stands behind a name or a number, so that it does not go on. -/
def EndsNames (rest : List Char) : Prop :=
  ∀ c ∈ rest.head?, Token.isNameChar c = false

theorem endsNames_cons {c : Char} (h : Token.isNameChar c = false) (rest : List Char) :
    EndsNames (c :: rest) := by
  intro d hd
  cases hd
  exact h

/-! ### Written arguments -/

/-- How an operand is written. -/
def Operand.source : Operand → List Char
  | ⟨.variable, name⟩ => '$' :: name.toList
  | ⟨.number, digits⟩ => digits.toList
  | ⟨.string, text⟩ => Literal.quote text.toList

/-- The operands that can be written: names and numbers have the characters for them. -/
def Operand.Writable : Operand → Prop
  | ⟨.variable, name⟩ => name.toList ≠ [] ∧ ∀ c ∈ name.toList, Token.isNameChar c = true
  | ⟨.number, digits⟩ => digits.toList ≠ [] ∧ ∀ c ∈ digits.toList, isLatinDigit c = true
  | ⟨.string, _⟩ => True

namespace Expr

/-- How a tree is written: with parentheses around every operation, and without blanks. -/
def source : Expr → List Char
  | .operand o => o.source
  | .binary symbol left right =>
    '(' :: (left.source ++ (symbol.toList ++ (right.source ++ [')'])))

/-- The trees that can be written. -/
def Writable : Expr → Prop
  | .operand o => o.Writable
  | .binary symbol left right =>
    (∃ op : Operator, op.symbol = symbol) ∧ left.Writable ∧ right.Writable

theorem overOperators_of_writable {t : Expr} (h : t.Writable) : t.OverOperators := by
  induction t with
  | operand o => trivial
  | binary symbol left right ihl ihr => exact ⟨h.1, ihl h.2.1, ihr h.2.2⟩

end Expr

/-! ### Ends and line feeds -/

theorem Operand.tight_source {o : Operand} (h : o.Writable) : Tight o.source := by
  -- a variable, a number, a string
  obtain ⟨_ | _ | _, text⟩ := o
  · refine .of_forall (List.cons_ne_nil _ _) ?_
    intro c hc
    rcases List.mem_cons.1 hc with rfl | hc
    · decide
    · exact (isPlain_of_isNameChar (h.2 c hc)).1
  · exact .of_forall h.1 fun c hc =>
      (isPlain_of_isNameChar (isNameChar_of_isLatinDigit (h.2 c hc))).1
  · have hmark : Tight ['"'] := .singleton (by decide)
    exact hmark.around _ hmark

theorem Operand.newline_not_mem_source {o : Operand} (h : o.Writable) : '\n' ∉ o.source := by
  have hname : Token.isNameChar '\n' = false := by decide
  obtain ⟨_ | _ | _, text⟩ := o
  · rintro (_ | ⟨_, hmem⟩)
    rw [h.2 '\n' hmem] at hname
    cases hname
  · intro hmem
    rw [isNameChar_of_isLatinDigit (h.2 '\n' hmem)] at hname
    cases hname
  · exact newline_not_mem_literal text.toList

namespace Expr

theorem tight_source {t : Expr} (h : t.Writable) : Tight t.source := by
  cases t with
  | operand o => exact Operand.tight_source h
  | binary symbol left right =>
    have hopen : Tight ['('] := .singleton (by decide)
    have hclose : Tight [')'] := .singleton (by decide)
    have haround := hopen.around (left.source ++ (symbol.toList ++ right.source)) hclose
    simp only [List.append_assoc] at haround
    exact haround

theorem newline_not_mem_source {t : Expr} (h : t.Writable) : '\n' ∉ t.source := by
  induction t with
  | operand o => exact Operand.newline_not_mem_source h
  | binary symbol left right ihl ihr =>
    obtain ⟨⟨op, rfl⟩, hleft, hright⟩ := h
    have hsymbol : '\n' ∉ op.symbol.toList := by
      cases op <;> decide
    simp [source, ihl hleft, ihr hright, hsymbol]

end Expr

/-! ### The lexer -/

namespace Token

variable (policy : EscapePolicy) {s rest : List Char}

theorem scan_string {text : List Char} (h : readString policy s = .ok (text, rest)) :
    scan policy ('"' :: s) = (scan policy rest).map (stringOf (String.ofList text) :: ·) := by
  rw [scan, if_neg (by decide), if_pos rfl]
  split
  · rename_i hfault
    rw [h] at hfault
    cases hfault
  · rename_i hread
    rw [h] at hread
    cases hread
    rfl

theorem scan_variable {name : List Char} (hne : name ≠ [])
    (hname : ∀ c ∈ name, isNameChar c = true) (hrest : EndsNames rest) :
    scan policy ('$' :: (name ++ rest)) =
      (scan policy rest).map (variableOf (String.ofList name) :: ·) := by
  obtain ⟨htake, hdrop⟩ := run_append hname hrest
  rw [scan, if_neg (by decide), if_neg (by decide), if_pos rfl, htake, hdrop]
  cases name with
  | nil => exact absurd rfl hne
  | cons c name => rfl

/-- A number ends where no digit follows. -/
theorem scan_digits {digits : List Char} (hne : digits ≠ [])
    (hdigits : ∀ c ∈ digits, isLatinDigit c = true)
    (hrest : ∀ c ∈ rest.head?, isLatinDigit c = false) :
    scan policy (digits ++ rest) =
      (scan policy rest).map (numberOf (String.ofList digits) :: ·) := by
  cases digits with
  | nil => exact absurd rfl hne
  | cons c digits =>
    have hc : isLatinDigit c = true := hdigits c List.mem_cons_self
    obtain ⟨hblank, hquote, -⟩ := isPlain_of_isNameChar (isNameChar_of_isLatinDigit hc)
    have hsign : c ≠ '$' := by
      rintro rfl
      revert hc
      decide
    obtain ⟨htake, hdrop⟩ := run_append (fun d hd => hdigits d (List.mem_cons_of_mem c hd)) hrest
    rw [List.cons_append, scan, if_neg (by simp [hblank]), if_neg hquote, if_neg hsign, if_pos hc,
      htake, hdrop]

theorem scan_number {digits : List Char} (hne : digits ≠ [])
    (hdigits : ∀ c ∈ digits, isLatinDigit c = true) (hrest : EndsNames rest) :
    scan policy (digits ++ rest) =
      (scan policy rest).map (numberOf (String.ofList digits) :: ·) := by
  refine scan_digits policy hne hdigits fun c hc => ?_
  rw [Bool.eq_false_iff]
  intro hdigit
  have hname := hrest c hc
  rw [isNameChar_of_isLatinDigit hdigit] at hname
  cases hname

theorem scan_operator {c : Char} (h : isOperatorChar c = true) (rest : List Char) :
    scan policy (c :: rest) =
      (scan policy rest).map (.operator (String.singleton c) :: ·) := by
  have hmem := mem_of_isOperatorChar h
  have hclass : isBlank c = false ∧ c ≠ '"' ∧ c ≠ '$' ∧ isLatinDigit c = false := by
    simp only [List.mem_cons, List.not_mem_nil, or_false] at hmem
    rcases hmem with rfl | rfl | rfl | rfl | rfl | rfl | rfl | rfl | rfl <;> decide
  obtain ⟨hblank, hquote, hsign, hdigit⟩ := hclass
  rw [scan, if_neg (by simp [hblank]), if_neg hquote, if_neg hsign, if_neg (by simp [hdigit]),
    if_pos h]

theorem scan_symbol (op : Operator) (rest : List Char) :
    scan policy (op.symbol.toList ++ rest) = (scan policy rest).map (op.token :: ·) := by
  cases op <;> exact scan_operator policy (by decide) rest

end Token

theorem endsNames_symbol (op : Operator) (rest : List Char) :
    EndsNames (op.symbol.toList ++ rest) := by
  cases op <;> exact endsNames_cons (by decide) rest

theorem Operand.scan_source {o : Operand} (h : o.Writable) (policy : EscapePolicy)
    {rest : List Char} (hrest : EndsNames rest) :
    Token.scan policy (o.source ++ rest) = (Token.scan policy rest).map (.operand o :: ·) := by
  -- a variable, a number, a string
  obtain ⟨_ | _ | _, text⟩ := o
  · have hscan := Token.scan_variable policy h.1 h.2 hrest
    rw [String.ofList_toList] at hscan
    exact hscan
  · have hscan := Token.scan_number policy h.1 h.2 hrest
    rw [String.ofList_toList] at hscan
    exact hscan
  · have hscan := Token.scan_string policy (readString_literal policy text.toList rest)
    rw [String.ofList_toList] at hscan
    show Token.scan policy (Literal.quote text.toList ++ rest) = _
    rw [quote_eq, List.cons_append, List.append_assoc]
    exact hscan

theorem isPlain_symbol (op : Operator) : ∀ c ∈ op.symbol.toList, IsPlain c := by
  unfold IsPlain
  cases op <;> exact List.forall_mem_singleton.2 (by decide)

namespace Expr

/-- The lexer gives the tokens of a written tree, and goes on behind it. -/
theorem scan_source {t : Expr} (h : t.Writable) (policy : EscapePolicy) {rest : List Char}
    (hrest : EndsNames rest) :
    Token.scan policy (t.source ++ rest) = (Token.scan policy rest).map (t.grouped ++ ·) := by
  induction t generalizing rest with
  | operand o => exact Operand.scan_source h policy hrest
  | binary symbol left right ihl ihr =>
    obtain ⟨⟨op, rfl⟩, hleft, hright⟩ := h
    have hclose : EndsNames (')' :: rest) := endsNames_cons (by decide) rest
    rw [source, grouped]
    simp only [List.cons_append, List.append_assoc, List.nil_append]
    rw [Token.scan_operator policy (by decide), ihl hleft (endsNames_symbol op _), Token.scan_symbol,
      ihr hright hclose, Token.scan_operator policy (by decide)]
    cases Token.scan policy rest with
    | error fault => rfl
    | ok tokens => rfl

/-- **A written tree is read back**, whatever strings do with unknown escapes. -/
theorem ofText_source {t : Expr} (h : t.Writable) (policy : EscapePolicy) :
    ofText policy t.source = .ok t := by
  have hends : EndsNames [] := fun c hc => nomatch hc
  have hscan := scan_source h policy hends
  rw [List.append_nil, Token.scan] at hscan
  rw [ofText, hscan]
  show ofTokens (t.grouped ++ []) = .ok t
  rw [List.append_nil]
  exact ofTokens_eq_ok_iff_reads.2
    ⟨0, reads_of_written (written_grouped (overOperators_of_writable h)) []⟩

end Expr

end Pipeline
