import Pipeline.Proofs.Statement.Reading

/-!
# The spelling of tokens

What an argument may look like, apart from how it is read.  Every token has its lexemes: a variable and
a number have one, a string has as many as there are ways to write its characters.  A text spells
tokens when it is made of their lexemes in order, with blanks between them wherever one likes; only
behind a variable and behind a number no character may follow that would make them longer.

* `Means.readString_eq`, `exists_means_of_readString` : the inside of a string, and what it means under a
  policy.
* `Spells.scan_eq`, `spells_of_scan` : the lexer finds the tokens that a text spells, and no others.
* `Spaced.spells` : lexemes that have blanks between them cannot run into each other.
* `scan_eq_ok_iff_spells` : the lexer is exactly this grammar.
-/

namespace Pipeline.Token

open Text

/-! ### The grammar -/

/-- The characters that have an escape, with what they mean. -/
def knownEscapes : List (Char × Char) :=
  [('"', '"'), ('n', '\n'), ('t', '\t'), ('\\', '\\')]

/-- A character has no escape. -/
def UnknownEscape (c : Char) : Prop :=
  ∀ meant, (c, meant) ∉ knownEscapes

/-- The inside of a string and the text that it means.  A character stands for itself, unless it is a
quote or a backslash; a backslash takes the next character with it. -/
inductive Means (policy : EscapePolicy) : List Char → List Char → Prop where
  | nil : Means policy [] []
  | plain {c : Char} {inside text : List Char} : c ≠ '"' → c ≠ '\\' → Means policy inside text →
      Means policy (c :: inside) (c :: text)
  | known {c meant : Char} {inside text : List Char} : (c, meant) ∈ knownEscapes →
      Means policy inside text → Means policy ('\\' :: c :: inside) (meant :: text)
  | kept {c : Char} {inside text : List Char} : policy = .keep → UnknownEscape c →
      Means policy inside text → Means policy ('\\' :: c :: inside) ('\\' :: c :: text)
  | dropped {c : Char} {inside text : List Char} : policy = .drop → UnknownEscape c →
      Means policy inside text → Means policy ('\\' :: c :: inside) text

/-- A lexeme, and the token that it spells. -/
inductive Lexeme (policy : EscapePolicy) : List Char → Token → Prop where
  | name {name : List Char} : name ≠ [] → (∀ c ∈ name, isNameChar c = true) →
      Lexeme policy ('$' :: name) (variableOf (String.ofList name))
  | digits {digits : List Char} : digits ≠ [] → (∀ c ∈ digits, isLatinDigit c = true) →
      Lexeme policy digits (numberOf (String.ofList digits))
  | operator {c : Char} : c ∈ ['+', '-', '/', '*', '(', ')', '|', '&', '^'] →
      Lexeme policy [c] (.operator (String.singleton c))
  | string {inside text : List Char} : Means policy inside text →
      Lexeme policy ('"' :: (inside ++ ['"'])) (stringOf (String.ofList text))

/-- The characters that would make a lexeme of the token longer. -/
def isExtendedBy : Token → Char → Bool
  | .operand ⟨.variable, _⟩, c => isNameChar c
  | .operand ⟨.number, _⟩, c => isLatinDigit c
  | _, _ => false

/-- A text is a sequence of blanks and of lexemes, which spell the tokens in order; no lexeme could go
on with the character behind it. -/
inductive Spells (policy : EscapePolicy) : List Char → List Token → Prop where
  | nil : Spells policy [] []
  | blank {c : Char} {s : List Char} {tokens : List Token} : isBlank c = true →
      Spells policy s tokens → Spells policy (c :: s) tokens
  | token {lexeme rest : List Char} {token : Token} {tokens : List Token} :
      Lexeme policy lexeme token → (∀ c ∈ rest.head?, token.isExtendedBy c = false) →
      Spells policy rest tokens → Spells policy (lexeme ++ rest) (token :: tokens)

/-- Lexemes with blanks between any two of them. -/
inductive Spaced (policy : EscapePolicy) : List Char → List Token → Prop where
  | nil : Spaced policy [] []
  | one {lexeme : List Char} {token : Token} : Lexeme policy lexeme token →
      Spaced policy lexeme [token]
  | more {lexeme gap rest : List Char} {token next : Token} {tokens : List Token} :
      Lexeme policy lexeme token → gap ≠ [] → Blank gap → Spaced policy rest (next :: tokens) →
      Spaced policy (lexeme ++ (gap ++ rest)) (token :: next :: tokens)

variable {policy : EscapePolicy}

/-! ### Strings -/

theorem escape?_eq_some_iff {c meant : Char} : escape? c = some meant ↔ (c, meant) ∈ knownEscapes := by
  unfold escape? knownEscapes
  split <;> simp_all [eq_comm]

theorem unknownEscape_iff {c : Char} : UnknownEscape c ↔ escape? c = none := by
  rw [Option.eq_none_iff_forall_ne_some]
  exact forall_congr' fun meant => not_congr escape?_eq_some_iff.symm

/-- A backslash and a character stand for what the grammar says. -/
theorem Means.escape {c : Char} {meant inside text : List Char}
    (hescaped : escaped? policy c = some meant) (h : Means policy inside text) :
    Means policy ('\\' :: c :: inside) (meant ++ text) := by
  unfold escaped? at hescaped
  cases hc : escape? c with
  | some d =>
    rw [hc] at hescaped
    cases hescaped
    exact .known (escape?_eq_some_iff.1 hc) h
  | none =>
    rw [hc] at hescaped
    cases policy with
    | reject => cases hescaped
    | keep => cases hescaped; exact .kept rfl (unknownEscape_iff.2 hc) h
    | drop => cases hescaped; exact .dropped rfl (unknownEscape_iff.2 hc) h

/-- The inside of a string is read up to the quote behind it. -/
theorem Means.readString_eq {inside text : List Char} (h : Means policy inside text)
    (rest : List Char) : readString policy (inside ++ '"' :: rest) = .ok (text, rest) := by
  have read_escape {c : Char} {meant inside text : List Char}
      (hescaped : escaped? policy c = some meant)
      (ih : readString policy (inside ++ '"' :: rest) = .ok (text, rest)) :
      readString policy ('\\' :: c :: inside ++ '"' :: rest) = .ok (meant ++ text, rest) := by
    rw [List.cons_append, List.cons_append, readString_escape hescaped, ih]
    rfl
  induction h with
  | nil => rfl
  | plain hquote hslash _ ih =>
    rw [List.cons_append, readString_plain hquote hslash, ih]
    rfl
  | @known c meant inside text hknown _ ih =>
    have hescaped : escaped? policy c = some [meant] := by
      unfold escaped?
      rw [escape?_eq_some_iff.2 hknown]
    exact read_escape hescaped ih
  | @kept c inside text hpolicy hunknown _ ih =>
    have hescaped : escaped? policy c = some ['\\', c] := by
      unfold escaped?
      rw [hpolicy, unknownEscape_iff.1 hunknown]
    exact read_escape hescaped ih
  | @dropped c inside text hpolicy hunknown _ ih =>
    have hescaped : escaped? policy c = some [] := by
      unfold escaped?
      rw [hpolicy, unknownEscape_iff.1 hunknown]
    exact read_escape hescaped ih

/-- What means a text is the inside of a string for the splitter, too. -/
theorem Means.inside {inside text : List Char} (h : Means policy inside text) :
    Arguments.Inside inside := by
  induction h with
  | nil => exact .nil
  | plain hquote hslash _ ih => exact .plain hquote hslash ih
  | known _ _ ih => exact .escape _ ih
  | kept _ _ _ ih => exact .escape _ ih
  | dropped _ _ _ ih => exact .escape _ ih

/-- What is read as a string is the inside of one. -/
theorem exists_means_of_readString {s text rest : List Char}
    (h : readString policy s = .ok (text, rest)) :
    ∃ inside, s = inside ++ '"' :: rest ∧ Means policy inside text := by
  fun_induction readString policy s generalizing text rest with
  | case1 => cases h
  | case2 => cases h
  | case3 => cases h
  | case4 c s meant hescaped ih =>
    obtain ⟨⟨text, rest⟩, hread, heq⟩ := exists_of_map_eq_ok h
    cases heq
    obtain ⟨inside, rfl, hmeans⟩ := ih hread
    exact ⟨'\\' :: c :: inside, rfl, hmeans.escape hescaped⟩
  | case5 s hdangling hescape =>
    cases h
    exact ⟨[], rfl, .nil⟩
  | case6 c s hdangling hescape hquote ih =>
    obtain ⟨⟨text, rest⟩, hread, heq⟩ := exists_of_map_eq_ok h
    cases heq
    obtain ⟨inside, rfl, hmeans⟩ := ih hread
    have hslash : c ≠ '\\' := by
      intro hc
      cases inside with
      | nil => exact hescape _ _ hc rfl
      | cons d inside => exact hescape _ _ hc rfl
    exact ⟨c :: inside, rfl, .plain hquote hslash hmeans⟩

/-! ### Lexemes -/

theorem isOperatorChar_of_mem {c : Char} (h : c ∈ ['+', '-', '/', '*', '(', ')', '|', '&', '^']) :
    isOperatorChar c = true :=
  List.contains_iff_mem.2 h

theorem scan_blank {c : Char} (h : isBlank c = true) (s : List Char) :
    scan policy (c :: s) = scan policy s := by
  rw [scan, if_pos h]

/-- The lexer takes a whole lexeme, where no character follows that would make it longer. -/
theorem Lexeme.scan_append {lexeme rest : List Char} {token : Token} (h : Lexeme policy lexeme token)
    (hrest : ∀ c ∈ rest.head?, token.isExtendedBy c = false) :
    scan policy (lexeme ++ rest) = (scan policy rest).map (token :: ·) := by
  cases h with
  | name hne hname => exact scan_variable policy hne hname hrest
  | digits hne hdigits => exact scan_digits policy hne hdigits hrest
  | operator hmem => exact scan_operator policy (isOperatorChar_of_mem hmem) rest
  | string hmeans =>
    rw [List.cons_append, List.append_assoc]
    exact scan_string policy (hmeans.readString_eq rest)

/-- A blank ends every lexeme. -/
theorem isExtendedBy_of_isBlank (token : Token) {c : Char} (h : isBlank c = true) :
    token.isExtendedBy c = false := by
  have hname : isNameChar c = false := by
    rw [Bool.eq_false_iff]
    intro hname
    rw [(isPlain_of_isNameChar hname).1] at h
    cases h
  have hdigit : isLatinDigit c = false := by
    rw [Bool.eq_false_iff]
    intro hdigit
    rw [isNameChar_of_isLatinDigit hdigit] at hname
    cases hname
  unfold isExtendedBy
  split
  · exact hname
  · exact hdigit
  · rfl

/-- Every token that a text can hold has a lexeme. -/
theorem Readable.exists_lexeme {token : Token} (h : token.Readable) :
    ∃ lexeme, Lexeme policy lexeme token := by
  cases token with
  | operator symbol =>
    obtain ⟨c, hc, rfl⟩ := h
    exact ⟨[c], .operator (mem_of_isOperatorChar hc)⟩
  | operand o =>
    -- a variable, a number, a string
    obtain ⟨_ | _ | _, text⟩ := o
    · have hlexeme : Lexeme policy _ _ := .name h.1 h.2
      rw [String.ofList_toList] at hlexeme
      exact ⟨_, hlexeme⟩
    · have hlexeme : Lexeme policy _ _ := .digits h.1 h.2
      rw [String.ofList_toList] at hlexeme
      exact ⟨_, hlexeme⟩
    · obtain ⟨inside, -, hmeans⟩ :=
        exists_means_of_readString (readString_literal policy text.toList [])
      have hlexeme := Lexeme.string hmeans
      rw [String.ofList_toList] at hlexeme
      exact ⟨_, hlexeme⟩

/-! ### Whole texts -/

/-- The lexer finds the tokens that a text spells. -/
theorem Spells.scan_eq {s : List Char} {tokens : List Token} (h : Spells policy s tokens) :
    scan policy s = .ok tokens := by
  induction h with
  | nil => rw [scan]
  | blank hblank _ ih => rw [scan_blank hblank, ih]
  | token hlexeme hends _ ih =>
    rw [hlexeme.scan_append hends, ih]
    rfl

/-- What the lexer finds, the text spells. -/
theorem spells_of_scan {s : List Char} {tokens : List Token} (h : scan policy s = .ok tokens) :
    Spells policy s tokens := by
  fun_induction scan policy s generalizing tokens with
  | case1 => cases h; exact .nil
  | case2 c rest hblank ih => exact .blank hblank (ih h)
  | case3 => cases h
  | case4 rest text rest' hread _ ih =>
    obtain ⟨others, hothers, rfl⟩ := exists_of_map_eq_ok h
    obtain ⟨inside, rfl, hmeans⟩ := exists_means_of_readString hread
    have hspells := Spells.token (.string hmeans) (fun _ _ => rfl) (ih hothers)
    simpa using hspells
  | case5 => cases h
  | case6 rest _ _ hname ih =>
    obtain ⟨others, hothers, rfl⟩ := exists_of_map_eq_ok h
    have hspells := Spells.token (.name hname fun c => List.mem_takeWhile_imp)
      (head?_dropWhile_eq_false isNameChar rest) (ih hothers)
    rwa [List.cons_append, List.takeWhile_append_dropWhile] at hspells
  | case7 c rest _ _ _ hdigit ih =>
    obtain ⟨others, hothers, rfl⟩ := exists_of_map_eq_ok h
    have hdigits : ∀ d ∈ c :: rest.takeWhile isLatinDigit, isLatinDigit d = true :=
      List.forall_mem_cons.2 ⟨hdigit, fun d => List.mem_takeWhile_imp⟩
    have hspells := Spells.token (.digits (List.cons_ne_nil _ _) hdigits)
      (head?_dropWhile_eq_false isLatinDigit rest) (ih hothers)
    rwa [List.cons_append, List.takeWhile_append_dropWhile] at hspells
  | case8 c rest _ _ _ _ hoperator ih =>
    obtain ⟨others, hothers, rfl⟩ := exists_of_map_eq_ok h
    exact .token (.operator (mem_of_isOperatorChar hoperator)) (fun _ _ => rfl) (ih hothers)
  | case9 => cases h

/-- Blanks in front of a text spell nothing. -/
theorem Spells.gap {gap s : List Char} {tokens : List Token} (hgap : Blank gap)
    (h : Spells policy s tokens) : Spells policy (gap ++ s) tokens := by
  induction gap with
  | nil => exact h
  | cons c gap ih =>
    obtain ⟨hc, hgap⟩ := List.forall_mem_cons.1 hgap
    exact .blank hc (ih hgap)

/-- Lexemes with blanks between them spell their tokens. -/
theorem Spaced.spells {s : List Char} {tokens : List Token} (h : Spaced policy s tokens) :
    Spells policy s tokens := by
  induction h with
  | nil => exact .nil
  | @one lexeme token hlexeme =>
    have hspells := Spells.token hlexeme (fun c (hc : c ∈ [].head?) => nomatch hc) .nil
    rwa [List.append_nil] at hspells
  | @more lexeme gap rest token next tokens hlexeme hne hgap _ ih =>
    refine .token hlexeme (fun c hc => ?_) (ih.gap hgap)
    rw [List.head?_append_of_ne_nil gap hne] at hc
    exact isExtendedBy_of_isBlank token (hgap c (List.mem_of_mem_head? hc))

/-- Tokens that a text can hold are spelled by a text with blanks between their lexemes. -/
theorem exists_spaced {tokens : List Token} (h : ∀ token ∈ tokens, token.Readable) :
    ∃ s, Spaced policy s tokens := by
  induction tokens with
  | nil => exact ⟨[], .nil⟩
  | cons token tokens ih =>
    obtain ⟨htoken, htokens⟩ := List.forall_mem_cons.1 h
    obtain ⟨lexeme, hlexeme⟩ : ∃ lexeme, Lexeme policy lexeme token := htoken.exists_lexeme
    cases tokens with
    | nil => exact ⟨lexeme, .one hlexeme⟩
    | cons next tokens =>
      obtain ⟨rest, hrest⟩ := ih htokens
      have hgap : Blank [' '] := List.forall_mem_singleton.2 (by decide)
      exact ⟨_, .more hlexeme (List.cons_ne_nil _ _) hgap hrest⟩

/-- **The lexer is its grammar.**  Under every policy for unknown escapes it gives exactly the tokens
that a text spells, so no text spells two lists of tokens; a text that spells none is refused as a
text.  In particular any tokens that a text can hold have lexemes, and these with blanks between them
give the tokens back. -/
theorem scan_eq_ok_iff_spells (policy : EscapePolicy) :
    (∀ s tokens, scan policy s = .ok tokens ↔ Spells policy s tokens) ∧
      (∀ s, (∀ tokens, ¬Spells policy s tokens) →
        ∃ fault, scan policy s = .error fault ∧ fault.category? = some .lexical) ∧
      ∀ tokens, (∀ token ∈ tokens, token.Readable) →
        (∃ s, Spaced policy s tokens) ∧ ∀ s, Spaced policy s tokens → scan policy s = .ok tokens := by
  refine ⟨fun s tokens => ⟨spells_of_scan, Spells.scan_eq⟩, fun s hs => ?_, fun tokens htokens => ?_⟩
  · cases hscan : scan policy s with
    | ok tokens => exact absurd (spells_of_scan hscan) (hs tokens)
    | error fault => exact ⟨fault, rfl, category?_of_scan hscan⟩
  · exact ⟨exists_spaced htokens, fun s hspaced => hspaced.spells.scan_eq⟩

/-- A number may be followed by a variable without a blank, and an escape that is kept spells both of
its characters; where unknown escapes are refused the same text spells nothing. -/
theorem scan_eq_ok_iff_spells_kept :
    Spells .keep "12$a_1 \"x\\q\\n\"".toList
        [numberOf "12", variableOf "a_1", stringOf "x\\q\n"] ∧
      (∀ tokens, ¬Spells .reject "12$a_1 \"x\\q\\n\"".toList tokens) ∧
      (∃ fault, scan .reject "12$a_1 \"x\\q\\n\"".toList = .error fault ∧
        fault.category? = some .lexical) ∧
      (∀ token ∈ [numberOf "12", variableOf "a"], token.Readable) ∧
      ∃ s, Spaced .drop s [numberOf "12", variableOf "a"] := by
  have hkeep : scan .keep "12$a_1 \"x\\q\\n\"".toList =
      .ok [numberOf "12", variableOf "a_1", stringOf "x\\q\n"] := by decide +kernel
  have hreject : scan .reject "12$a_1 \"x\\q\\n\"".toList =
      .error (.of (.unknownEscape 'q')) := by decide +kernel
  have hnone : ∀ tokens, ¬Spells .reject "12$a_1 \"x\\q\\n\"".toList tokens := by
    intro tokens hspells
    rw [((scan_eq_ok_iff_spells .reject).1 _ _).2 hspells] at hreject
    cases hreject
  have hscan : scan .drop "12$a".toList = .ok [numberOf "12", variableOf "a"] := by decide +kernel
  have hreadable : ∀ token ∈ [numberOf "12", variableOf "a"], token.Readable :=
    readable_of_scan hscan
  exact ⟨((scan_eq_ok_iff_spells .keep).1 _ _).1 hkeep, hnone,
    (scan_eq_ok_iff_spells .reject).2.1 _ hnone, hreadable,
    ((scan_eq_ok_iff_spells .drop).2.2 _ hreadable).1⟩

end Pipeline.Token
