import Pipeline.Proofs.Expr.Grammar
import Pipeline.Proofs.Expr.Literals
import Pipeline.Proofs.Statement.Balance
import Pipeline.Proofs.Token.Spelling

/-!
# Literals in place of variables

A variable in the text of an argument can be replaced by the literal of its value.  The replacement
is done on the text, where a literal may come to stand next to any character; it is then followed
through the three forms of the argument:

* `scan_replaceText` : the tokens are those of the first text, with those of the literal in place of
  the variable, since what follows an operand in a sentence ends a name and a number.
* `written_substitute` : they are a writing of the tree with the tree of the literal in it.
* `eval_substitute` : that tree has the value that the first one has where the variable is bound.

Main statement: `eval_replaceText`.
-/

namespace Pipeline.Expr

open Arguments Text Token

/-! ### The replacement -/

/-- The text of an argument with another text in place of every token of a variable.  What looks like
a variable inside a string is no token. -/
def replaceText (name text : List Char) : List Char → List Char
  | [] => []
  | c :: rest =>
    if c = '"' then
      match _h : closeQuote rest with
      | none => c :: rest
      | some (inside, rest') => c :: (inside ++ replaceText name text rest')
    else if c = '$' then
      (if rest.takeWhile isNameChar = name then text else c :: rest.takeWhile isNameChar) ++
        replaceText name text (rest.dropWhile isNameChar)
    else c :: replaceText name text rest
termination_by s => s.length
decreasing_by
  · have := length_closeQuote _h
    simp; omega
  · have := length_dropWhile_le isNameChar rest
    simp; omega
  · simp

/-- A token, or others in place of a variable. -/
def replaceToken (name : String) (tokens : List Token) (token : Token) : List Token :=
  if token = variableOf name then tokens else [token]

theorem replaceToken_operator (name symbol : String) (tokens : List Token) :
    replaceToken name tokens (.operator symbol) = [.operator symbol] :=
  if_neg nofun

theorem replaceToken_of_ne {name : String} {o : Operand} (h : o ≠ ⟨.variable, name⟩)
    (tokens : List Token) : replaceToken name tokens (.operand o) = [.operand o] :=
  if_neg fun heq => h (Token.operand.inj heq)

/-- A tree with another one in place of a variable. -/
def substitute (name : String) (other : Expr) : Expr → Expr
  | .operand o => if o = ⟨.variable, name⟩ then other else .operand o
  | .binary symbol left right =>
    .binary symbol (substitute name other left) (substitute name other right)

/-! ### On the text -/

section

variable {policy : EscapePolicy} {name text : List Char}

theorem replaceText_ordinary {c : Char} (hquote : c ≠ '"') (hsign : c ≠ '$') (rest : List Char) :
    replaceText name text (c :: rest) = c :: replaceText name text rest := by
  rw [replaceText, if_neg hquote, if_neg hsign]

theorem replaceText_front {front : List Char} (h : ∀ c ∈ front, c ≠ '"' ∧ c ≠ '$')
    (rest : List Char) :
    replaceText name text (front ++ rest) = front ++ replaceText name text rest := by
  induction front with
  | nil => rfl
  | cons c front ih =>
    obtain ⟨⟨hquote, hsign⟩, hfront⟩ := List.forall_mem_cons.1 h
    rw [List.cons_append, replaceText_ordinary hquote hsign, ih hfront]
    rfl

theorem replaceText_string {s inside rest : List Char} (h : closeQuote s = some (inside, rest)) :
    replaceText name text ('"' :: s) = '"' :: (inside ++ replaceText name text rest) := by
  rw [replaceText, if_pos rfl]
  split
  · rename_i hnone
    rw [h] at hnone
    cases hnone
  · rename_i hsome
    rw [h] at hsome
    cases hsome
    rfl

theorem replaceText_variable (rest : List Char) :
    replaceText name text ('$' :: rest) =
      (if rest.takeWhile isNameChar = name then text else '$' :: rest.takeWhile isNameChar) ++
        replaceText name text (rest.dropWhile isNameChar) := by
  rw [replaceText, if_neg (by decide), if_pos rfl]

/-- A string that the lexer reads has an end for the splitter, and means the same whatever stands
behind it. -/
theorem exists_inside_of_readString {s meant rest : List Char}
    (h : readString policy s = .ok (meant, rest)) :
    ∃ inside, closeQuote s = some (inside, rest) ∧
      ∀ tail, readString policy (inside ++ tail) = .ok (meant, tail) := by
  obtain ⟨inside, rfl, hmeans⟩ := exists_means_of_readString h
  refine ⟨inside ++ ['"'], hmeans.inside.closeQuote_eq rest, fun tail => ?_⟩
  rw [List.append_assoc]
  exact hmeans.readString_eq tail

/-- Where an operator is due, the text goes on with a blank or with an operator. -/
theorem isBlank_or_isOperatorChar {c : Char} {rest : List Char} {tokens : List Token}
    (hscan : scan policy (c :: rest) = .ok tokens)
    (hturns : Due.operator.after? tokens = some .operator) :
    isBlank c = true ∨ isOperatorChar c = true := by
  generalize htext : c :: rest = s at hscan
  fun_induction scan policy s with
  | case1 => cases htext
  | case2 d rest' hblank => cases htext; exact .inl hblank
  | case8 d rest' _ _ _ _ hoperator => cases htext; exact .inr hoperator
  | case4 | case6 | case7 =>
    -- An operand is not due.
    obtain ⟨others, -, rfl⟩ := exists_of_map_eq_ok hscan
    cases hturns
  | case3 | case5 | case9 => cases hscan

/-- Blanks and operators begin no string and no variable, and go on with no name. -/
theorem separates {c : Char} (h : isBlank c = true ∨ isOperatorChar c = true) :
    c ≠ '"' ∧ c ≠ '$' ∧ isNameChar c = false := by
  rcases h with hblank | hoperator
  · refine ⟨?_, ?_, ?_⟩
    · rintro rfl
      revert hblank
      decide
    · rintro rfl
      revert hblank
      decide
    · rw [Bool.eq_false_iff]
      intro hname
      rw [(isPlain_of_isNameChar hname).1] at hblank
      cases hblank
  · have hmem := mem_of_isOperatorChar hoperator
    simp only [List.mem_cons, List.not_mem_nil, or_false] at hmem
    rcases hmem with rfl | rfl | rfl | rfl | rfl | rfl | rfl | rfl | rfl <;> decide

/-- Where an operator is due, no name and no number goes on. -/
theorem endsNames_replaceText {s : List Char} {tokens : List Token}
    (hscan : scan policy s = .ok tokens)
    (hturns : Due.operator.after? tokens = some .operator) :
    EndsNames (replaceText name text s) := by
  cases s with
  | nil =>
    rw [replaceText]
    exact fun c hc => nomatch hc
  | cons c rest =>
    obtain ⟨hquote, hsign, hname⟩ :=
      separates (isBlank_or_isOperatorChar hscan hturns)
    rw [replaceText_ordinary hquote hsign]
    exact endsNames_cons hname _

end

variable {policy : EscapePolicy} {other : Expr} {name : String}

/-- What follows an operand in a sentence. -/
theorem after?_of_operand {due : Due} {o : Operand} {tokens : List Token}
    (h : due.after? (.operand o :: tokens) = some .operator) :
    Due.operator.after? tokens = some .operator := by
  cases due with
  | operand => exact h
  | operator => cases h

/-- The tokens behind the replacement: those of the other tree stand in place of the variable. -/
theorem scan_replaceText (hother : other.Writable) {due : Due} {s : List Char} {tokens : List Token}
    (hscan : scan policy s = .ok tokens) (hturns : due.after? tokens = some .operator) :
    scan policy (replaceText name.toList other.source s) =
      .ok (tokens.flatMap (replaceToken name other.grouped)) := by
  fun_induction scan policy s generalizing tokens due with
  | case1 =>
    cases hscan
    rw [replaceText, scan]
    rfl
  | case2 c rest hblank ih =>
    obtain ⟨hquote, hsign, -⟩ := separates (.inl hblank)
    rw [replaceText_ordinary hquote hsign, scan, if_pos hblank]
    exact ih hscan hturns
  | case4 rest meant rest' hread hblank ih =>
    obtain ⟨others, hothers, rfl⟩ := exists_of_map_eq_ok hscan
    obtain ⟨inside, hclose, htail⟩ := exists_inside_of_readString hread
    rw [replaceText_string hclose, scan_string policy (htail _), ih hothers (after?_of_operand hturns)]
    rfl
  | case6 rest _ _ hne ih =>
    obtain ⟨others, hothers, rfl⟩ := exists_of_map_eq_ok hscan
    have hturns := after?_of_operand hturns
    have hends : EndsNames (replaceText name.toList other.source (rest.dropWhile isNameChar)) :=
      endsNames_replaceText hothers hturns
    have hnames : ∀ c ∈ rest.takeWhile isNameChar, isNameChar c = true := fun c hc =>
      List.mem_takeWhile_imp hc
    rw [replaceText_variable, List.flatMap_cons]
    by_cases hfound : rest.takeWhile isNameChar = name.toList
    · rw [if_pos hfound, scan_source hother policy hends, ih hothers hturns, hfound,
        String.ofList_toList, replaceToken, if_pos rfl]
      rfl
    · have hname : (⟨.variable, String.ofList (rest.takeWhile isNameChar)⟩ : Operand) ≠
          ⟨.variable, name⟩ := by
        intro heq
        rw [← (Operand.mk.inj heq).2, String.toList_ofList] at hfound
        exact hfound rfl
      rw [if_neg hfound, variableOf, replaceToken_of_ne hname, List.cons_append,
        scan_variable policy hne hnames hends, ih hothers hturns]
      rfl
  | case7 c rest hblank hquote hsign hdigit ih =>
    obtain ⟨others, hothers, rfl⟩ := exists_of_map_eq_ok hscan
    have hturns := after?_of_operand hturns
    have hends : EndsNames (replaceText name.toList other.source (rest.dropWhile isLatinDigit)) :=
      endsNames_replaceText hothers hturns
    have hdigits : ∀ d ∈ c :: rest.takeWhile isLatinDigit, isLatinDigit d = true :=
      List.forall_mem_cons.2 ⟨hdigit, fun d hd => List.mem_takeWhile_imp hd⟩
    have hordinary : ∀ d ∈ c :: rest.takeWhile isLatinDigit, d ≠ '"' ∧ d ≠ '$' := fun d hd =>
      ⟨Numeral.ne_of_isLatinDigit (hdigits d hd) (by decide),
        Numeral.ne_of_isLatinDigit (hdigits d hd) (by decide)⟩
    have hsplit : c :: rest = c :: rest.takeWhile isLatinDigit ++ rest.dropWhile isLatinDigit := by
      rw [List.cons_append, List.takeWhile_append_dropWhile]
    rw [hsplit, replaceText_front hordinary,
      scan_number policy (List.cons_ne_nil _ _) hdigits hends, ih hothers hturns]
    rfl
  | case8 c rest _ hquote hsign _ hoperator ih =>
    obtain ⟨others, hothers, rfl⟩ := exists_of_map_eq_ok hscan
    obtain ⟨due', -, hturns⟩ := Option.bind_eq_some_iff.1 hturns
    rw [replaceText_ordinary hquote hsign, scan_operator policy hoperator, ih hothers hturns]
    rfl
  | case3 | case5 | case9 => cases hscan

/-! ### On the tree -/

/-- A writing of a tree becomes one of the tree with the replacement in it. -/
theorem written_substitute (hother : other.Writable) {t : Expr} {level : Nat} {tokens : List Token}
    (h : Written t level tokens) :
    Written (substitute name other t) level (tokens.flatMap (replaceToken name other.grouped)) := by
  induction h with
  | operand o =>
    rw [List.flatMap_singleton, substitute]
    by_cases ho : o = ⟨.variable, name⟩
    · rw [if_pos ho, ho, replaceToken, variableOf, if_pos rfl]
      exact written_grouped (overOperators_of_writable hother)
    · rw [if_neg ho, replaceToken_of_ne ho]
      exact .operand o
  | @group t level s _ ih =>
    rw [List.flatMap_append, List.flatMap_cons, List.flatMap_singleton, opening, closing,
      replaceToken_operator, replaceToken_operator]
    exact .group ih
  | @binary left right i j a b op _ _ hi hj ihl ihr =>
    rw [List.flatMap_append, List.flatMap_cons, Operator.token, replaceToken_operator]
    exact .binary op ihl ihr hi hj

/-- The replacement has the value that the variable is bound to. -/
theorem eval_substitute {strict : Bool} {bindings : Table Value} {value : Value}
    (hvalue : other.eval strict bindings = .ok value) (t : Expr) :
    (substitute name other t).eval strict bindings =
      t.eval strict (bindings.insert name value) := by
  induction t with
  | operand o =>
    rw [substitute]
    by_cases ho : o = ⟨.variable, name⟩
    · rw [if_pos ho, ho, hvalue, eval, Table.find?_insert, if_pos rfl]
    · rw [if_neg ho]
      -- a variable, a number, a string
      obtain ⟨_ | _ | _, text⟩ := o
      · have hname : text ≠ name := by
          rintro rfl
          exact ho rfl
        rw [eval, eval, Table.find?_insert, if_neg hname]
      · rfl
      · rfl
  | binary symbol left right ihl ihr => rw [substitute, eval, eval, ihl, ihr]

/-! ### The whole replacement -/

/-- A text that is a sentence of infix form. -/
def WellFormed (policy : EscapePolicy) (s : List Char) : Prop :=
  ∃ tokens, scan policy s = .ok tokens ∧ Sentence tokens

/-- **Literals can stand for variables.**  A string, or a number that is not too long, has a literal.
With the literal in place of every token of a variable a well-formed text is still read, and what it
is read as has everywhere the result that the first text has where the variable is bound to the value.
The literal alone is read as something that always has the value. -/
theorem eval_replaceText {policy : EscapePolicy} {s : List Char} (hs : WellFormed policy s)
    (name : String) {value : Value} (hvalue : value.HasLiteral) :
    ∃ (text : String) (t replaced alone : Expr),
      (∀ store : Store, (store.tree value).literal = .ok text) ∧
      ofText policy s = .ok t ∧
      ofText policy (replaceText name.toList text.toList s) = .ok replaced ∧
      (∀ strict bindings,
        replaced.eval strict bindings = t.eval strict (bindings.insert name value)) ∧
      ofText policy text.toList = .ok alone ∧
      ∀ strict bindings, alone.eval strict bindings = .ok value := by
  obtain ⟨tokens, hscan, hsentence⟩ := hs
  obtain ⟨alone, hwritable, hliteral, heval⟩ := exists_tree_of_hasLiteral hvalue
  obtain ⟨⟨t, level, hwritten⟩, -⟩ := written_of_sentence hsentence
  refine ⟨String.ofList alone.source, t, substitute name alone t, alone, hliteral, ?_, ?_, ?_, ?_,
    heval⟩
  · rw [ofText, hscan]
    exact ofTokens_eq_ok_iff_reads.2 ⟨level, reads_of_written hwritten []⟩
  · rw [String.toList_ofList, ofText,
      scan_replaceText hwritable hscan (takesTurns_of_sentence hsentence)]
    exact ofTokens_eq_ok_iff_reads.2
      ⟨level, reads_of_written (written_substitute hwritable hwritten) []⟩
  · exact fun strict bindings => eval_substitute (heval strict bindings) t
  · rw [String.toList_ofList]
    exact ofText_source hwritable policy

/-- A negative number in place of `$x` stays one operand of the product `$x*2`. -/
theorem eval_replaceText_negative :
    WellFormed .keep "$x*2".toList ∧ (Value.number (-3)).HasLiteral ∧
      replaceText ['x'] "(0-3)".toList "$x*2".toList = "(0-3)*2".toList ∧
      ∃ replaced, ofText .keep "(0-3)*2".toList = .ok replaced ∧
        replaced.eval true {} = .ok (.number (-6)) := by
  have hends : EndsNames [] := fun c hc => nomatch hc
  have hscan : scan .keep "$x*2".toList = .ok [variableOf "x", Operator.times.token, numberOf "2"] := by
    show scan .keep ('$' :: (['x'] ++ '*' :: (['2'] ++ []))) = _
    rw [scan_variable .keep (by decide) (List.forall_mem_singleton.2 rfl)
        (endsNames_cons (by decide) _), scan_operator .keep (by decide),
      scan_number .keep (by decide) (List.forall_mem_singleton.2 rfl) hends, scan]
    rfl
  have hwritten : Written (.binary "*" (.operand ⟨.variable, "x"⟩) (.operand ⟨.number, "2"⟩)) 1
      [variableOf "x", Operator.times.token, numberOf "2"] :=
    .binary .times (.operand _) (.operand _) (by decide) (by decide)
  have hs : WellFormed .keep "$x*2".toList :=
    ⟨_, hscan, .binary .times (.operand _) (.operand _)⟩
  have hvalue : (Value.number (-3)).HasLiteral := Numeral.lt_bound (n := 3) (by decide)
  have hreplace : replaceText ['x'] "(0-3)".toList "$x*2".toList = "(0-3)*2".toList := by
    show replaceText ['x'] "(0-3)".toList ('$' :: ['x', '*', '2']) = _
    rw [replaceText_variable, if_pos (by decide)]
    show "(0-3)".toList ++ replaceText _ _ ['*', '2'] = _
    rw [replaceText_ordinary (by decide) (by decide), replaceText_ordinary (by decide) (by decide),
      replaceText]
    rfl
  have hliteral : (({} : Store).tree (.number (-3))).literal = .ok "(0-3)" := by
    show (Literal.ofInt (-(3 : Nat))).mapError Fault.numeral = _
    rw [Literal.ofInt_neg (by decide) (Numeral.lt_bound (by decide))]
    rfl
  obtain ⟨text, t, replaced, -, htext, ht, hreplaced, heval, -⟩ := eval_replaceText hs "x" hvalue
  obtain rfl : "(0-3)" = text := Except.ok.inj (hliteral.symm.trans (htext {}))
  have hproduct : ofText .keep "$x*2".toList =
      .ok (.binary "*" (.operand ⟨.variable, "x"⟩) (.operand ⟨.number, "2"⟩)) := by
    rw [ofText, hscan]
    exact ofTokens_eq_ok_iff_reads.2 ⟨_, reads_of_written hwritten []⟩
  obtain rfl := Except.ok.inj (hproduct.symm.trans ht)
  refine ⟨hs, hvalue, hreplace, replaced, ?_, ?_⟩
  · rw [← hreplace]
    exact hreplaced
  · rw [heval]
    rfl

end Pipeline.Expr
