import Pipeline.Proofs.Expr.Precedence

/-!
# The infix grammar and what is accepted beyond it

A sentence of infix form is an operand, a sentence in parentheses, or two sentences with an operator
between them.  Every sentence is accepted, but the reader accepts more: since it does not ask whether
an operand or an operator is due, `+ 1 2`, `1 2 +` and `1 + ( ) 2` have a tree as well.

Main statement: tokens are accepted exactly where the rule of reading gives one tree, all others are
refused with a fault of the grammar, and what the accepted tokens lack to be a sentence is exactly
that operands and operators take turns.
-/

namespace Pipeline

/-- Tokens as the lexer gives them: the operators are single operator characters. -/
def Token.Lexical : Token → Prop
  | .operand _ => True
  | .operator symbol => ∃ c, Token.isOperatorChar c = true ∧ symbol = String.singleton c

namespace Expr

open OperatorFirst Token

/-- The sentences of infix form. -/
inductive Sentence : List Token → Prop where
  | operand (o : Operand) : Sentence [.operand o]
  | group {s : List Token} : Sentence s → Sentence (opening :: s ++ [closing])
  | binary {a b : List Token} (op : Operator) :
      Sentence a → Sentence b → Sentence (a ++ op.token :: b)

/-! ### Taking turns -/

/-- What is due next in a sentence. -/
inductive Due where
  | operand
  | operator
  deriving DecidableEq, Repr

/-- What is due after a token; none where the token is not due. -/
def Due.next? : Due → Token → Option Due
  | .operand, .operand _ => some .operator
  | .operand, .operator symbol => if symbol = "(" then some .operand else none
  | .operator, .operand _ => none
  | .operator, .operator symbol =>
    if symbol = ")" then some .operator else if symbol = "(" then none else some .operand

/-- What is due after tokens; none where one of them is not due. -/
def Due.after? : Due → List Token → Option Due
  | due, [] => some due
  | due, token :: rest => (due.next? token).bind (·.after? rest)

/-- Operands and operators take turns, starting and ending with an operand. -/
def TakesTurns (tokens : List Token) : Prop :=
  Due.operand.after? tokens = some .operator

instance (tokens : List Token) : Decidable (TakesTurns tokens) :=
  inferInstanceAs (Decidable (_ = _))

theorem after?_append (due : Due) (a b : List Token) :
    due.after? (a ++ b) = (due.after? a).bind (·.after? b) := by
  induction a generalizing due with
  | nil => rfl
  | cons token a ih =>
    rw [List.cons_append, Due.after?, Due.after?]
    cases due.next? token with
    | none => rfl
    | some due' => exact ih due'

theorem next?_token (due : Due) (op : Operator) :
    due.next? op.token = if due = .operator then some .operand else none := by
  cases due <;> cases op <;> rfl

theorem takesTurns_of_sentence {s : List Token} (h : Sentence s) : TakesTurns s := by
  unfold TakesTurns
  induction h with
  | operand o => rfl
  | @group s _ ih =>
    show (Due.operand.after? (s ++ [closing])) = _
    rw [after?_append, ih]
    rfl
  | @binary a b op _ _ iha ihb =>
    rw [after?_append, iha, Option.bind_some, Due.after?, next?_token]
    exact ihb

/-- Without operators outside of parentheses there is nothing to read where an operator is due. -/
theorem eq_nil_of_reads_zero {rank : Nat} {s : List Token} {before after : List Expr} {due : Due}
    (h : Reads rank s before after) (hrank : rank = 0)
    (hdue : Due.operator.after? s = some due) : s = [] := by
  cases h with
  | nil => rfl
  | operand o _ => cases hdue
  | group _ _ => cases hdue
  | operator op _ _ _ _ => exact absurd hrank (Nat.ne_of_gt (rank_pos op))

/-- What can be read and takes turns is a sentence. -/
theorem sentence_of_reads {rank : Nat} {s : List Token} {before after : List Expr}
    (h : Reads rank s before after) (hturns : TakesTurns s) : Sentence s := by
  unfold TakesTurns at hturns
  induction h with
  | nil => cases hturns
  | @operand s before after o hs _ =>
    obtain rfl := eq_nil_of_reads_zero hs rfl hturns
    exact .operand o
  | @group rank s inside before between after hs _ _ ihinside =>
    replace hturns : Due.operand.after? (inside ++ closing :: s) = some .operator := hturns
    rw [after?_append] at hturns
    cases hdue : Due.operand.after? inside with
    | none =>
      rw [hdue] at hturns
      cases hturns
    | some due =>
      rw [hdue] at hturns
      cases due with
      | operand => cases hturns
      | operator =>
        obtain rfl := eq_nil_of_reads_zero hs rfl hturns
        exact .group (ihinside hdue)
  | @operator i j a b before between after x y op _ _ _ _ ihb iha =>
    rw [after?_append] at hturns
    cases hdue : Due.operand.after? a with
    | none =>
      rw [hdue] at hturns
      cases hturns
    | some due =>
      rw [hdue, Option.bind_some, Due.after?, next?_token] at hturns
      cases due with
      | operand => cases hturns
      | operator => exact .binary op (iha hdue) (ihb hturns)

/-! ### Every sentence is accepted -/

/-- An operator and a closed part behind a writing make a writing of another tree: the operator goes
down on the right as long as the operators there bind more loosely. -/
theorem written_append_operator {t x : Expr} {level : Nat} {s b : List Token} (op : Operator)
    (h : Written t level s) (hx : Written x 0 b) :
    ∃ t', Written t' (max level op.level) (s ++ op.token :: b) := by
  induction h with
  | operand o =>
    rw [Nat.zero_max]
    exact ⟨_, .binary op (.operand o) hx (Nat.zero_le _) op.level_pos⟩
  | group hs _ =>
    rw [Nat.zero_max]
    exact ⟨_, .binary op (.group hs) hx (Nat.zero_le _) op.level_pos⟩
  | @binary left right i j a c op' hleft hright hi hj _ ihright =>
    rcases Nat.lt_or_ge op.level op'.level with hlt | hge
    · obtain ⟨t', ht'⟩ := ihright
      rw [Nat.max_eq_left (Nat.le_of_lt hlt), List.append_assoc, List.cons_append]
      exact ⟨_, .binary op' hleft ht' hi (Nat.max_lt.2 ⟨hj, hlt⟩)⟩
    · rw [Nat.max_eq_right hge]
      exact ⟨_, .binary op (.binary op' hleft hright hi hj) hx hge op.level_pos⟩

/-- A sentence is a writing of some tree, also behind another writing and an operator. -/
theorem written_of_sentence {s : List Token} (h : Sentence s) :
    (∃ t level, Written t level s) ∧
      ∀ {t level a} (op : Operator), Written t level a →
        ∃ t' level', Written t' level' (a ++ op.token :: s) := by
  induction h with
  | operand o =>
    refine ⟨⟨_, _, .operand o⟩, ?_⟩
    intro t level a op ha
    obtain ⟨t', ht'⟩ := written_append_operator op ha (.operand o)
    exact ⟨t', _, ht'⟩
  | group _ ih =>
    obtain ⟨⟨x, level, hx⟩, -⟩ := ih
    refine ⟨⟨x, _, .group hx⟩, ?_⟩
    intro t level a op ha
    obtain ⟨t', ht'⟩ := written_append_operator op ha (.group hx)
    exact ⟨t', _, ht'⟩
  | binary op' _ _ ihb ihc =>
    obtain ⟨⟨x, level, hx⟩, hfront⟩ := ihb
    refine ⟨ihc.2 op' hx, ?_⟩
    intro t level a op ha
    obtain ⟨t', level', ht'⟩ := hfront op ha
    rw [← List.cons_append, ← List.append_assoc]
    exact ihc.2 op' ht'

/-! ### Faults of the grammar -/

theorem category?_of_endGroup {stack : List Waiting} {output : List Token} {fault : Fault}
    (h : endGroup stack output = .error fault) : fault.category? = some .grammar := by
  fun_induction endGroup stack output with
  | case1 => cases h; rfl
  | case2 => cases h
  | case3 op stack output ih => exact ih h

theorem category?_of_finish {stack : List Waiting} {output : List Token} {fault : Fault}
    (h : finish stack output = .error fault) : fault.category? = some .grammar := by
  fun_induction finish stack output with
  | case1 => cases h
  | case2 => cases h; rfl
  | case3 op stack output ih => exact ih h

theorem category?_of_assemble {queue : List Token} {fault : Fault}
    (h : assemble queue = .error fault) : fault.category? = some .grammar := by
  fun_induction assemble queue with
  | case1 => cases h; rfl
  | case2 => cases h
  | case3 symbol queue fault' hfault ih => cases h; exact ih hfault
  | case4 symbol queue left rest h₁ hleft fault' hfault ihl ihr => cases h; exact ihr hfault
  | case5 => cases h

/-- An operator of the lexer is a parenthesis or one of the seven that have a rank. -/
theorem lexical_operator {symbol : String} (h : (Token.operator symbol).Lexical) :
    symbol = ")" ∨ symbol = "(" ∨ ∃ op : Operator, op.symbol = symbol := by
  obtain ⟨c, hc, rfl⟩ := h
  have hmem := mem_of_isOperatorChar hc
  simp only [List.mem_cons, List.not_mem_nil, or_false] at hmem
  rcases hmem with rfl | rfl | rfl | rfl | rfl | rfl | rfl | rfl | rfl
  · exact .inr (.inr ⟨.plus, rfl⟩)
  · exact .inr (.inr ⟨.minus, rfl⟩)
  · exact .inr (.inr ⟨.over, rfl⟩)
  · exact .inr (.inr ⟨.times, rfl⟩)
  · exact .inr (.inl rfl)
  · exact .inl rfl
  · exact .inr (.inr ⟨.or, rfl⟩)
  · exact .inr (.inr ⟨.and, rfl⟩)
  · exact .inr (.inr ⟨.xor, rfl⟩)

theorem category?_of_step {token : Token} {s : State} {fault : Fault} (htoken : token.Lexical)
    (h : step token s = .error fault) : fault.category? = some .grammar := by
  cases token with
  | operand o => cases h
  | operator symbol =>
    rcases lexical_operator htoken with rfl | rfl | ⟨op, rfl⟩
    · cases h
    · exact category?_of_endGroup h
    · rw [show Token.operator op.symbol = op.token from rfl, step_operator] at h
      cases h

theorem category?_of_pass {tokens : List Token} {fault : Fault}
    (htokens : ∀ token ∈ tokens, token.Lexical) (h : pass tokens = .error fault) :
    fault.category? = some .grammar := by
  induction tokens with
  | nil => cases h
  | cons token tokens ih =>
    rw [OperatorFirst.pass] at h
    cases hrest : pass tokens with
    | error fault' =>
      rw [hrest] at h
      cases h
      exact ih (fun t ht => htokens t (List.mem_cons_of_mem _ ht)) hrest
    | ok s =>
      rw [hrest] at h
      exact category?_of_step (htokens token List.mem_cons_self) h

theorem category?_of_operatorFirst {tokens : List Token} {fault : Fault}
    (htokens : ∀ token ∈ tokens, token.Lexical) (h : operatorFirst tokens = .error fault) :
    fault.category? = some .grammar := by
  unfold operatorFirst at h
  cases hpass : pass tokens with
  | error fault' =>
    rw [hpass] at h
    cases h
    exact category?_of_pass htokens hpass
  | ok s =>
    rw [hpass] at h
    exact category?_of_finish h

/-- Tokens of the lexer without a tree are a fault of the grammar. -/
theorem category?_of_ofTokens {tokens : List Token} {fault : Fault}
    (htokens : ∀ token ∈ tokens, token.Lexical) (h : ofTokens tokens = .error fault) :
    fault.category? = some .grammar := by
  unfold ofTokens at h
  split at h
  · rename_i hfault
    cases h
    exact category?_of_operatorFirst htokens hfault
  · cases h
    rfl
  · split at h
    · rename_i hfault
      cases h
      exact category?_of_assemble hfault
    · cases h
    · cases h
      rfl

/-! ### What is accepted -/

/-- **The exact condition of acceptance.**  Tokens of the lexer have a tree exactly where the rule of
reading gives that tree alone, and are refused with a fault of the grammar otherwise.  Among those
that have a tree, the sentences are exactly those in which operands and operators take turns. -/
theorem accepted_iff_reads {tokens : List Token} (htokens : ∀ token ∈ tokens, token.Lexical) :
    (∀ tree, ofTokens tokens = .ok tree ↔ ∃ rank, Reads rank tokens [] [tree]) ∧
      ((∀ tree, ofTokens tokens ≠ .ok tree) →
        ∃ fault, ofTokens tokens = .error fault ∧ fault.category? = some .grammar) ∧
      (Sentence tokens ↔ (∃ tree, ofTokens tokens = .ok tree) ∧ TakesTurns tokens) := by
  refine ⟨fun tree => ofTokens_eq_ok_iff_reads, ?_, ?_, ?_⟩
  · intro hnone
    cases h : ofTokens tokens with
    | ok tree => exact absurd h (hnone tree)
    | error fault => exact ⟨fault, rfl, category?_of_ofTokens htokens h⟩
  · intro h
    obtain ⟨⟨tree, level, hwritten⟩, -⟩ := written_of_sentence h
    have hreads := reads_of_written hwritten []
    exact ⟨⟨tree, ofTokens_eq_ok_iff_reads.2 ⟨level, hreads⟩⟩, takesTurns_of_sentence h⟩
  · rintro ⟨⟨tree, htree⟩, hturns⟩
    obtain ⟨rank, hreads⟩ := ofTokens_eq_ok_iff_reads.1 htree
    exact sentence_of_reads hreads hturns

/-- An operator in front of its two operands is accepted: `+ 1 2`. -/
theorem accepted_iff_reads_operator_in_front :
    let tokens := [.operator "+", numberOf "1", numberOf "2"]
    (∀ token ∈ tokens, token.Lexical) ∧
      ofTokens tokens =
        .ok (.binary "+" (.operand ⟨.number, "1"⟩) (.operand ⟨.number, "2"⟩)) ∧
      ¬ Sentence tokens := by
  intro tokens
  have hplus : (Token.operator "+").Lexical := ⟨'+', by decide, rfl⟩
  have htokens : ∀ token ∈ tokens, token.Lexical :=
    List.forall_mem_cons.2 ⟨hplus, List.forall_mem_cons.2 ⟨trivial, List.forall_mem_cons.2
      ⟨trivial, fun _ h => nomatch h⟩⟩⟩
  obtain ⟨htree, -, hsentence⟩ := accepted_iff_reads htokens
  refine ⟨htokens, (htree _).2 ⟨2, ?_⟩, ?_⟩
  · exact .operator (a := []) .plus (.operand _ (.operand _ (.nil []))) (.nil _)
      (by decide) (by decide)
  · intro h
    exact absurd (hsentence.1 h).2 (by decide)

/-- An empty group is passed over: `1 + ( ) 2` is accepted, and is no sentence. -/
theorem accepted_empty_group :
    let tokens := [numberOf "1", .operator "+", opening, closing, numberOf "2"]
    ofTokens tokens =
        .ok (.binary "+" (.operand ⟨.number, "1"⟩) (.operand ⟨.number, "2"⟩)) ∧
      ¬ Sentence tokens := by
  intro tokens
  constructor
  · have htwo : Reads 0 [opening, closing, numberOf "2"] [] [.operand ⟨.number, "2"⟩] :=
      .group (.operand _ (.nil [])) (.nil _)
    have hone : Reads 0 [numberOf "1"] [.operand ⟨.number, "2"⟩]
        [.operand ⟨.number, "1"⟩, .operand ⟨.number, "2"⟩] := .operand _ (.nil _)
    exact ofTokens_eq_ok_iff_reads.2 ⟨2, .operator .plus htwo hone (by decide) (by decide)⟩
  · intro h
    exact absurd (takesTurns_of_sentence h) (by decide)

end Expr

end Pipeline
