import Pipeline.Proofs.Expr.Grammar
import Pipeline.Proofs.Expr.Printing
import Pipeline.Proofs.Faults
import Pipeline.Statement

/-!
# What is read from lines

Whatever a text is, reading it ends in one of two ways.  Either every argument is a tree that could
have been written, and every statement has the number of its line; or there is a fault of the script,
on a line of the text.  In particular no token is met that the order of operators does not know.

* `Expr.writable_of_ofText`, `Expr.isScript_of_ofText` : the two ends for an argument.
* `Statement.readLinesFrom_sound` : the two ends for the lines of a text.
-/

namespace Pipeline

open Text

/-! ### Tokens -/

/-- The tokens that a text can hold. -/
def Token.Readable : Token → Prop
  | .operand o => o.Writable
  | .operator symbol => (Token.operator symbol).Lexical

theorem Token.Readable.lexical {token : Token} (h : token.Readable) : token.Lexical := by
  cases token with
  | operand o => trivial
  | operator symbol => exact h

namespace Token

theorem category?_of_readString {policy : EscapePolicy} {s : List Char} {fault : Fault}
    (h : readString policy s = .error fault) : fault.category? = some .lexical := by
  fun_induction readString policy s with
  | case1 => cases h; rfl
  | case2 => cases h; rfl
  | case3 => cases h; rfl
  | case4 c rest meant _ ih => exact ih (eq_error_of_map h)
  | case5 => cases h
  | case6 c rest _ _ _ ih => exact ih (eq_error_of_map h)

/-- What is read next is a token that a text can hold, and so are the others. -/
theorem readable_of_map {token : Token} {x : Except Fault (List Token)} {tokens : List Token}
    (htoken : token.Readable) (hx : ∀ rest, x = .ok rest → ∀ token ∈ rest, token.Readable)
    (h : x.map (token :: ·) = .ok tokens) : ∀ token ∈ tokens, token.Readable := by
  obtain ⟨rest, hrest, rfl⟩ := exists_of_map_eq_ok h
  exact List.forall_mem_cons.2 ⟨htoken, hx rest hrest⟩

theorem readable_variable {name : List Char} (hne : name ≠ []) (h : ∀ c ∈ name, isNameChar c = true) :
    (variableOf (String.ofList name)).Readable := by
  show (String.ofList name).toList ≠ [] ∧ ∀ c ∈ (String.ofList name).toList, isNameChar c = true
  rw [String.toList_ofList]
  exact ⟨hne, h⟩

theorem readable_number {digits : List Char} (hne : digits ≠ [])
    (h : ∀ c ∈ digits, isLatinDigit c = true) : (numberOf (String.ofList digits)).Readable := by
  show (String.ofList digits).toList ≠ [] ∧
    ∀ c ∈ (String.ofList digits).toList, isLatinDigit c = true
  rw [String.toList_ofList]
  exact ⟨hne, h⟩

theorem readable_of_scan {policy : EscapePolicy} {s : List Char} {tokens : List Token}
    (h : scan policy s = .ok tokens) : ∀ token ∈ tokens, token.Readable := by
  fun_induction scan policy s generalizing tokens with
  | case1 => cases h; exact fun _ hmem => nomatch hmem
  | case2 c rest _ ih => exact ih h
  | case3 => cases h
  | case4 rest text rest' _ _ ih =>
    have hstring : (stringOf (String.ofList text)).Readable := trivial
    exact readable_of_map hstring (fun _ hrest => ih hrest) h
  | case5 => cases h
  | case6 rest _ _ hname ih =>
    exact readable_of_map (readable_variable hname (List.all_eq_true.1 List.all_takeWhile))
      (fun _ hrest => ih hrest) h
  | case7 c rest _ _ _ hdigit ih =>
    have hdigits : ∀ d ∈ c :: rest.takeWhile isLatinDigit, isLatinDigit d = true :=
      List.forall_mem_cons.2 ⟨hdigit, List.all_eq_true.1 List.all_takeWhile⟩
    exact readable_of_map (readable_number (List.cons_ne_nil _ _) hdigits) (fun _ hrest => ih hrest) h
  | case8 c rest _ _ _ _ hoperator ih =>
    have hlexical : (Token.operator (String.singleton c)).Readable := ⟨c, hoperator, rfl⟩
    exact readable_of_map hlexical (fun _ hrest => ih hrest) h
  | case9 => cases h

/-- An argument that the lexer refuses is at fault as a text. -/
theorem category?_of_scan {policy : EscapePolicy} {s : List Char} {fault : Fault}
    (h : scan policy s = .error fault) : fault.category? = some .lexical := by
  fun_induction scan policy s with
  | case1 => cases h
  | case2 c rest _ ih => exact ih h
  | case3 rest fault' hfault => cases h; exact category?_of_readString hfault
  | case4 rest text rest' _ _ ih => exact ih (eq_error_of_map h)
  | case5 => cases h; rfl
  | case6 rest _ _ _ ih => exact ih (eq_error_of_map h)
  | case7 c rest _ _ _ _ ih => exact ih (eq_error_of_map h)
  | case8 c rest _ _ _ _ _ ih => exact ih (eq_error_of_map h)
  | case9 => cases h; rfl

end Token

/-! ### Trees -/

namespace Expr

open Token

/-- Trees that are read from tokens which a text can hold can be written. -/
theorem writable_of_reads {rank : Nat} {s : List Token} {before after : List Expr}
    (h : Reads rank s before after) (hs : ∀ token ∈ s, token.Readable)
    (hbefore : ∀ t ∈ before, t.Writable) : ∀ t ∈ after, t.Writable := by
  induction h with
  | nil => exact hbefore
  | operand o _ ih =>
    obtain ⟨ho, hrest⟩ := List.forall_mem_cons.1 hs
    exact List.forall_mem_cons.2 ⟨ho, ih hrest hbefore⟩
  | group _ _ ihs ihinside =>
    obtain ⟨-, hrest⟩ := List.forall_mem_cons.1 hs
    obtain ⟨hinside, htail⟩ := List.forall_mem_append.1 hrest
    exact ihinside hinside (ihs (List.forall_mem_cons.1 htail).2 hbefore)
  | operator op _ _ _ _ ihb iha =>
    obtain ⟨ha, htail⟩ := List.forall_mem_append.1 hs
    have hbetween := iha ha (ihb (List.forall_mem_cons.1 htail).2 hbefore)
    obtain ⟨hx, hrest⟩ := List.forall_mem_cons.1 hbetween
    obtain ⟨hy, hafter⟩ := List.forall_mem_cons.1 hrest
    exact List.forall_mem_cons.2 ⟨⟨⟨op, rfl⟩, hx, hy⟩, hafter⟩

theorem writable_of_ofText {policy : EscapePolicy} {s : List Char} {t : Expr}
    (h : ofText policy s = .ok t) : t.Writable := by
  obtain ⟨tokens, htokens, htree⟩ := exists_of_bind_eq_ok h
  obtain ⟨rank, hreads⟩ := ofTokens_eq_ok_iff_reads.1 htree
  exact writable_of_reads hreads (readable_of_scan htokens) (fun _ hmem => nomatch hmem) t
    List.mem_cons_self

theorem isScript_of_ofText {policy : EscapePolicy} {s : List Char} {fault : Fault}
    (h : ofText policy s = .error fault) : fault.isScript = true := by
  rcases eq_error_or_of_bind h with hscan | ⟨tokens, htokens, htree⟩
  · exact Fault.isScript_of_category? (category?_of_scan hscan)
  · exact Fault.isScript_of_category?
      (category?_of_ofTokens (fun token hmem => (readable_of_scan htokens token hmem).lexical) htree)

end Expr

/-! ### Arguments -/

theorem Arguments.category?_of_pieces {depth : Nat} {s : List Char} {fault : Fault}
    (h : pieces depth s = .error fault) : fault.category? = some .lexical := by
  fun_induction pieces depth s with
  | case1 => cases h
  | case2 => cases h; rfl
  | case3 => cases h; rfl
  | case4 depth rest inside rest' _ ih => exact ih (eq_error_of_map h)
  | case5 depth rest _ ih => exact ih (eq_error_of_map h)
  | case6 depth rest _ _ ih => exact ih (eq_error_of_map h)
  | case7 depth c rest _ _ _ _ ih => exact ih (eq_error_of_map h)
  | case8 depth c rest _ _ _ _ ih => exact ih (eq_error_of_map h)

theorem Arguments.category?_of_split {s : List Char} {fault : Fault} (h : split s = .error fault) :
    fault.category? = some .lexical := by
  rw [split] at h
  split at h
  · cases h
  · exact category?_of_pieces (eq_error_of_map h)

/-! ### Statements -/

namespace Statement

/-- A statement on a line, with arguments that can be written. -/
structure Readable (s : Statement) (first count : Nat) : Prop where
  le_line : (first : Int) ≤ s.line
  line_lt : s.line < first + count
  args : ∀ t ∈ s.args, t.Writable

variable {settings : Settings}

theorem writable_of_readArgs {line : Int} {number : Nat} {args : List (List Char)}
    {trees : List Expr} (h : readArgs settings line number args = .ok trees) :
    ∀ t ∈ trees, t.Writable := by
  induction args generalizing number trees with
  | nil => cases h; exact fun _ hmem => nomatch hmem
  | cons arg rest ih =>
    obtain ⟨tree, htree, h⟩ := exists_of_bind_eq_ok h
    obtain ⟨others, hothers, h⟩ := exists_of_bind_eq_ok h
    cases h
    replace htree := eq_ok_of_locating htree
    split at htree
    · cases htree
    · exact List.forall_mem_cons.2 ⟨Expr.writable_of_ofText htree, ih hothers⟩

theorem onLine_of_readArgs {line : Int} {number : Nat} {args : List (List Char)} {fault : Fault}
    (h : readArgs settings line number args = .error fault) : fault.OnLine line := by
  induction args generalizing number with
  | nil => cases h
  | cons arg rest ih =>
    rcases eq_error_or_of_bind h with hhead | ⟨tree, -, h⟩
    · obtain ⟨inner, hinner, rfl⟩ := exists_of_locating_eq_error hhead
      refine Fault.onLine_locate ?_ rfl
      split at hinner
      · cases hinner; rfl
      · exact Expr.isScript_of_ofText hinner
    · rcases eq_error_or_of_bind h with hrest | ⟨others, -, h⟩
      · exact ih hrest
      · cases h

theorem onLine_of_readLine {line : Int} {s : List Char} {fault : Fault}
    (h : readLine settings line s = .error fault) : fault.OnLine line := by
  rcases eq_error_or_of_bind h with hargs | ⟨args, -, h⟩
  · obtain ⟨inner, hinner, rfl⟩ := exists_of_locating_eq_error hargs
    exact Fault.onLine_locate (Fault.isScript_of_category? (Arguments.category?_of_split hinner)) rfl
  · rcases eq_error_or_of_bind h with htrees | ⟨trees, -, h⟩
    · exact onLine_of_readArgs htrees
    · cases h

theorem readable_of_readLine {line count : Nat} {s : List Char} {statement : Statement}
    (hcount : 0 < count) (h : readLine settings line s = .ok statement) :
    statement.Readable line count := by
  obtain ⟨args, -, h⟩ := exists_of_bind_eq_ok h
  obtain ⟨trees, htrees, h⟩ := exists_of_bind_eq_ok h
  cases h
  exact ⟨Int.le_refl _, by dsimp only; omega, writable_of_readArgs htrees⟩

/-- What is read from the lines behind the first one is read from all of them. -/
theorem Readable.of_rest {s : Statement} {line count : Nat} (h : s.Readable (line + 1) count) :
    s.Readable line (count + 1) := by
  obtain ⟨hle, hlt, hargs⟩ := h
  exact ⟨by omega, by omega, hargs⟩

/-- The lines of a text are read, or there is a fault on one of them. -/
theorem readLinesFrom_sound (settings : Settings) (line : Nat) (lines : List (List Char)) :
    match readLinesFrom settings line lines with
    | .ok statements => ∀ s ∈ statements, s.Readable line lines.length
    | .error fault => ∃ k : Nat, line ≤ k ∧ k < line + lines.length ∧ fault.OnLine k := by
  induction lines generalizing line with
  | nil => exact fun _ hmem => nomatch hmem
  | cons raw rest ih =>
    have hrest := ih (line + 1)
    cases hread : readLinesFrom settings line (raw :: rest) with
    | ok statements =>
      rw [readLinesFrom] at hread
      dsimp only at hread ⊢
      split at hread
      · rw [hread] at hrest
        exact fun s hmem => (hrest s hmem).of_rest
      · obtain ⟨statement, hstatement, hread⟩ := exists_of_bind_eq_ok hread
        obtain ⟨others, hothers, hread⟩ := exists_of_bind_eq_ok hread
        cases hread
        rw [hothers] at hrest
        exact List.forall_mem_cons.2 ⟨readable_of_readLine (Nat.succ_pos _) hstatement,
          fun s hmem => (hrest s hmem).of_rest⟩
    | error fault =>
      rw [readLinesFrom] at hread
      dsimp only at hread ⊢
      rw [List.length_cons]
      have hlater (h : readLinesFrom settings (line + 1) rest = .error fault) :
          ∃ k : Nat, line ≤ k ∧ k < line + (rest.length + 1) ∧ fault.OnLine k := by
        rw [h] at hrest
        obtain ⟨k, hle, hlt, hline⟩ := hrest
        exact ⟨k, by omega, by omega, hline⟩
      split at hread
      · exact hlater hread
      · rcases eq_error_or_of_bind hread with hstatement | ⟨statement, -, hread⟩
        · exact ⟨line, Nat.le_refl _, by omega, onLine_of_readLine hstatement⟩
        · rcases eq_error_or_of_bind hread with hothers | ⟨others, -, hread⟩
          · exact hlater hothers
          · cases hread

end Statement

end Pipeline
