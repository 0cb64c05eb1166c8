import Pipeline.Proofs.Expr.Reading

/-!
# Infix writings

A tree over the seven operators can be written in infix form in many ways.  Parentheses are needed
around a left operand that binds more loosely than the operator, and around a right operand that does
not bind more tightly, since operators of one row group to the left; around any complete part they
may be put once more.  Main statement: every such tree has a writing, and each of its writings is
read as the tree.

* `Operator.rows`, `Operator.level` : which operators bind more tightly than others.
* `Operator.rank_eq_level` : the reader has the same order.
* `Written`, `ofTokens_of_written` : the writings of a tree, and what they are read as.
-/

namespace Pipeline

namespace Operator

/-- The operators of the language, row by row: the first row binds most tightly, and the operators of one
row bind alike. -/
def rows : List (List String) :=
  [["*", "/"], ["+", "-"], ["&"], ["|"], ["^"]]

/-- The number of the row in which an operator stands. -/
def level (op : Operator) : Nat :=
  rows.findIdx (·.contains op.symbol) + 1

theorem level_pos (op : Operator) : 0 < op.level :=
  Nat.succ_pos _

/-- The ranks by which the reader goes are the numbers of the rows. -/
theorem rank_eq_level (op : Operator) : op.rank = op.level := by
  cases op <;> rfl

end Operator

namespace Expr

open Token Operator

/-- Whether all inner nodes of a tree are operators of the language. -/
def OverOperators : Expr → Prop
  | .operand _ => True
  | .binary symbol left right =>
    (∃ op : Operator, op.symbol = symbol) ∧ left.OverOperators ∧ right.OverOperators

/-- The writings of a tree in infix form.  The level is that of the loosest operator outside of
parentheses, and zero where there is none. -/
inductive Written : Expr → (level : Nat) → List Token → Prop where
  | operand (o : Operand) : Written (.operand o) 0 [.operand o]
  | group {t : Expr} {level : Nat} {s : List Token} :
      Written t level s → Written t 0 (opening :: s ++ [closing])
  | binary {left right : Expr} {i j : Nat} {a b : List Token} (op : Operator) :
      Written left i a → Written right j b → i ≤ op.level → j < op.level →
      Written (.binary op.symbol left right) op.level (a ++ op.token :: b)

/-- The writing in which every operation has its parentheses. -/
def grouped : Expr → List Token
  | .operand o => [.operand o]
  | .binary symbol left right =>
    opening :: (left.grouped ++ .operator symbol :: right.grouped) ++ [closing]

theorem written_grouped {t : Expr} (h : t.OverOperators) : Written t 0 t.grouped := by
  induction t with
  | operand o => exact .operand o
  | binary symbol left right ihl ihr =>
    obtain ⟨⟨op, rfl⟩, hleft, hright⟩ := h
    exact .group (.binary op (ihl hleft) (ihr hright) (Nat.zero_le _) op.level_pos)

/-- A writing of a tree is read as one tree in front of those that are there already. -/
theorem reads_of_written {t : Expr} {level : Nat} {s : List Token} (h : Written t level s)
    (before : List Expr) : Reads level s before (t :: before) := by
  induction h generalizing before with
  | operand o => exact .operand o (.nil before)
  | group _ ih => exact .group (.nil before) (ih before)
  | @binary left right i j a b op _ _ hi hj ihl ihr =>
    rw [← op.rank_eq_level] at hi hj ⊢
    exact .operator op (ihr before) (ihl (right :: before)) hj hi

/-- **Infix writings are read back.**  A tree over the operators of the language can be written, and
however it is written, its tokens give exactly this tree. -/
theorem ofTokens_of_written {t : Expr} (h : t.OverOperators) :
    (∃ level s, Written t level s) ∧ ∀ level s, Written t level s → ofTokens s = .ok t := by
  refine ⟨⟨0, t.grouped, written_grouped h⟩, ?_⟩
  intro level s hs
  exact ofTokens_eq_ok_iff_reads.2 ⟨level, reads_of_written hs []⟩

/-- The tree of `1 - $x - 3 * $x ^ "("`, read from a writing with parentheses that are not needed. -/
theorem ofTokens_of_written_differences :
    let one := Expr.operand ⟨.number, "1"⟩
    let three := Expr.operand ⟨.number, "3"⟩
    let x := Expr.operand ⟨.variable, "x"⟩
    let text := Expr.operand ⟨.string, "("⟩
    let tree := Expr.binary "^" (.binary "-" (.binary "-" one x) (.binary "*" three x)) text
    OverOperators tree ∧
      ofTokens [numberOf "1", .operator "-", opening, variableOf "x", closing, .operator "-",
        numberOf "3", .operator "*", variableOf "x", .operator "^", opening, stringOf "(", closing] =
          .ok tree := by
  intro one three x text tree
  have h : OverOperators tree :=
    ⟨⟨.xor, rfl⟩, ⟨⟨.minus, rfl⟩, ⟨⟨.minus, rfl⟩, trivial, trivial⟩, ⟨.times, rfl⟩, trivial, trivial⟩,
      trivial⟩
  have hdifference : Written (.binary "-" one x) 2
      [numberOf "1", .operator "-", opening, variableOf "x", closing] :=
    .binary .minus (.operand _) (.group (.operand _)) (by decide) (by decide)
  have hproduct : Written (.binary "*" three x) 1 [numberOf "3", .operator "*", variableOf "x"] :=
    .binary .times (.operand _) (.operand _) (by decide) (by decide)
  -- The second difference may have the first one on its left, and on its right only the product.
  have hleft : Written (.binary "-" (.binary "-" one x) (.binary "*" three x)) 2
      [numberOf "1", .operator "-", opening, variableOf "x", closing, .operator "-",
        numberOf "3", .operator "*", variableOf "x"] :=
    .binary .minus hdifference hproduct (by decide) (by decide)
  exact ⟨h, (ofTokens_of_written h).2 5 _
    (.binary .xor hleft (.group (.operand _)) (by decide) (by decide))⟩

end Expr

end Pipeline
