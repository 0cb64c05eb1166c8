import Pipeline.Proofs.Expr.Evaluation
import Pipeline.Value.Tree

/-!
# Literals

Strings have a literal, and so have the numbers that are not too long for a numeral.  The literal is
the writing of a tree that has the value in it: one operand, or the difference that stands for a
negative number, in parentheses.

* `Numeral.read_repr` : the digits of a number are read as that number.
* `exists_tree_of_hasLiteral` : a literal is the writing of a tree that always has the same value.
-/

namespace Pipeline

/-! ### Numerals -/

namespace Numeral

open Text

/-- A number has no more digits than the zeros of a bound that it is below of. -/
theorem length_repr_le {n limit : Nat} (hlimit : 0 < limit) (h : n < tenTo limit) :
    n.repr.toList.length ≤ limit := by
  rw [String.length_toList]
  exact (Nat.length_repr_le_iff hlimit).2 h

theorem ten_le_tenTo {n : Nat} (h : n ≠ 0) : 10 ≤ tenTo n :=
  Nat.le_self_pow h 10

/-- Numbers of one digit are not too long. -/
theorem lt_bound {n : Nat} (h : n < 10) : n < bound :=
  Nat.lt_of_lt_of_le h (ten_le_tenTo (by decide))

theorem isLatinDigit_of_mem_repr {n : Nat} {c : Char} (h : c ∈ n.repr.toList) :
    isLatinDigit c = true := by
  rw [Nat.toList_repr] at h
  exact Nat.isDigit_of_mem_toDigits (by decide) (by decide) h

theorem repr_toList_ne_nil (n : Nat) : n.repr.toList ≠ [] := by
  rw [Nat.toList_repr]
  exact Nat.toDigits_ne_nil

/-- The digits of a number are read as that number, if there are not too many of them. -/
theorem read_repr {n : Nat} (h : n < bound) : read n.repr.toList = .ok n := by
  have hlength : n.repr.toList.length ≤ digitLimit := length_repr_le (by decide) h
  have hread := (read_of_digits (repr_toList_ne_nil n) fun c => isLatinDigit_of_mem_repr).1 hlength
  rw [hread, Nat.toList_repr, Nat.ofDigitChars_ten_toDigits]

theorem write_natCast {n : Nat} (h : n < bound) : write n = .ok n.repr := by
  rw [write, Int.natAbs_natCast, if_pos h]
  rfl

end Numeral

namespace Literal

theorem ofInt_natCast {n : Nat} (h : n < Numeral.bound) : ofInt n = .ok n.repr := by
  rw [ofInt, if_pos (Int.natCast_nonneg n), Numeral.write_natCast h]

theorem ofInt_neg {n : Nat} (hpos : 0 < n) (h : n < Numeral.bound) :
    ofInt (-n) = .ok ("(0-" ++ n.repr ++ ")") := by
  rw [ofInt, if_neg (by omega), Int.neg_neg, Numeral.write_natCast h]
  rfl

end Literal

/-! ### The tree of a literal -/

/-- The values that have a literal. -/
def Value.HasLiteral : Value → Prop
  | .number n => n.natAbs < Numeral.bound
  | .string _ => True
  | _ => False

namespace Expr

/-- The operand that a natural number is written as. -/
def numeral (n : Nat) : Expr :=
  .operand ⟨.number, n.repr⟩

theorem writable_numeral (n : Nat) : (numeral n).Writable :=
  ⟨Numeral.repr_toList_ne_nil n, fun _ => Numeral.isLatinDigit_of_mem_repr⟩

theorem eval_numeral {n : Nat} (h : n < Numeral.bound) (strict : Bool) (bindings : Table Value) :
    (numeral n).eval strict bindings = .ok (.number n) := by
  rw [numeral, eval, Numeral.read_repr h]

/-- The difference that a negative number is written as. -/
def negated (n : Nat) : Expr :=
  .binary "-" (numeral 0) (numeral n)

theorem writable_negated (n : Nat) : (negated n).Writable :=
  ⟨⟨.minus, rfl⟩, writable_numeral 0, writable_numeral n⟩

theorem eval_negated {n : Nat} (h : n < Numeral.bound) (strict : Bool) (bindings : Table Value) :
    (negated n).eval strict bindings = .ok (.number (-n)) := by
  have hzero : (numeral 0).eval strict bindings = .ok (.number 0) :=
    eval_numeral (Nat.lt_of_le_of_lt (Nat.zero_le n) h) strict bindings
  rw [negated, eval, hzero, eval_numeral h]
  show Except.ok (Value.number (0 - (n : Int))) = _
  rw [Int.zero_sub]

theorem source_negated (n : Nat) :
    String.ofList (negated n).source = "(0-" ++ n.repr ++ ")" := by
  rw [← String.toList_inj]
  simp [negated, numeral, source, Operand.source]

end Expr

/-- The literal of a value is the writing of a tree that has this value wherever it is evaluated. -/
theorem exists_tree_of_hasLiteral {value : Value} (h : value.HasLiteral) :
    ∃ t : Expr, t.Writable ∧
      (∀ store : Store, (store.tree value).literal = .ok (String.ofList t.source)) ∧
      ∀ strict bindings, t.eval strict bindings = .ok value := by
  cases value with
  | string text =>
    exact ⟨.operand ⟨.string, text⟩, trivial, fun store => rfl, fun strict bindings => rfl⟩
  | number n =>
    rcases Int.lt_or_le n 0 with hneg | hpos
    · obtain ⟨m, rfl⟩ : ∃ m : Nat, n = -m := ⟨n.natAbs, by omega⟩
      rw [Value.HasLiteral, Int.natAbs_neg, Int.natAbs_natCast] at h
      refine ⟨.negated m, Expr.writable_negated m, fun store => ?_, Expr.eval_negated h⟩
      show (Literal.ofInt (-m)).mapError Fault.numeral = _
      rw [Literal.ofInt_neg (by omega) h, Expr.source_negated]
      rfl
    · obtain ⟨m, rfl⟩ := Int.eq_ofNat_of_zero_le hpos
      rw [Value.HasLiteral, Int.natAbs_natCast] at h
      refine ⟨.numeral m, Expr.writable_numeral m, fun store => ?_, Expr.eval_numeral h⟩
      show (Literal.ofInt m).mapError Fault.numeral = Except.ok (String.ofList m.repr.toList)
      rw [Literal.ofInt_natCast h, String.ofList_toList]
      rfl
  | _ => exact h.elim

end Pipeline
