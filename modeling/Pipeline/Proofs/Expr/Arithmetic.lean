import Pipeline.Expr.Eval
import Mathlib.Algebra.Order.Group.Unbundled.Int
import Mathlib.Data.Int.Order.Basic

/-!
# What the operators compute

The seven operators by what their results have to fulfil, and not by how they are found.  A quotient
leaves a remainder that is smaller than the divisor and has the sign of the dividend; the bits of a
number are those of its infinite two's complement form, so a bit is a floor and a remainder.

* `Operator.apply_eq_some_iff` : an operator has the one result that fulfils its law.
* `Operator.apply_eq_none_iff` : only a division by zero has none.
-/

namespace Pipeline

namespace Bits

/-- A bit of a whole number is set in its infinite two's complement form. -/
def IsSet (position : Nat) (n : Int) : Prop :=
  n / 2 ^ position % 2 = 1

theorem test_iff (position : Nat) (n : Int) : test position n = true ↔ IsSet position n := by
  have hpower : (0 : Int) < 2 ^ position := Int.pow_pos (by decide)
  cases n with
  | ofNat m =>
    rw [test, Nat.testBit_eq_decide_div_mod_eq, decide_eq_true_eq, IsSet]
    show _ ↔ ((m : Nat) : Int) / 2 ^ position % 2 = 1
    norm_cast
  | negSucc m =>
    rw [test, Nat.testBit_eq_decide_div_mod_eq, IsSet, Int.negSucc_ediv m hpower]
    have hcast : Int.ediv (m : Int) (2 ^ position) = ((m / 2 ^ position : Nat) : Int) := by
      push_cast
      rfl
    rw [hcast, Bool.not_eq_true', decide_eq_false_iff_not]
    omega

/-- Beyond some position all bits are those of the sign. -/
theorem exists_test_iff_neg (n : Int) :
    ∃ bound, ∀ position, bound ≤ position → (test position n = true ↔ n < 0) := by
  have hlt (m position : Nat) (hposition : m ≤ position) : m.testBit position = false :=
    Nat.testBit_lt_two_pow
      (Nat.lt_of_lt_of_le Nat.lt_two_pow_self (Nat.pow_le_pow_right (by decide) hposition))
  cases n with
  | ofNat m =>
    refine ⟨m, fun position hposition => ?_⟩
    rw [test, hlt m position hposition]
    simp
  | negSucc m =>
    refine ⟨m, fun position hposition => ?_⟩
    rw [test, hlt m position hposition]
    simp [Int.negSucc_lt_zero]

/-- A number is determined by its bits. -/
theorem eq_of_test {a b : Int} (h : ∀ position, test position a = test position b) : a = b := by
  obtain ⟨i, hi⟩ := exists_test_iff_neg a
  obtain ⟨j, hj⟩ := exists_test_iff_neg b
  have hsign : a < 0 ↔ b < 0 := by
    rw [← hi (max i j) (Nat.le_max_left i j), h, hj (max i j) (Nat.le_max_right i j)]
  cases a with
  | ofNat m =>
    cases b with
    | ofNat n => exact congrArg Int.ofNat (Nat.eq_of_testBit_eq h)
    | negSucc n => exact absurd (hsign.2 (Int.negSucc_lt_zero n)) (Int.natCast_nonneg m).not_gt
  | negSucc m =>
    cases b with
    | ofNat n => exact absurd (hsign.1 (Int.negSucc_lt_zero m)) (Int.natCast_nonneg n).not_gt
    | negSucc n =>
      refine congrArg Int.negSucc (Nat.eq_of_testBit_eq fun position => ?_)
      exact Bool.not_inj (h position)

/-- The number whose bits are given by a law is the one that is computed by that law. -/
theorem forall_isSet_iff {a b : Int} :
    (∀ position, IsSet position a ↔ IsSet position b) ↔ a = b := by
  constructor
  · intro h
    refine eq_of_test fun position => ?_
    rw [Bool.eq_iff_iff, test_iff, test_iff]
    exact h position
  · rintro rfl position
    rfl

theorem isSet_and (position : Nat) (a b : Int) :
    IsSet position (and a b) ↔ IsSet position a ∧ IsSet position b := by
  simp only [← test_iff, test_and, Bool.and_eq_true]

theorem isSet_or (position : Nat) (a b : Int) :
    IsSet position (or a b) ↔ IsSet position a ∨ IsSet position b := by
  simp only [← test_iff, test_or, Bool.or_eq_true]

theorem isSet_xor (position : Nat) (a b : Int) :
    IsSet position (xor a b) ↔ ¬ (IsSet position a ↔ IsSet position b) := by
  rw [← test_iff, ← test_iff, ← test_iff, test_xor, Bool.xor_iff_ne, ne_eq, Bool.eq_iff_iff]

end Bits

/-- A quotient of two numbers that drops the fraction. -/
def IsQuotient (a b q : Int) : Prop :=
  ∃ r, a = q * b + r ∧ |r| < |b| ∧ (r = 0 ∨ r.sign = a.sign)

/-- There is one such quotient by a number that is not zero. -/
theorem isQuotient_iff {a b q : Int} (hb : b ≠ 0) : IsQuotient a b q ↔ a.tdiv b = q := by
  constructor
  · rintro ⟨r, ha, hr, hsign⟩
    have hsum : r + b * q = a := by
      rw [ha, Int.mul_comm, Int.add_comm]
    rcases Int.le_total 0 a with hpos | hneg
    · have hr0 : 0 ≤ r := by
        rcases hsign with rfl | hsign
        · exact Int.le_refl 0
        · rw [← Int.sign_nonneg_iff, hsign, Int.sign_nonneg_iff]
          exact hpos
      have hlt : r < b.natAbs := by
        rw [abs_of_nonneg hr0] at hr
        rwa [Int.natCast_natAbs]
      exact ((Int.tdiv_tmod_unique hpos hb).2 ⟨hsum, hr0, hlt⟩).1
    · have hr0 : r ≤ 0 := by
        rcases hsign with rfl | hsign
        · exact Int.le_refl 0
        · rw [← Int.sign_nonpos_iff, hsign, Int.sign_nonpos_iff]
          exact hneg
      have hlt : -(b.natAbs : Int) < r := by
        rw [abs_of_nonpos hr0] at hr
        rw [Int.natCast_natAbs]
        omega
      exact ((Int.tdiv_tmod_unique' hneg hb).2 ⟨hsum, hlt, hr0⟩).1
  · rintro rfl
    refine ⟨a.tmod b, (Int.tdiv_mul_add_tmod a b).symm, ?_, ?_⟩
    · rw [Int.abs_eq_natAbs, Int.abs_eq_natAbs, Int.natAbs_tmod]
      exact_mod_cast Nat.mod_lt a.natAbs (Int.natAbs_pos.2 hb)
    · have hsign := Int.sign_tmod a b
      by_cases hdvd : b ∣ a
      · exact .inl (Int.tmod_eq_zero_of_dvd hdvd)
      · rw [if_neg hdvd] at hsign
        exact .inr hsign

namespace Operator

/-- The law of an operator: what its result has to be. -/
def Computes : Operator → (a b result : Int) → Prop
  | .plus, a, b, c => c = a + b
  | .minus, a, b, c => c = a - b
  | .times, a, b, c => c = a * b
  | .over, a, b, q => b ≠ 0 ∧ IsQuotient a b q
  | .and, a, b, c => ∀ i, Bits.IsSet i c ↔ Bits.IsSet i a ∧ Bits.IsSet i b
  | .or, a, b, c => ∀ i, Bits.IsSet i c ↔ Bits.IsSet i a ∨ Bits.IsSet i b
  | .xor, a, b, c => ∀ i, Bits.IsSet i c ↔ ¬ (Bits.IsSet i a ↔ Bits.IsSet i b)

/-- An operator has the one result that fulfils its law. -/
theorem apply_eq_some_iff (op : Operator) (a b c : Int) :
    op.apply? a b = some c ↔ op.Computes a b c := by
  unfold Operator.apply? Computes
  match op with
  | .over =>
    dsimp only
    by_cases hb : b = 0
    · simp [hb]
    · rw [if_neg hb, Option.some_inj, isQuotient_iff hb]
      exact ⟨fun h => ⟨hb, h⟩, fun h => h.2⟩
  | .and => simp only [← Bits.isSet_and, Bits.forall_isSet_iff, Option.some_inj, eq_comm]
  | .or => simp only [← Bits.isSet_or, Bits.forall_isSet_iff, Option.some_inj, eq_comm]
  | .xor => simp only [← Bits.isSet_xor, Bits.forall_isSet_iff, Option.some_inj, eq_comm]
  | .plus | .minus | .times =>
    exact ⟨fun h => (Option.some.inj h).symm, fun h => congrArg some h.symm⟩

/-- Only a division by zero has no result. -/
theorem apply_eq_none_iff (op : Operator) (a b : Int) :
    op.apply? a b = none ↔ op = .over ∧ b = 0 := by
  unfold Operator.apply?
  match op with
  | .over => by_cases hb : b = 0 <;> simp [hb]
  | .plus | .minus | .times | .and | .or | .xor => simp

end Operator

end Pipeline
