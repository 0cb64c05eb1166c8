import Pipeline.Expr
import Pipeline.Table
import Pipeline.Value

/-!
# Evaluation of expressions

Arithmetic on whole numbers of any size.  Division drops the fraction, and the three bit operations
work on the infinite two's complement form.  Both operands are evaluated, the left one first, before
either is looked at.
-/

namespace Pipeline

/-! ## Bit operations on whole numbers -/

namespace Bits

/-- The bits of the first number that are not bits of the second. -/
def without (m n : Nat) : Nat :=
  m ^^^ (m &&& n)

/-- The bits that both numbers have. -/
def and : Int → Int → Int
  | .ofNat m, .ofNat n => .ofNat (m &&& n)
  | .ofNat m, .negSucc n => .ofNat (without m n)
  | .negSucc m, .ofNat n => .ofNat (without n m)
  | .negSucc m, .negSucc n => .negSucc (m ||| n)

/-- The bits that one of the numbers has. -/
def or : Int → Int → Int
  | .ofNat m, .ofNat n => .ofNat (m ||| n)
  | .ofNat m, .negSucc n => .negSucc (without n m)
  | .negSucc m, .ofNat n => .negSucc (without m n)
  | .negSucc m, .negSucc n => .negSucc (m &&& n)

/-- The bits that exactly one of the numbers has. -/
def xor : Int → Int → Int
  | .ofNat m, .ofNat n => .ofNat (m ^^^ n)
  | .ofNat m, .negSucc n => .negSucc (m ^^^ n)
  | .negSucc m, .ofNat n => .negSucc (m ^^^ n)
  | .negSucc m, .negSucc n => .ofNat (m ^^^ n)

/-- The bit at a position of the two's complement form. -/
def test (position : Nat) : Int → Bool
  | .ofNat m => m.testBit position
  | .negSucc m => !m.testBit position

theorem test_without (m n position : Nat) :
    (without m n).testBit position = (m.testBit position && !n.testBit position) := by
  simp only [without, Nat.testBit_xor, Nat.testBit_and]
  cases m.testBit position <;> cases n.testBit position <;> rfl

theorem test_and (position : Nat) (a b : Int) :
    test position (and a b) = (test position a && test position b) := by
  cases a <;> cases b <;> simp [and, test, test_without, Bool.and_comm]

theorem test_or (position : Nat) (a b : Int) :
    test position (or a b) = (test position a || test position b) := by
  cases a <;> cases b <;> simp [or, test, test_without, Bool.or_comm]

theorem test_xor (position : Nat) (a b : Int) :
    test position (xor a b) = (test position a ^^ test position b) := by
  cases a <;> cases b <;> simp [xor, test]

end Bits

/-- The result of an operator; there is none for a zero divisor. -/
def Operator.apply? : Operator → Int → Int → Option Int
  | .plus, a, b => some (a + b)
  | .minus, a, b => some (a - b)
  | .times, a, b => some (a * b)
  | .over, a, b => if b = 0 then none else some (a.tdiv b)
  | .and, a, b => some (Bits.and a b)
  | .or, a, b => some (Bits.or a b)
  | .xor, a, b => some (Bits.xor a b)

/-! ## Evaluation -/

/-- The number that an operand of an operator has to be. -/
def operandNumber (symbol : String) : Value → Except Fault Int
  | .number n => .ok n
  | value => do throw (.of (.wrongOperand symbol (← value.kind)))

namespace Expr

/-- The value of an expression.  Under strict variables an undefined variable is a fault; otherwise
it is nothing. -/
def eval (strict : Bool) (bindings : Table Value) : Expr → Except Fault Value
  | .operand ⟨.string, text⟩ => .ok (.string text)
  | .operand ⟨.number, text⟩ =>
    match Numeral.read text.toList with
    | .ok n => .ok (.number n)
    | .error problem => .error (.numeral problem)
  | .operand ⟨.variable, name⟩ =>
    match bindings.find? name with
    | some value => .ok value
    | none => if strict then .error (.of (.undefinedVariable name)) else .ok .nothing
  | .binary symbol left right => do
    let x ← left.eval strict bindings
    let y ← right.eval strict bindings
    let a ← operandNumber symbol x
    let b ← operandNumber symbol y
    match Operator.ofSymbol? symbol with
    | none => throw (.of (.unknownOperator symbol))
    | some op =>
      match op.apply? a b with
      | some n => return .number n
      | none => throw (.of .divisionByZero)

end Expr

end Pipeline
