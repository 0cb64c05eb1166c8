import Pipeline.Fault

/-!
# Operator-first order

The tokens of an argument are rearranged so that every operator stands in front of its two operands
and no parentheses are left.  The pass goes from right to left with a stack of the operators that
are still waiting, so a closing parenthesis opens a group and an opening one ends it.  A waiting
operator leaves the stack only for one that binds strictly more loosely; operators of one rank wait
on, which makes chains of them group to the left.
-/

namespace Pipeline

/-- The operators with two operands. -/
inductive Operator where
  | times
  | over
  | plus
  | minus
  | and
  | or
  | xor
  deriving DecidableEq, Repr

namespace Operator

/-- The sign of an operator. -/
def symbol : Operator → String
  | .times => "*"
  | .over => "/"
  | .plus => "+"
  | .minus => "-"
  | .and => "&"
  | .or => "|"
  | .xor => "^"

/-- The operator with a given sign. -/
def ofSymbol? : String → Option Operator
  | "*" => some .times
  | "/" => some .over
  | "+" => some .plus
  | "-" => some .minus
  | "&" => some .and
  | "|" => some .or
  | "^" => some .xor
  | _ => none

theorem ofSymbol?_symbol (op : Operator) : ofSymbol? op.symbol = some op := by
  cases op <;> rfl

/-- The rank of an operator; a lower one binds more tightly. -/
def rank : Operator → Nat
  | .times | .over => 1
  | .plus | .minus => 2
  | .and => 3
  | .or => 4
  | .xor => 5

/-- An operator as a token. -/
def token (op : Operator) : Token :=
  .operator op.symbol

end Operator

namespace OperatorFirst

/-- What waits on the stack: an operator, or the closing parenthesis of a group. -/
inductive Waiting where
  | operator (op : Operator)
  | group
  deriving DecidableEq, Repr

/-- The state of the pass: what waits, and the tokens already in their places. -/
structure State where
  stack : List Waiting
  output : List Token

/-- Moves the waiting operators that bind more tightly than the given rank to the output. -/
def release (rank : Nat) : List Waiting → List Token → State
  | .operator op :: stack, output =>
    if op.rank < rank then release rank stack (op.token :: output)
    else ⟨.operator op :: stack, output⟩
  | stack, output => ⟨stack, output⟩

/-- Moves the operators of the innermost group to the output and ends the group. -/
def endGroup : List Waiting → List Token → Except Fault State
  | [], _ => .error (.of .missingClosing)
  | .group :: stack, output => .ok ⟨stack, output⟩
  | .operator op :: stack, output => endGroup stack (op.token :: output)

/-- Takes one more token, to the left of all that came before. -/
def step (token : Token) (s : State) : Except Fault State :=
  match token with
  | .operand _ => .ok { s with output := token :: s.output }
  | .operator symbol =>
    if symbol = ")" then .ok { s with stack := .group :: s.stack }
    else if symbol = "(" then endGroup s.stack s.output
    else
      match Operator.ofSymbol? symbol with
      | none => .error (.unranked symbol)
      | some op =>
        let released := release op.rank s.stack s.output
        .ok { released with stack := .operator op :: released.stack }

/-- Takes all tokens, the rightmost first. -/
def pass : List Token → Except Fault State
  | [] => .ok ⟨[], []⟩
  | token :: rest => (pass rest).bind (step token)

/-- Moves all that waits to the output; no group may be left. -/
def finish : List Waiting → List Token → Except Fault (List Token)
  | [], output => .ok output
  | .group :: _, _ => .error (.of .missingOpening)
  | .operator op :: stack, output => finish stack (op.token :: output)

end OperatorFirst

/-- The tokens of an argument in operator-first order. -/
def operatorFirst (tokens : List Token) : Except Fault (List Token) :=
  (OperatorFirst.pass tokens).bind fun s => OperatorFirst.finish s.stack s.output

end Pipeline
