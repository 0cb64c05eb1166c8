import Pipeline.Expr.OperatorFirst
import Pipeline.Token.Lexer

/-!
# Expressions

The tree of an argument: operands at the leaves, operators with two operands inside.  A tree is
assembled from tokens in operator-first order, where an operator is followed by its left operand and
then by its right one.
-/

namespace Pipeline

/-- The tree of an argument. -/
inductive Expr where
  | operand (operand : Operand)
  | binary (symbol : String) (left right : Expr)
  deriving DecidableEq, Repr

namespace Expr

/-- Assembles the tree that starts at the first token, and gives the tokens behind it. -/
def assemble (queue : List Token) :
    Except Fault (Expr × { rest : List Token // rest.length < queue.length }) :=
  match queue with
  | [] => .error (.of .missingOperand)
  | .operand o :: rest => .ok (.operand o, ⟨rest, by simp⟩)
  | .operator symbol :: rest =>
    match assemble rest with
    | .error fault => .error fault
    | .ok (left, ⟨rest₁, h₁⟩) =>
      match assemble rest₁ with
      | .error fault => .error fault
      | .ok (right, ⟨rest₂, h₂⟩) =>
        .ok (.binary symbol left right, ⟨rest₂, by simp; omega⟩)
termination_by queue.length
decreasing_by
  · simp
  · simp; omega

/-- The tree of the tokens of an argument. -/
def ofTokens (tokens : List Token) : Except Fault Expr :=
  match operatorFirst tokens with
  | .error fault => .error fault
  | .ok [] => .error (.of .emptyExpression)
  | .ok queue =>
    match assemble queue with
    | .error fault => .error fault
    | .ok (tree, ⟨[], _⟩) => .ok tree
    | .ok (_, ⟨token :: _, _⟩) => .error (.of (.unexpectedToken token))

/-- The tree of the text of an argument. -/
def ofText (policy : EscapePolicy) (s : List Char) : Except Fault Expr :=
  (Token.scan policy s).bind ofTokens

/-- The variable that an argument names, for commands that need a name and not a value. -/
def variableName : Expr → Except Fault String
  | .operand ⟨.variable, name⟩ => .ok name
  | _ => .error (.of .notVariable)

end Expr

end Pipeline
