import Pipeline.Text.Quoted

/-!
# Tokens

An argument is written with operands, which are variables, numbers and strings, and with operators,
among them the two parentheses.  The text of a variable leaves its sign out, and that of a string is
what the string means.
-/

namespace Pipeline

/-- What an operand is. -/
inductive OperandKind where
  | variable
  | number
  | string
  deriving DecidableEq, Repr

/-- A token that stands for a value. -/
structure Operand where
  kind : OperandKind
  text : String
  deriving DecidableEq, Repr

/-- A token of an argument. -/
inductive Token where
  | operand (operand : Operand)
  | operator (symbol : String)
  deriving DecidableEq, Repr

/-- The name of a kind of operand. -/
def OperandKind.word : OperandKind → String
  | .variable => "variable"
  | .number => "number"
  | .string => "string"

namespace Token

/-- A variable token. -/
def variableOf (name : String) : Token :=
  .operand ⟨.variable, name⟩

/-- A number token. -/
def numberOf (digits : String) : Token :=
  .operand ⟨.number, digits⟩

/-- A string token. -/
def stringOf (text : String) : Token :=
  .operand ⟨.string, text⟩

/-- The name of a token's kind. -/
def kindWord : Token → String
  | .operand o => o.kind.word
  | .operator _ => "operator"

/-- The text of a token. -/
def text : Token → String
  | .operand o => o.text
  | .operator symbol => symbol

/-- A token as a listing shows it. -/
def describe (t : Token) : String :=
  t.kindWord ++ "(" ++ Text.quoted t.text ++ ")"

end Token

end Pipeline
