import Pipeline.Expr
import Pipeline.Settings
import Pipeline.Statement.Arguments
import Pipeline.Text.LetterCase
import Pipeline.Text.LineEnd

/-!
# Statements

A line holds a command word, which is read in lower case, and its arguments.  Blank lines and lines
that start with a hash sign hold no statement, but they count: a statement keeps the number of its
line.
-/

namespace Pipeline

/-- A command with its arguments, and the line it stands on. -/
structure Statement where
  line : Int
  command : String
  args : List Expr
  deriving DecidableEq, Repr

namespace Statement

open Text

/-- The command word of a line in lower case, and the text of its arguments. -/
def splitLine (s : List Char) : List Char × List Char :=
  let parts := cutWord (trim s)
  (lower parts.1, parts.2)

/-- The trees of argument texts; the first one has the given number. -/
def readArgs (settings : Settings) (line : Int) :
    (number : Nat) → List (List Char) → Except Fault (List Expr)
  | _, [] => .ok []
  | number, arg :: rest => do
    let tree ← locating (.ofArgument line number)
      (if arg.isEmpty then .error (.of .emptyArgument)
       else Expr.ofText settings.unknownEscape arg)
    let trees ← readArgs settings line (number + 1) rest
    return tree :: trees

/-- Whether a trimmed line holds no statement. -/
def isIdle (s : List Char) : Bool :=
  match s with
  | [] => true
  | c :: _ => c == '#'

/-- The statement of a trimmed line that holds one. -/
def readLine (settings : Settings) (line : Int) (s : List Char) : Except Fault Statement := do
  let parts := splitLine s
  let args ← locating (.ofLine line) (Arguments.split parts.2)
  let trees ← readArgs settings line 0 args
  return ⟨line, String.ofList parts.1, trees⟩

/-- The statements of lines; the first one has the given number. -/
def readLinesFrom (settings : Settings) :
    (line : Nat) → List (List Char) → Except Fault (List Statement)
  | _, [] => .ok []
  | line, raw :: rest =>
    let s := trim raw
    if isIdle s then readLinesFrom settings (line + 1) rest
    else do
      let statement ← readLine settings line s
      let statements ← readLinesFrom settings (line + 1) rest
      return statement :: statements

/-- The statements of the lines of a program. -/
def readLines (settings : Settings) (lines : List (List Char)) : Except Fault (List Statement) :=
  readLinesFrom settings 1 lines

end Statement

end Pipeline
