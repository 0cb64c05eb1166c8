import Pipeline.Numeral
import Pipeline.Token

/-!
# Faults

Everything that can stop the reading or the running of a script.  A fault of the script has a cause
and a place; the wording of all messages is in this module.  The other faults come from outside the
language: a host program handed in an object that is no value, a numeral is beyond the limit, a
file cannot be opened, or a setting is not valid.
-/

namespace Pipeline

/-! ## Words that messages use -/

/-- The kinds of values of the language. -/
inductive ValueKind where
  | nothing
  | number
  | string
  | list
  deriving DecidableEq, Repr

/-- The name of a kind of value. -/
def ValueKind.word : ValueKind → String
  | .nothing => "Nil"
  | .number => "Number"
  | .string => "String"
  | .list => "List"

/-- Why a file system does not hand out a file. -/
inductive FileProblem where
  | missing
  | isDirectory
  | notDirectory
  | nameTooLong
  deriving DecidableEq, Repr

/-- The error number that systems give a file problem. -/
def FileProblem.number : FileProblem → Nat
  | .missing => 2
  | .isDirectory => 21
  | .notDirectory => 20
  | .nameTooLong => 36

/-- The system's text for a file problem. -/
def FileProblem.text : FileProblem → String
  | .missing => "No such file or directory"
  | .isDirectory => "Is a directory"
  | .notDirectory => "Not a directory"
  | .nameTooLong => "File name too long"

/-- Why the text of a file is not available to a script. -/
inductive ReadProblem where
  | file (problem : FileProblem)
  | notUtf8 (offset : Nat)
  deriving DecidableEq, Repr

/-- The text of a read problem. -/
def ReadProblem.text : ReadProblem → String
  | .file problem => problem.text
  | .notUtf8 offset => "not valid UTF-8 at byte " ++ toString offset

/-- Why the calling convention of a handler does not fit. -/
inductive Mismatch where
  | tooManyArguments
  | missingArgument (name : String)
  deriving DecidableEq, Repr

/-- The text of a mismatch. -/
def Mismatch.text : Mismatch → String
  | .tooManyArguments => "too many positional arguments"
  | .missingArgument name => "missing a required argument: '" ++ name ++ "'"

/-! ## Causes -/

/-- What is wrong with a script, a command registration or a session. -/
inductive Cause where
  | unterminatedString
  | unterminatedParenthesis
  | missingName
  | unexpectedCharacter (c : Char)
  | unknownEscape (c : Char)
  | notUtf8 (path : String) (offset : Nat)
  | missingClosing
  | missingOpening
  | missingOperand
  | emptyExpression
  | unexpectedToken (token : Token)
  | emptyArgument
  | misplacedContinuation (command : String)
  | blocksTooDeep (limit : Nat)
  | neverClosed (command terminator : String)
  | strayTerminator (terminator : String)
  | wrongArity (command : String) (allowed : List Nat)
  | wrongOperand (symbol : String) (kind : ValueKind)
  | wrongInput (command : String) (needed actual : ValueKind)
  | stringNeeded
  | unknownCommand (name : String)
  | unknownFunction (name : String)
  | undefinedVariable (name : String)
  | notVariable
  | unknownOperator (symbol : String)
  | divisionByZero
  | unreadable (path : String) (problem : ReadProblem)
  | callsTooDeep (limit : Nat)
  | raised (text : String)
  | invalidName (name : String)
  | notCallable (name : String)
  | unacceptable (name : String) (mismatch : Mismatch)
  | noProgram
  deriving DecidableEq, Repr

/-- The families of causes. -/
inductive Category where
  | general
  | lexical
  | grammar
  | arity
  | kind
  | lookup
  | variable
  | evaluation
  | registration
  deriving DecidableEq, Repr

namespace Cause

/-- The family of a cause. -/
def category : Cause → Category
  | .unterminatedString | .unterminatedParenthesis | .missingName | .unexpectedCharacter _
  | .unknownEscape _ | .notUtf8 _ _ => .lexical
  | .missingClosing | .missingOpening | .missingOperand | .emptyExpression | .unexpectedToken _
  | .emptyArgument | .misplacedContinuation _ | .blocksTooDeep _ | .neverClosed _ _
  | .strayTerminator _ => .grammar
  | .wrongArity _ _ => .arity
  | .wrongOperand _ _ | .wrongInput _ _ _ | .stringNeeded => .kind
  | .unknownCommand _ | .unknownFunction _ => .lookup
  | .undefinedVariable _ | .notVariable => .variable
  | .unknownOperator _ | .divisionByZero | .unreadable _ _ | .callsTooDeep _ | .raised _ =>
    .evaluation
  | .invalidName _ | .notCallable _ | .unacceptable _ _ => .registration
  | .noProgram => .general

/-- How many arguments a command takes, in words. -/
def arityWords : List Nat → String
  | [0] => "no arguments"
  | [1] => "one argument"
  | allowed => " or ".intercalate (allowed.map toString) ++ " arguments"

/-- The message of a cause, without its place. -/
def message : Cause → String
  | .unterminatedString => "Unterminated string literal"
  | .unterminatedParenthesis => "Unterminated parenthesis"
  | .missingName => "Expected a variable name after $"
  | .unexpectedCharacter c => "Unexpected character " ++ Text.quoted (String.singleton c)
  | .unknownEscape c => "Unknown escape sequence \\" ++ String.singleton c
  | .notUtf8 path offset => path ++ " is not valid UTF-8 at byte " ++ toString offset
  | .missingClosing => ") expected"
  | .missingOpening => "( expected"
  | .missingOperand => "Missing operand"
  | .emptyExpression => "Empty expression"
  | .unexpectedToken token => "Unexpected " ++ token.kindWord ++ " " ++ Text.quoted token.text
  | .emptyArgument => "Empty argument"
  | .misplacedContinuation command =>
    "'" ++ command ++ "' without a preceding 'if' or 'elif'"
  | .blocksTooDeep limit => "Blocks nested deeper than " ++ toString limit ++ " levels"
  | .neverClosed command terminator =>
    "Block '" ++ command ++ "' is never closed with '" ++ terminator ++ "'"
  | .strayTerminator terminator => "Unexpected '" ++ terminator ++ "' outside of a block"
  | .wrongArity command allowed =>
    "Command `" ++ command ++ "` must have " ++ arityWords allowed
  | .wrongOperand symbol kind => "Cannot apply " ++ symbol ++ " to a " ++ kind.word ++ " value"
  | .wrongInput command needed actual =>
    "Command `" ++ command ++ "` needs a " ++ needed.word ++ " value, got " ++ actual.word
  | .stringNeeded => "Argument is not a string or a variable pointing to a string"
  | .unknownCommand name => "Command `" ++ name ++ "` not found"
  | .unknownFunction name => "Function $" ++ name ++ " is not defined"
  | .undefinedVariable name => "Variable $" ++ name ++ " is not defined"
  | .notVariable => "Argument is not a variable reference"
  | .unknownOperator symbol => "Unknown operator " ++ symbol
  | .divisionByZero => "Division by zero"
  | .unreadable path problem => "Cannot read " ++ path ++ ": " ++ problem.text
  | .callsTooDeep limit => "Call depth exceeded (" ++ toString limit ++ ")"
  | .raised text => text
  | .invalidName name => "Invalid command name " ++ Text.quoted name
  | .notCallable name => "Handler for '" ++ name ++ "' is not callable"
  | .unacceptable name mismatch =>
    "Handler for '" ++ name ++ "' must accept (value, args, line, env, children): " ++
      mismatch.text
  | .noProgram => "No program loaded"

end Cause

/-! ## Places -/

/-- Where a fault was met: the source line, and the argument counted from zero. -/
structure Place where
  line : Option Int := none
  argument : Option Int := none
  deriving DecidableEq, Repr

namespace Place

/-- No place at all. -/
def nowhere : Place := {}

/-- A whole line. -/
def ofLine (line : Int) : Place :=
  { line := some line }

/-- One argument of a line. -/
def ofArgument (line argument : Int) : Place :=
  { line := some line, argument := some argument }

/-- A message with the place in front of it. -/
def locate (place : Place) (message : String) : String :=
  (match place.line with | some n => "Line " ++ toString n ++ ": " | none => "") ++
    (match place.argument with | some n => "Argument " ++ toString n ++ ": " | none => "") ++
    message

end Place

/-! ## Settings that are not valid -/

/-- The settings a host program can give. -/
inductive SettingName where
  | unknownEscape
  | strictVariables
  | terminator
  | blockCommands
  | maxDepth
  | maxCallDepth
  deriving DecidableEq, Repr

/-- The name under which a setting is given. -/
def SettingName.word : SettingName → String
  | .unknownEscape => "unknown_escape"
  | .strictVariables => "strict_variables"
  | .terminator => "terminator"
  | .blockCommands => "block_commands"
  | .maxDepth => "max_depth"
  | .maxCallDepth => "max_call_depth"

/-- What is wrong with the value given for a setting. -/
inductive SettingProblem where
  | notListed
  | notBoolean
  | booleanNeeded
  | stringNeeded
  | empty
  | namesNeeded
  | integerNeeded
  | notInteger
  | tooLarge
  | fraction
  | notFinite
  | belowOne
  | frozen
  deriving DecidableEq, Repr

/-- The code of a setting problem. -/
def SettingProblem.word : SettingProblem → String
  | .notListed => "literal_error"
  | .notBoolean => "bool_parsing"
  | .booleanNeeded => "bool_type"
  | .stringNeeded => "string_type"
  | .empty => "string_too_short"
  | .namesNeeded => "frozen_set_type"
  | .integerNeeded => "int_type"
  | .notInteger => "int_parsing"
  | .tooLarge => "int_parsing_size"
  | .fraction => "int_from_float"
  | .notFinite => "finite_number"
  | .belowOne => "greater_than_equal"
  | .frozen => "frozen_instance"

/-- A setting and what is wrong with it; a name that is no setting can only be refused. -/
structure SettingIssue where
  field : String
  problem : SettingProblem
  deriving DecidableEq, Repr

/-! ## Faults -/

/-- What stops a reading or a run. -/
inductive Fault where
  | script (cause : Cause) (place : Place)
  /-- An object that is no value of the language, as its host shows it. -/
  | notValue (shown : String)
  /-- A value that no literal writes. -/
  | noLiteral (shown : String)
  | numeral (problem : NumeralProblem)
  /-- A path with a NUL character names nothing. -/
  | nulInPath
  /-- A variable is taken from an environment that does not have it. -/
  | missingVariable (name : String)
  /-- An operator that the order of operators does not know is to be ordered. -/
  | unranked (symbol : String)
  | file (problem : FileProblem) (path : String)
  | settings (issues : List SettingIssue)
  /-- A list that contains itself has no text and no end when it is compared. -/
  | endless
  deriving DecidableEq, Repr

namespace Fault

/-- A fault of the script whose place is not known yet. -/
def of (cause : Cause) : Fault :=
  .script cause .nowhere

/-- Puts a fault of the script at a place. -/
def locate (place : Place) : Fault → Fault
  | .script cause _ => .script cause place
  | fault => fault

/-- Whether the script, and not the world around it, is at fault. -/
def isScript : Fault → Bool
  | .script _ _ => true
  | _ => false

/-- The family of the cause of a fault of the script. -/
def category? : Fault → Option Category
  | .script cause _ => some cause.category
  | _ => none

/-- The text of a fault, with its place. -/
def text : Fault → String
  | .script cause place => place.locate cause.message
  | .notValue shown => "not a script value: " ++ shown
  | .noLiteral shown => "no literal form for " ++ shown
  | .numeral .malformed => "malformed numeral"
  | .numeral .tooLong => "numeral of more than " ++ toString Numeral.digitLimit ++ " digits"
  | .nulInPath => "NUL character in a path"
  | .missingVariable name => "no variable " ++ name
  | .unranked symbol => "no rank for operator " ++ symbol
  | .file problem path =>
    "[Errno " ++ toString problem.number ++ "] " ++ problem.text ++ ": " ++ Text.quoted path
  | .settings issues =>
    "invalid settings: " ++ ", ".intercalate (issues.map fun i => i.field ++ " " ++ i.problem.word)
  | .endless => "a list contains itself"

end Fault

/-- Puts the fault of a result, if there is one, at a place. -/
def locating {α : Type} (place : Place) (result : Except Fault α) : Except Fault α :=
  result.mapError (·.locate place)

end Pipeline
