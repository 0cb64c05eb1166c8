import Pipeline.Token.Lexer

/-!
# Settings

What a host program can choose about the language, and the fixed command words that the builder of
blocks and the executor agree on.
-/

namespace Pipeline

/-- The choices that reading and running depend on. -/
structure Settings where
  /-- What strings do with unknown escapes. -/
  unknownEscape : EscapePolicy := .reject
  /-- Whether an undefined variable is a fault, and not nothing. -/
  strictVariables : Bool := false
  /-- The command word that closes a block. -/
  terminator : String := "end"
  /-- The command words that open a block. -/
  blockCommands : List String := ["foreach", "function", "if", "elif", "else"]
  /-- How deep blocks may be nested. -/
  maxDepth : Nat := 200
  /-- How many calls may be running at once. -/
  maxCallDepth : Nat := 100
  deriving DecidableEq, Repr

/-- The commands that keep a chain of branches open. -/
def chainCommands : List String := ["if", "elif"]

/-- The commands that continue a chain of branches. -/
def continuationCommands : List String := ["elif", "else"]

namespace Settings

/-- Whether a command word opens a block. -/
def opensBlock (s : Settings) (command : String) : Bool :=
  s.blockCommands.contains command

/-- The settings with more command words that open blocks. -/
def withBlockCommands (s : Settings) (names : List String) : Settings :=
  { s with blockCommands := s.blockCommands ++ names.filter (!s.blockCommands.contains ·) }

end Settings

end Pipeline
