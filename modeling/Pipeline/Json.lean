import Pipeline.Program
import Pipeline.Text.Quoted

/-!
# JSON documents

Documents, and their text with an indentation of two spaces, in ASCII only: every character that is
not printable ASCII is written by its UTF-16 units.  Empty arrays are written without a line end.

A program is shown as the document of its statements; a block has its body in the field `children`,
which a simple statement does not have at all.
-/

namespace Pipeline

/-- The documents that are printed. -/
inductive Json where
  | number (n : Int)
  | string (s : String)
  | array (items : List Json)
  | object (fields : List (String × Json))
  deriving Repr

namespace Json

/-! ## Texts -/

/-- One UTF-16 unit. -/
def writeUnit (n : Nat) : List Char :=
  ['\\', 'u'] ++ Text.hexDigits 4 n

/-- A character in a string. -/
def escapeChar (c : Char) : List Char :=
  if c = '"' || c = '\\' then ['\\', c]
  else if c = '\n' then ['\\', 'n']
  else if c = '\r' then ['\\', 'r']
  else if c = '\t' then ['\\', 't']
  else if c = '\x0c' then ['\\', 'f']
  else if c = '\x08' then ['\\', 'b']
  else if ' ' ≤ c && c ≤ '~' then [c]
  else if c.toNat < 0x10000 then writeUnit c.toNat
  else
    let n := c.toNat - 0x10000
    writeUnit (0xD800 + n / 0x400) ++ writeUnit (0xDC00 + n % 0x400)

/-- A string in quotes. -/
def writeString (s : String) : List Char :=
  '"' :: s.toList.flatMap escapeChar ++ ['"']

/-- A line end, and the indentation of a depth. -/
def newLine (depth : Nat) : List Char :=
  '\n' :: List.replicate (2 * depth) ' '

mutual
/-- A document that starts at a depth of indentation. -/
def write (depth : Nat) : Json → List Char
  | .number n => (toString n).toList
  | .string s => writeString s
  | .array [] => ['[', ']']
  | .array (item :: rest) =>
    ['['] ++ newLine (depth + 1) ++ item.write (depth + 1) ++ writeItems (depth + 1) rest ++
      newLine depth ++ [']']
  | .object [] => ['\x7b', '\x7d']
  | .object (field :: rest) =>
    ['\x7b'] ++ newLine (depth + 1) ++ writeField (depth + 1) field ++
      writeFields (depth + 1) rest ++ newLine depth ++ ['\x7d']

/-- The items of an array behind the first one. -/
def writeItems (depth : Nat) : List Json → List Char
  | [] => []
  | item :: rest => [','] ++ newLine depth ++ item.write depth ++ writeItems depth rest

/-- A field of an object. -/
def writeField (depth : Nat) : String × Json → List Char
  | (name, value) => writeString name ++ [':', ' '] ++ value.write depth

/-- The fields of an object behind the first one. -/
def writeFields (depth : Nat) : List (String × Json) → List Char
  | [] => []
  | field :: rest =>
    [','] ++ newLine depth ++ writeField depth field ++ writeFields depth rest
end

/-- The text of a document. -/
def text (document : Json) : String :=
  String.ofList (document.write 0)

end Json

/-! ## Programs as documents -/

/-- The document of an expression. -/
def Expr.json : Expr → Json
  | .operand o => .object [("kind", .string o.kind.word), ("value", .string o.text)]
  | .binary symbol left right =>
    .object [("kind", .string "operator"), ("value", .string symbol), ("left", left.json),
      ("right", right.json)]

/-- The fields that the document of every statement has. -/
def Statement.jsonFields (s : Statement) : List (String × Json) :=
  [("line", .number s.line), ("command", .string s.command),
    ("args", .array (s.args.map Expr.json))]

mutual
/-- The document of a node. -/
def Node.json : Node → Json
  | .simple s => .object s.jsonFields
  | .block s body => .object (s.jsonFields ++ [("children", .array (Node.jsonAll body))])

/-- The documents of nodes. -/
def Node.jsonAll : List Node → List Json
  | [] => []
  | node :: rest => node.json :: Node.jsonAll rest
end

/-- The document of a program. -/
def Program.json (nodes : List Node) : Json :=
  .array (Node.jsonAll nodes)

end Pipeline
