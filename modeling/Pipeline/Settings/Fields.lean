import Pipeline.Decimal
import Pipeline.Settings
import Pipeline.Settings.WholeNumber
import Pipeline.Text.LetterCase

/-!
# Settings from outside

A host gives settings as loosely typed fields, and some can come from environment variables.  Each
field is read by a rule of its own: numbers and truth values may be written as strings, names are
trimmed and lower-cased.  All fields are read, in a fixed order, before the problems found are
reported together.  Fields that are no settings are ignored.
-/

namespace Pipeline

/-! ## Raw values -/

/-- A setting as a host gives it. -/
inductive RawSetting where
  | null
  | boolean (b : Bool)
  | integer (n : Int)
  | decimal (d : Decimal)
  /-- A number that is not finite, or none at all, as it is shown. -/
  | unbounded (shown : String)
  | string (s : String)
  | list (elements : List RawSetting)
  | object (fields : List (String × RawSetting))
  deriving Repr

/-- The fields that a host gives, by name; of two with one name the last counts. -/
abbrev RawFields := List (String × RawSetting)

/-- The field with a name. -/
def RawFields.find? (fields : RawFields) (name : SettingName) : Option RawSetting :=
  (fields.reverse.find? (·.1 == name.word)).map (·.2)

namespace RawSetting

open Text

mutual
/-- A raw value as it is shown inside of another one, where strings are quoted. -/
def shown : RawSetting → String
  | .string s => quoted s
  | .null => "None"
  | .boolean b => if b then "True" else "False"
  | .integer n => toString n
  | .decimal d => d.text
  | .unbounded shown => shown
  | .list elements => "[" ++ ", ".intercalate (shownAll elements) ++ "]"
  | .object fields => "\x7b" ++ ", ".intercalate (shownFields fields) ++ "\x7d"

/-- The elements of a list as texts. -/
def shownAll : List RawSetting → List String
  | [] => []
  | element :: rest => element.shown :: shownAll rest

/-- The fields of an object as texts. -/
def shownFields : List (String × RawSetting) → List String
  | [] => []
  | (name, value) :: rest => (quoted name ++ ": " ++ value.shown) :: shownFields rest
end

/-- A raw value as text. -/
def text : RawSetting → String
  | .string s => s
  | raw => raw.shown

/-! ## Readers -/

/-- The words that are true and false, whatever their case. -/
def booleanOfWord? (word : String) : Option Bool :=
  let word := String.ofList (word.toList.map Char.toLower)
  if ["1", "on", "t", "true", "y", "yes"].contains word then some true
  else if ["0", "off", "f", "false", "n", "no"].contains word then some false
  else none

/-- The first number that 64 bits with a sign do not hold. -/
def wordBound : Int := 0x8000000000000000

/-- One and zero are the numbers that are truth values. -/
def booleanOfNumber (n : Int) : Except SettingProblem Bool :=
  if n = 1 then .ok true else if n = 0 then .ok false else .error .notBoolean

/-- Reads a truth value; a number has to fit into 64 bits. -/
def readBoolean : RawSetting → Except SettingProblem Bool
  | .boolean b => .ok b
  | .integer n =>
    if -wordBound ≤ n && n < wordBound then booleanOfNumber n else .error .booleanNeeded
  | .decimal d =>
    match d.whole? with
    | some n =>
      if -wordBound < n && n < wordBound then booleanOfNumber n else .error .booleanNeeded
    | none => .error .booleanNeeded
  | .string s =>
    match booleanOfWord? s with
    | some b => .ok b
    | none => .error .notBoolean
  | _ => .error .booleanNeeded

/-- Reads a whole number; a decimal has to fit into 64 bits. -/
def readInteger : RawSetting → Except SettingProblem Int
  | .integer n => .ok n
  | .boolean b => .ok (if b then 1 else 0)
  | .decimal d =>
    match d.whole? with
    | some n => if -wordBound < n && n < wordBound then .ok n else .error .tooLarge
    | none => .error .fraction
  | .unbounded _ => .error .notFinite
  | .string s => WholeNumber.read s.toList
  | _ => .error .integerNeeded

/-- Reads a number of at least one. -/
def readPositive (raw : RawSetting) : Except SettingProblem Nat := do
  let n ← raw.readInteger
  if n < 1 then throw .belowOne
  return n.toNat

/-- Reads an escape policy. -/
def readPolicy : RawSetting → Except SettingProblem EscapePolicy
  | .string "error" => .ok .reject
  | .string "keep" => .ok .keep
  | .string "drop" => .ok .drop
  | _ => .error .notListed

/-- Reads a terminator. -/
def readTerminator : RawSetting → Except SettingProblem String
  | .string s =>
    let word := lower (trim s.toList)
    if word.isEmpty then .error .empty else .ok (String.ofList word)
  | _ => .error .stringNeeded

/-- Command words from texts: trimmed, in lower case, blank ones left out, each of them once. -/
def commandWords (texts : List (List Char)) : List String :=
  (((texts.map trim).filter (!·.isEmpty)).map fun word => String.ofList (lower word)).eraseDups

/-- Reads a set of command words. -/
def readCommands : RawSetting → Except SettingProblem (List String)
  | .string s => .ok (commandWords (s.toList.splitOn ','))
  | .list elements => .ok (commandWords (elements.map fun element => element.text.toList))
  | _ => .error .namesNeeded

end RawSetting

/-! ## All fields -/

namespace Settings

/-- Reads one field, or takes the default. -/
def readField {α : Type} (fields : RawFields) (name : SettingName) (default : α)
    (read : RawSetting → Except SettingProblem α) : α × List SettingIssue :=
  match fields.find? name with
  | none => (default, [])
  | some raw =>
    match read raw with
    | .ok x => (x, [])
    | .error problem => (default, [⟨name.word, problem⟩])

/-- The settings that fields describe, or all that is wrong with them. -/
def ofFields (fields : RawFields) : Except Fault Settings :=
  let base : Settings := {}
  let (policy, issues₁) := readField fields .unknownEscape base.unknownEscape (·.readPolicy)
  let (strict, issues₂) := readField fields .strictVariables base.strictVariables (·.readBoolean)
  let (terminator, issues₃) := readField fields .terminator base.terminator (·.readTerminator)
  let (blocks, issues₄) := readField fields .blockCommands base.blockCommands (·.readCommands)
  let (depth, issues₅) := readField fields .maxDepth base.maxDepth (·.readPositive)
  let (calls, issues₆) := readField fields .maxCallDepth base.maxCallDepth (·.readPositive)
  match issues₁ ++ issues₂ ++ issues₃ ++ issues₄ ++ issues₅ ++ issues₆ with
  | [] => .ok ⟨policy, strict, terminator, blocks, depth, calls⟩
  | issues => .error (.settings issues)

/-- The environment variables that set fields, in the order in which they are looked at. -/
def environmentVariables : List (String × SettingName) :=
  [("PIPESCRIPT_UNKNOWN_ESCAPE", .unknownEscape),
    ("PIPESCRIPT_STRICT_VARIABLES", .strictVariables),
    ("PIPESCRIPT_MAX_DEPTH", .maxDepth),
    ("PIPESCRIPT_MAX_CALL_DEPTH", .maxCallDepth)]

/-- The text of an environment variable as a field; an escape policy is lower-cased. -/
def environmentText (name : SettingName) (s : String) : String :=
  if name = .unknownEscape then Text.lowerString s else s

/-- The fields that environment variables set; an empty variable sets nothing. -/
def environmentFields (lookup : String → Option String) : RawFields :=
  environmentVariables.filterMap fun (variableName, name) =>
    match lookup variableName with
    | some s => if s = "" then none else some (name.word, .string (environmentText name s))
    | none => none

/-- The settings from environment variables and from fields, which go before. -/
def ofEnvironment (lookup : String → Option String) (fields : RawFields) :
    Except Fault Settings :=
  ofFields (environmentFields lookup ++ fields)

/-- Settings cannot be changed once they are made. -/
def assign (_ : Settings) (field : String) : Except Fault Settings :=
  .error (.settings [⟨field, .frozen⟩])

end Settings

end Pipeline
