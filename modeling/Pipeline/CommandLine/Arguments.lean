import Pipeline.Numeral

/-!
# Arguments of the command line

Flags may stand anywhere among the arguments of a command.  A long flag can be shortened to anything
that only it starts with, and short flags can be written in one word, with or without an equals sign
behind the first one.  A word of two dashes ends the flags.  Words are told apart before any of them
is acted on, so an ambiguous flag is an error wherever it stands.
-/

namespace Pipeline.CommandLine

/-! ## Words -/

/-- The flags of the program and of its commands. -/
inductive Flag where
  | help
  | verbose
  | trace
  | strict
  | showResult
  deriving DecidableEq, Repr

/-- The flags that are understood in one place, with their spellings. -/
abbrev Flags := List (String × Flag)

/-- The flags before the command. -/
def programFlags : Flags :=
  [("-h", .help), ("--help", .help), ("-v", .verbose), ("--verbose", .verbose),
    ("--trace", .trace)]

/-- The flags of the command that runs a script. -/
def runFlags : Flags :=
  [("-h", .help), ("--help", .help), ("--strict", .strict), ("--show-result", .showResult)]

/-- The flags of the other commands. -/
def plainFlags : Flags :=
  [("-h", .help), ("--help", .help)]

/-- A word of the command line. -/
inductive Word where
  /-- A flag, and the letters behind it in the same word. -/
  | flag (flag : Flag) (letters : List Char)
  /-- A flag with a text behind an equals sign that it does not take. -/
  | loaded
  /-- Looks like a flag and is none. -/
  | unknown
  /-- The two dashes that end the flags. -/
  | separator
  | plain (s : String)
  deriving DecidableEq, Repr

/-- Whether a word is a negative number. -/
def isNegativeNumber (s : List Char) : Bool :=
  match s with
  | '-' :: rest =>
    let isDigit (c : Char) : Bool := (Text.digitValue? c).isSome
    match rest.dropWhile isDigit with
    | [] => !rest.isEmpty
    | '.' :: part => !part.isEmpty && part.all isDigit
    | _ => false
  | _ => false

/-- What a flag is when a word names it.  The text behind an equals sign holds the letters of more
flags where the flag is a short one; a long one takes no text. -/
def named (spelling : String) (flag : Flag) (s : List Char) : Word :=
  match s.dropWhile (· != '=') with
  | [] => .flag flag []
  | _ :: letters =>
    if "--".toList.isPrefixOf spelling.toList || letters.isEmpty then .loaded
    else .flag flag letters

/-- What a word with a dash in front may mean when it is not a flag in full. -/
def candidates (flags : Flags) (s : List Char) : List Word :=
  match s with
  | '-' :: '-' :: _ =>
    (flags.filter fun flag => (s.takeWhile (· != '=')).isPrefixOf flag.1.toList).map fun flag =>
      named flag.1 flag.2 s
  | _ =>
    (flags.filter fun flag => flag.1.toList == s.take 2).map fun flag => .flag flag.2 (s.drop 2)

/-- Tells what a word is; `none` where it is an ambiguous flag. -/
def readWord (flags : Flags) (word : String) : Option Word :=
  let s := word.toList
  match s with
  | '-' :: rest =>
    match flags.find? fun flag => flag.1.toList == s || flag.1.toList == s.takeWhile (· != '=') with
    | some flag => some (named flag.1 flag.2 s)
    | none =>
      if rest.isEmpty then some (.plain word)
      else
        match candidates flags s with
        | [found] => some found
        | [] => if isNegativeNumber s || s.contains ' ' then some (.plain word) else some .unknown
        | _ => none
  | _ => some (.plain word)

/-- Tells all words apart; behind the separator all of them are plain. -/
def readWords (flags : Flags) : List String → Option (List Word)
  | [] => some []
  | "--" :: rest => some (.separator :: rest.map .plain)
  | word :: rest => do return (← readWord flags word) :: (← readWords flags rest)

/-- The short flags that letters stand for; `none` if one of the letters is no flag. -/
def shortFlags (flags : Flags) : List Char → Option (List Flag)
  | [] => some []
  | c :: rest => do
    let flag ← flags.find? (·.1.toList == ['-', c])
    return flag.2 :: (← shortFlags flags rest)

/-! ## Requests -/

/-- What the command line asks for. -/
inductive Request where
  /-- Nothing: the help text is shown, and that counts as a failure. -/
  | nothing
  | help
  | commandHelp
  | run (file : String) (strict showResult : Bool)
  | tree (file : String)
  | lint
  /-- The arguments make no sense. -/
  | misuse
  deriving DecidableEq, Repr

/-- What has been seen of the arguments of a command. -/
structure Seen where
  file : Option String := none
  /-- Whether the file was the word before. -/
  justFile : Bool := false
  strict : Bool := false
  showResult : Bool := false
  /-- Whether there were words that nothing asks for. -/
  leftOver : Bool := false

/-- Acts on flags in order; `none` once help is asked for. -/
def actOn (seen : Seen) : List Flag → Option Seen
  | [] => some seen
  | .help :: _ => none
  | .strict :: rest => actOn { seen with strict := true } rest
  | .showResult :: rest => actOn { seen with showResult := true } rest
  | _ :: rest => actOn seen rest

/-- Reads the words of a command that takes a file or does not. -/
def readCommand (flags : Flags) (takesFile : Bool) (request : String → Seen → Request) :
    Seen → List Word → Request
  | seen, [] =>
    if seen.leftOver then .misuse
    else if takesFile then
      match seen.file with
      | some file => request file seen
      | none => .misuse
    else request "" seen
  | _, .loaded :: _ => .misuse
  | seen, .flag flag letters :: rest =>
    match shortFlags flags letters with
    | none => .misuse
    | some more =>
      match actOn { seen with justFile := false } (flag :: more) with
      | none => .commandHelp
      | some seen => readCommand flags takesFile request seen rest
  | seen, .unknown :: rest =>
    readCommand flags takesFile request { seen with leftOver := true, justFile := false } rest
  | seen, .separator :: rest =>
    let belongs := takesFile && (seen.file.isNone || seen.justFile)
    readCommand flags takesFile request
      { seen with leftOver := seen.leftOver || !belongs } rest
  | seen, .plain s :: rest =>
    if takesFile && seen.file.isNone then
      readCommand flags takesFile request { seen with file := some s, justFile := true } rest
    else
      readCommand flags takesFile request { seen with leftOver := true, justFile := false } rest

/-- Reads the arguments of a command. -/
def readCommandArgs (command : String) (args : List String) : Request :=
  let read (flags : Flags) (takesFile : Bool) (request : String → Seen → Request) : Request :=
    match readWords flags args with
    | none => .misuse
    | some words => readCommand flags takesFile request {} words
  match command with
  | "run" => read runFlags true fun file seen => .run file seen.strict seen.showResult
  | "tree" => read plainFlags true fun file _ => .tree file
  | "lint" => read plainFlags false fun _ _ => .lint
  | _ => .misuse

/-- Reads the words before the command; `leftOver` says that one of them was unknown. -/
def readProgramWords : (leftOver : Bool) → List Word → List String → Request
  | leftOver, [], _ => if leftOver then .misuse else .nothing
  | _, .loaded :: _, _ => .misuse
  | leftOver, .flag flag letters :: rest, args =>
    match shortFlags programFlags letters with
    | none => .misuse
    | some more =>
      if (flag :: more).contains .help then .help
      else readProgramWords leftOver rest (args.drop 1)
  | _, .unknown :: rest, args => readProgramWords true rest (args.drop 1)
  | _, .separator :: _, _ => .misuse
  | leftOver, .plain command :: _, args =>
    match readCommandArgs command (args.drop 1) with
    | .commandHelp => .commandHelp
    | request => if leftOver then .misuse else request

/-- What a command line asks for. -/
def readArgs (args : List String) : Request :=
  match readWords programFlags args with
  | none => .misuse
  | some words => readProgramWords false words args

end Pipeline.CommandLine
