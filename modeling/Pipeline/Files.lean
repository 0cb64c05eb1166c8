import Pipeline.Fault
import Pipeline.Text.Utf8

/-!
# Files

Scripts name files by paths.  How a path is written does not matter: doubled and trailing slashes
and single dots are left out, while two dots are kept, because they are steps of their own.  A file
system is known by what it answers when a file is to be opened; `FileTree` is one in memory, seen
from its root as the working directory.
-/

namespace Pipeline

/-! ## Paths -/

namespace Path

/-- The steps of a path. -/
def steps (path : String) : List String :=
  ((path.toList.splitOn '/').map String.ofList).filter fun step => step != "" && step != "."

/-- The slashes that a path has to start with to be what it is: none, one, or exactly two. -/
def root (path : String) : String :=
  match path.toList with
  | '/' :: '/' :: '/' :: _ => "/"
  | '/' :: '/' :: _ => "//"
  | '/' :: _ => "/"
  | _ => ""

/-- The shortest way to write the same steps. -/
def normal (path : String) : String :=
  let text := root path ++ "/".intercalate (steps path)
  if text = "" then "." else text

/-- Whether the path starts at the root of the file system. -/
def isAbsolute (path : String) : Bool :=
  root path != ""

end Path

/-! ## File systems -/

/-- What a file system answers when a path is to be opened for reading. -/
abbrev FileSystem := String → Except FileProblem ByteArray

/-- The longest step of a path and the longest path, in bytes. -/
def maxStepBytes : Nat := 255

/-- A path has to be shorter than this, in bytes. -/
def pathByteLimit : Nat := 4096

/-- Files and directories below a working directory. -/
structure FileTree where
  files : List (List String × ByteArray) := []
  directories : List (List String) := []

namespace FileTree

/-- A tree of files and directories given by their paths. -/
def ofPaths (files : List (String × ByteArray)) (directories : List String) : FileTree where
  files := files.map fun file => (Path.steps file.1, file.2)
  directories := directories.map Path.steps

/-- The file that lies at a position. -/
def fileAt? (tree : FileTree) (position : List String) : Option ByteArray :=
  (tree.files.find? (·.1 == position)).map (·.2)

/-- Whether a directory lies at a position. -/
def isDirectory (tree : FileTree) (position : List String) : Bool :=
  position.isEmpty || tree.directories.any position.isPrefixOf ||
    tree.files.any fun file => position.isPrefixOf file.1 && position != file.1

/-- Follows steps from a position; the position is `none` outside of the tree, where nothing that
has a name is known. -/
def walk (tree : FileTree) : Option (List String) → List String →
    Except FileProblem (Option (List String))
  | position, [] => .ok position
  | none, step :: rest =>
    if maxStepBytes < step.utf8ByteSize then .error .nameTooLong
    else if step = ".." then tree.walk none rest
    else .error .missing
  | some position, step :: rest =>
    if (tree.fileAt? position).isSome then .error .notDirectory
    else if step = ".." then
      tree.walk (if position.isEmpty then none else some position.dropLast) rest
    else if maxStepBytes < step.utf8ByteSize then .error .nameTooLong
    else
      let next := position ++ [step]
      if (tree.fileAt? next).isSome || tree.isDirectory next then tree.walk (some next) rest
      else .error .missing

/-- Opens a file. -/
def read (tree : FileTree) (path : String) : Except FileProblem ByteArray := do
  let path := Path.normal path
  if pathByteLimit ≤ path.utf8ByteSize then throw .nameTooLong
  let start := if Path.isAbsolute path then none else some []
  match ← tree.walk start (Path.steps path) with
  | none => throw .isDirectory
  | some position =>
    match tree.fileAt? position with
    | some bytes => return bytes
    | none => throw .isDirectory

end FileTree

/-! ## Texts -/

/-- Whether a path holds the character that no path may hold. -/
def hasNul (path : String) : Bool :=
  path.toList.contains (Char.ofNat 0)

/-- The number of line feeds among the first bytes. -/
def lineFeedsBefore (bytes : ByteArray) (offset : Nat) : Nat :=
  (bytes.toList.take offset).count 10

/-- Where the text of a program comes from. -/
inductive Source where
  | text (s : String)
  | file (path : String)
  deriving DecidableEq, Repr

/-- The text of a program, exactly as it stands in its file. -/
def Source.read (files : FileSystem) : Source → Except Fault String
  | .text s => .ok s
  | .file path =>
    if hasNul path then .error .nulInPath
    else
      match files path with
      | .error problem => .error (.file problem (Path.normal path))
      | .ok bytes =>
        match Text.decodeUtf8 bytes with
        | .ok s => .ok s
        | .error offset =>
          .error (.script (.notUtf8 (Path.normal path) offset)
            (.ofLine (lineFeedsBefore bytes offset + 1)))

end Pipeline
