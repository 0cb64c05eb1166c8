import Pipeline.CommandLine

/-!
# The program

Hands the arguments, the environment variables, the standard input and the files of the system to
the command line, and prints what it says.  The command line is a function, so files are fetched by
need: it is evaluated again with one more file known, until it asks for nothing that is not known.
-/

namespace Pipeline.CommandLine

/-- An error number; some calls of the system give it with the opposite sign. -/
def errorNumber (code : UInt32) : Nat :=
  if code < 0x80000000 then code.toNat else (0 - code).toNat

/-- The file problem that a failed reading means. -/
def fileProblem : IO.Error → FileProblem
  | .inappropriateType _ code _ =>
    if errorNumber code = FileProblem.notDirectory.number then .notDirectory else .isDirectory
  | .invalidArgument _ code _ =>
    if errorNumber code = FileProblem.nameTooLong.number then .nameTooLong else .missing
  | _ => .missing

/-- Reads a file of the system. -/
def fetch (path : String) : IO (Except FileProblem ByteArray) := do
  try
    return .ok (← IO.FS.readBinFile (Path.normal path))
  catch problem =>
    return .error (fileProblem problem)

/-- All bytes that are left in a stream. -/
partial def readAll (stream : IO.FS.Stream) (front : ByteArray) : IO ByteArray := do
  let bytes ← stream.read 65536
  if bytes.isEmpty then return front else readAll stream (front ++ bytes)

/-- The environment variables that are set. -/
def setVariables : IO (List (String × String)) :=
  Settings.environmentVariables.filterMapM fun (name, _) => do
    return (← IO.getEnv name).map (name, ·)

/-- Evaluates the command line with the files that are known, and fetches the first one that is
asked for and is not known. -/
partial def performKnowing (around : Surroundings) (args : List String)
    (known : List (String × Except FileProblem ByteArray)) : IO Ending := do
  let files : FileSystem := fun path => (known.lookup path).getD (.error .missing)
  let ending := perform { around with files := files } args
  match ending.asked.find? fun path => !hasNul path && (known.lookup path).isNone with
  | none => return ending
  | some path => performKnowing around args ((path, ← fetch path) :: known)

end Pipeline.CommandLine

open Pipeline CommandLine in
/-- Runs the command line. -/
def main (args : List String) : IO UInt32 := do
  let texts ← setVariables
  let input ← if readArgs args = .lint then readAll (← IO.getStdin) .empty else pure .empty
  match String.fromUTF8? input with
  | none =>
    IO.eprintln "the standard input is not valid UTF-8"
    return 1
  | some text =>
    let ending ← performKnowing { lookup := fun name => texts.lookup name, input := text } args []
    IO.print ending.output
    match ending.result with
    | .ok code => return code.toUInt32
    | .error fault =>
      IO.eprintln fault.text
      return 1
