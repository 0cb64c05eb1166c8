import Pipeline.Proofs.Session.Steps
import Pipeline.Proofs.Text.Decoding

/-!
# Programs in files

The bytes of a file are the program if they are those of a text: nothing is added to them or left out,
and whoever reads the file has read this text.  All other bytes are refused with a fault that says how far
they are a text, by the number of bytes and by the line.

* `Source.read_file`, `Source.read_file_of_invalid` : the two ends of reading a file.
* `Session.load_file` : what a session makes of them.
-/

namespace Pipeline

section

variable {files : FileSystem} {path : String} {bytes : ByteArray}

/-- A file with the bytes of a text is read as this text. -/
theorem Source.read_file {text : String} (hname : hasNul path = false)
    (hfile : files path = .ok text.toUTF8) : (Source.file path).read files = .ok text := by
  rw [read, hname, hfile]
  dsimp only
  rw [Text.decodeUtf8_eq_ok_iff.2 rfl]
  rfl

/-- What a file is refused with whose bytes are no text behind the first `offset` ones. -/
def Source.notText (path : String) (bytes : ByteArray) (offset : Nat) : Fault :=
  .script (.notUtf8 (Path.normal path) offset) (.ofLine ((bytes.toList.take offset).count 10 + 1 : Nat))

theorem Source.text_notText (path : String) (bytes : ByteArray) (offset : Nat) :
    (notText path bytes offset).text =
      "Line " ++ toString (((bytes.toList.take offset).count 10 + 1 : Nat) : Int) ++ ": " ++
        (Path.normal path ++ " is not valid UTF-8 at byte " ++ toString offset) := by
  show (Place.ofLine _).locate _ = _
  rw [Place.locate, Place.ofLine]
  simp only [String.append_empty]
  rfl

/-- A file with other bytes is refused behind the longest part of them that is a text. -/
theorem Source.read_file_of_invalid (hname : hasNul path = false) (hfile : files path = .ok bytes)
    (hinvalid : ∀ text : String, bytes ≠ text.toUTF8) :
    ∃ offset, Text.ValidUpTo bytes offset ∧
      (Source.file path).read files = .error (notText path bytes offset) := by
  cases hdecode : Text.decodeUtf8 bytes with
  | ok text => exact absurd (Text.decodeUtf8_eq_ok_iff.1 hdecode) (hinvalid text)
  | error offset =>
    refine ⟨offset, Text.validUpTo_of_decodeUtf8 hdecode, ?_⟩
    rw [read, hname, hfile]
    dsimp only
    rw [hdecode]
    rfl

namespace Session

/-- **A program in a file is the text that the file holds.**  If the bytes of a file are those of a text,
reading the program from the file comes to the same as reading it from the text, whether there is a
program then or a fault.  If they are not, the file is refused with a lexical fault, which names the
number of bytes in the longest part at the front that is a text, and the line behind the line feeds in
this part. -/
theorem load_file (hname : hasNul path = false) (hfile : files path = .ok bytes) (session : Session) :
    (∀ text : String, bytes = text.toUTF8 →
      parse files session.settings (.file path) = parse files session.settings (.text text) ∧
        session.load files (.file path) = session.load files (.text text)) ∧
    ((∀ text : String, bytes ≠ text.toUTF8) → ∃ offset line fault,
      Text.ValidUpTo bytes offset ∧ line = (bytes.toList.take offset).count 10 + 1 ∧
        parse files session.settings (.file path) = .error fault ∧
        session.load files (.file path) = (.error fault, session) ∧
        fault.category? = some .lexical ∧
        fault.text = "Line " ++ toString (line : Int) ++ ": " ++
          (Path.normal path ++ " is not valid UTF-8 at byte " ++ toString offset)) := by
  constructor
  · rintro text rfl
    have hread := Source.read_file hname hfile
    constructor
    · rw [parse, parse, hread]
      rfl
    · rw [load, load, hread]
      rfl
  · intro hinvalid
    obtain ⟨offset, hvalid, hread⟩ := Source.read_file_of_invalid hname hfile hinvalid
    have hparse : parse files session.settings (.file path) =
        .error (Source.notText path bytes offset) := by
      rw [parse, hread]
      rfl
    have hload : session.load files (.file path) =
        (.error (Source.notText path bytes offset), session) := by
      rw [load, hread]
    exact ⟨offset, _, _, hvalid, rfl, hparse, hload, rfl, Source.text_notText path bytes offset⟩

/-- A sequence that breaks off on the second line, in a file whose path is shown in its normal form. -/
theorem load_file_truncated :
    let bytes : ByteArray := ⟨#[0x61, 0x0A, 0xC3, 0x28]⟩
    hasNul "./b" = false ∧ (∀ text : String, bytes ≠ text.toUTF8) ∧
      ∃ fault, parse (fun _ => .ok bytes) {} (.file "./b") = .error fault ∧
        fault.category? = some .lexical ∧
        fault.text = "Line 2: b is not valid UTF-8 at byte 2" := by
  intro bytes
  have hname : hasNul "./b" = false := by decide +kernel
  have hdecode : Text.decodeUtf8 bytes = .error 2 := by decide +kernel
  have hinvalid : ∀ text : String, bytes ≠ text.toUTF8 := by
    intro text htext
    have hread := Text.decodeUtf8_eq_ok_iff.2 htext
    rw [hdecode] at hread
    cases hread
  refine ⟨hname, hinvalid, ?_⟩
  let files : FileSystem := fun _ => .ok bytes
  have hfile : files "./b" = .ok bytes := rfl
  let session : Session := { settings := {}, registry := .standard }
  obtain ⟨offset, line, fault, hvalid, hline, hparse, -, hcategory, htext⟩ :=
    (load_file hname hfile session).2 hinvalid
  obtain rfl := hvalid.unique (Text.validUpTo_of_decodeUtf8 hdecode)
  refine ⟨fault, hparse, hcategory, ?_⟩
  rw [htext, hline]
  decide +kernel

end Session

end

end Pipeline
