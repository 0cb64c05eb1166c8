import Pipeline.Proofs.Faults
import Pipeline.Text.Utf8

/-!
# Bytes that are decoded

Decoding goes through the bytes from the front, one character at a time, and it never has a choice: the
bytes of a text determine the text.  So it gets as far as the bytes are those of a text at all, and where
it stops there is no longer part at the front that could be decoded.

* `begins_concat_iff` : one more character is read.
* `decodeUtf8_eq_ok_iff` : the bytes that are decoded.
* `validUpTo_of_decodeUtf8` : where decoding stops at all others.
-/

namespace Pipeline.Text

/-- Some bytes begin with those of some characters. -/
def Begins (chars : List Char) (bytes : ByteArray) : Prop :=
  ∃ more, bytes = chars.utf8Encode ++ more

/-- The first `n` of some bytes are a text, and no longer part at the front is one. -/
structure ValidUpTo (bytes : ByteArray) (n : Nat) : Prop where
  le_size : n ≤ bytes.size
  valid : (bytes.extract 0 n).IsValidUTF8
  longest : ∀ m, m ≤ bytes.size → (bytes.extract 0 m).IsValidUTF8 → m ≤ n

theorem ValidUpTo.unique {bytes : ByteArray} {n m : Nat} (hn : ValidUpTo bytes n)
    (hm : ValidUpTo bytes m) : n = m :=
  Nat.le_antisymm (hm.longest n hn.le_size hn.valid) (hn.longest m hm.le_size hm.valid)

variable {bytes : ByteArray} {before chars : List Char}

/-! ### One character -/

theorem Begins.size_le (h : Begins chars bytes) : chars.utf8Encode.size ≤ bytes.size := by
  obtain ⟨more, rfl⟩ := h
  rw [ByteArray.size_append]
  omega

theorem Begins.extract_eq (h : Begins chars bytes) :
    bytes.extract 0 chars.utf8Encode.size = chars.utf8Encode := by
  obtain ⟨more, rfl⟩ := h
  exact ByteArray.extract_append_eq_left rfl

theorem begins_of_extract {m : Nat} (h : bytes.extract 0 m = chars.utf8Encode) :
    Begins chars bytes := by
  refine ⟨bytes.extract m bytes.size, ?_⟩
  rw [← h, ByteArray.extract_append_extract]
  simp

theorem size_utf8Encode_concat (chars : List Char) (c : Char) :
    (chars ++ [c]).utf8Encode.size = chars.utf8Encode.size + c.utf8Size := by
  rw [List.utf8Encode_append, ByteArray.size_append, List.utf8Encode_singleton,
    List.size_toByteArray, String.length_utf8EncodeChar]

/-- One more character is read where the bytes go on with its bytes. -/
theorem begins_concat_iff (h : Begins chars bytes) (c : Char) :
    Begins (chars ++ [c]) bytes ↔ bytes.utf8DecodeChar? chars.utf8Encode.size = some c := by
  obtain ⟨more, rfl⟩ := h
  have hextract : (chars.utf8Encode ++ more).extract chars.utf8Encode.size
      (chars.utf8Encode ++ more).size = more :=
    ByteArray.extract_append_eq_right rfl ByteArray.size_append
  rw [ByteArray.utf8DecodeChar?_eq_utf8DecodeChar?_extract, hextract]
  constructor
  · rintro ⟨rest, hrest⟩
    rw [List.utf8Encode_append, ByteArray.append_assoc, ByteArray.append_right_inj,
      List.utf8Encode_singleton] at hrest
    rw [hrest]
    exact ByteArray.utf8DecodeChar?_utf8EncodeChar_append
  · intro hchar
    obtain ⟨rest, hrest⟩ := ByteArray.exists_of_utf8DecodeChar?_eq_some hchar
    refine ⟨rest, ?_⟩
    rw [List.utf8Encode_append, ByteArray.append_assoc, List.utf8Encode_singleton, ← hrest]

theorem Begins.init (h : Begins (before ++ chars) bytes) : Begins before bytes := by
  obtain ⟨more, rfl⟩ := h
  rw [List.utf8Encode_append, ByteArray.append_assoc]
  exact ⟨_, rfl⟩

/-! ### All of them -/

theorem decodeUtf8From_concat {c : Char} (h : Begins (chars ++ [c]) bytes) :
    decodeUtf8From bytes chars.utf8Encode.size =
      (decodeUtf8From bytes (chars ++ [c]).utf8Encode.size).map (c :: ·) := by
  have hchar := (begins_concat_iff h.init c).1 h
  have hlt : chars.utf8Encode.size < bytes.size := by
    have hsize := h.size_le
    have hpos := c.utf8Size_pos
    rw [size_utf8Encode_concat] at hsize
    omega
  rw [size_utf8Encode_concat, decodeUtf8From, if_pos hlt, hchar]

/-- The characters with which the bytes go on are read. -/
theorem decodeUtf8From_append (h : Begins (before ++ chars) bytes) :
    decodeUtf8From bytes before.utf8Encode.size =
      (decodeUtf8From bytes (before ++ chars).utf8Encode.size).map (chars ++ ·) := by
  induction chars generalizing before with
  | nil =>
    rw [List.append_nil]
    cases decodeUtf8From bytes before.utf8Encode.size <;> rfl
  | cons c chars ih =>
    have hsplit : before ++ c :: chars = before ++ [c] ++ chars := by simp
    rw [hsplit] at h ⊢
    rw [decodeUtf8From_concat h.init, ih h]
    cases decodeUtf8From bytes (before ++ [c] ++ chars).utf8Encode.size <;> rfl

/-- Decoding goes on to the end of the bytes, which are all characters then, or it stops behind
characters where the bytes do not go on with one. -/
theorem decodeUtf8From_ends (h : Begins before bytes) :
    match decodeUtf8From bytes before.utf8Encode.size with
    | .ok chars => bytes = (before ++ chars).utf8Encode
    | .error n => before.utf8Encode.size ≤ n ∧
        ∃ chars, n = chars.utf8Encode.size ∧ Begins chars bytes := by
  generalize hoffset : before.utf8Encode.size = offset
  fun_induction decodeUtf8From bytes offset generalizing before with
  | case1 offset hlt hnone => exact ⟨Nat.le_refl _, before, hoffset.symm, h⟩
  | case2 offset hlt c hchar ih =>
    subst hoffset
    have hnext := (begins_concat_iff h c).2 hchar
    have hends := ih hnext (size_utf8Encode_concat before c)
    cases hrest : decodeUtf8From bytes (before.utf8Encode.size + c.utf8Size) with
    | error n =>
      rw [hrest] at hends
      obtain ⟨hle, hstop⟩ := hends
      exact ⟨Nat.le_of_add_right_le hle, hstop⟩
    | ok chars =>
      rw [hrest] at hends
      show bytes = (before ++ c :: chars).utf8Encode
      simpa using hends
  | case3 offset hend =>
    obtain ⟨more, rfl⟩ := h
    have hmore : more.size = 0 := by
      rw [ByteArray.size_append] at hend
      omega
    rw [ByteArray.size_eq_zero_iff.1 hmore]
    simp

theorem begins_nil (bytes : ByteArray) : Begins [] bytes :=
  ⟨bytes, by simp⟩

/-- The bytes of a text are decoded to this text, and no others are. -/
theorem decodeUtf8_eq_ok_iff {s : String} : decodeUtf8 bytes = .ok s ↔ bytes = s.toUTF8 := by
  rw [decodeUtf8, String.toUTF8_eq_toByteArray, ← String.utf8Encode_toList]
  constructor
  · intro h
    have hends := decodeUtf8From_ends (begins_nil bytes)
    simp only [List.utf8Encode_nil, ByteArray.size_empty, List.nil_append] at hends
    obtain ⟨chars, hchars, rfl⟩ := exists_of_map_eq_ok h
    rw [hchars] at hends
    rw [hends, String.toList_ofList]
  · rintro rfl
    have hbegins : Begins ([] ++ s.toList) s.toList.utf8Encode := ⟨.empty, by simp⟩
    have hread := decodeUtf8From_append hbegins
    rw [List.nil_append, decodeUtf8From.eq_def _ s.toList.utf8Encode.size,
      if_neg (Nat.lt_irrefl _)] at hread
    show (decodeUtf8From _ ([] : List Char).utf8Encode.size).map String.ofList = _
    rw [hread]
    simp [Except.map]

/-- Decoding stops behind the longest part at the front that is a text. -/
theorem validUpTo_of_decodeUtf8 {n : Nat} (h : decodeUtf8 bytes = .error n) :
    ValidUpTo bytes n := by
  have hstop : decodeUtf8From bytes ([] : List Char).utf8Encode.size = .error n :=
    eq_error_of_map h
  have hends := decodeUtf8From_ends (begins_nil bytes)
  rw [hstop] at hends
  obtain ⟨-, chars, rfl, hchars⟩ := hends
  refine ⟨hchars.size_le, ⟨chars, hchars.extract_eq⟩, ?_⟩
  -- Whatever else the bytes begin with, decoding goes past it before it stops.
  rintro m hm ⟨other, hother⟩
  have hbegins : Begins ([] ++ other) bytes := begins_of_extract hother
  have hpast := decodeUtf8From_ends hbegins
  rw [decodeUtf8From_append hbegins] at hstop
  rw [eq_error_of_map hstop, List.nil_append, ← hother, ByteArray.size_extract] at hpast
  omega

end Pipeline.Text
