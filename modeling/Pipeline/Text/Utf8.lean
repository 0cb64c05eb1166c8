/-!
# Reading UTF-8

Strict decoding: characters are read one after another, and the first offset at which no character
starts is the answer when there is one.
-/

namespace Pipeline.Text

/-- The characters encoded from an offset on, or the first offset where none is. -/
def decodeUtf8From (bytes : ByteArray) (offset : Nat) : Except Nat (List Char) :=
  if offset < bytes.size then
    match bytes.utf8DecodeChar? offset with
    | none => .error offset
    | some c => (decodeUtf8From bytes (offset + c.utf8Size)).map (c :: ·)
  else .ok []
termination_by bytes.size - offset
decreasing_by
  have := c.utf8Size_pos
  omega

/-- The text that the bytes encode, or the offset of the first sequence that encodes nothing. -/
def decodeUtf8 (bytes : ByteArray) : Except Nat String :=
  (decodeUtf8From bytes 0).map String.ofList

end Pipeline.Text
