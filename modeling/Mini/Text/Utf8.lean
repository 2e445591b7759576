/-!
# Strict UTF-8

Bytes are decoded into characters one encoded character after another. Where the bytes do not continue with
the encoding of a character, decoding stops and answers with the offset at which that character would have
begun: truncated and overlong sequences, surrogates, and values beyond the last code point are blamed on
their first byte. A byte order mark is a character like any other.
-/

namespace Mini.Text

/-- The characters from an offset on, behind the characters before it, which come reversed; or the offset of
the first sequence that encodes no character. -/
def decodeUtf8From (bytes : ByteArray) (offset : Nat) (found : List Char) : Except Nat (List Char) :=
  if offset < bytes.size then
    match bytes.utf8DecodeChar? offset with
    | none => .error offset
    | some c => decodeUtf8From bytes (offset + c.utf8Size) (c :: found)
  else
    .ok found.reverse
  termination_by bytes.size - offset
  decreasing_by have := c.utf8Size_pos; omega

/-- The characters that the bytes encode, or the offset of the first sequence that encodes none. -/
def decodeUtf8 (bytes : ByteArray) : Except Nat (List Char) :=
  decodeUtf8From bytes 0 []

theorem decodeUtf8From_end {bytes : ByteArray} {offset : Nat} (h : bytes.size ≤ offset) (found : List Char) :
    decodeUtf8From bytes offset found = .ok found.reverse := by
  rw [decodeUtf8From, if_neg (Nat.not_lt.mpr h)]

theorem decodeUtf8From_some {bytes : ByteArray} {offset : Nat} {c : Char}
    (h : bytes.utf8DecodeChar? offset = some c) (found : List Char) :
    decodeUtf8From bytes offset found = decodeUtf8From bytes (offset + c.utf8Size) (c :: found) := by
  have inside : offset < bytes.size :=
    ByteArray.lt_size_of_isSome_utf8DecodeChar? (by rw [h]; rfl)
  rw [decodeUtf8From, if_pos inside, h]

theorem decodeUtf8From_none {bytes : ByteArray} {offset : Nat} (inside : offset < bytes.size)
    (h : bytes.utf8DecodeChar? offset = none) (found : List Char) :
    decodeUtf8From bytes offset found = .error offset := by
  rw [decodeUtf8From, if_pos inside, h]

end Mini.Text
