import Mini.CommandLine.Source

/-!
# Text written as bytes

What reading makes of bytes that were written from a text. `decodeUtf8_utf8Encode`: decoding gives back the text that was
encoded, whatever its characters are. `unifyNewlines_write`: unifying line endings gives back a text without carriage
returns, in whichever of the three ways its lines were ended. `decodeSource_write` is both together.

Decoding goes from character to character, and behind any part of the text it stands where the bytes of the rest begin
(`decodeUtf8From_utf8Encode`). So much holds also when other bytes follow.
-/

namespace Mini

namespace Text

/-! ## Decoding what was encoded -/

/-- A character that was encoded is found where its bytes begin. -/
theorem utf8DecodeChar?_append_utf8Encode (front : ByteArray) (c : Char) (back : ByteArray) :
    (front ++ ([c].utf8Encode ++ back)).utf8DecodeChar? front.size = some c := by
  rw [ByteArray.utf8DecodeChar?_eq_utf8DecodeChar?_extract, ByteArray.extract_append_eq_right rfl ByteArray.size_append,
    List.utf8DecodeChar?_utf8Encode_singleton_append]

/-- **Decoding passes over what was encoded**, and what it finds are the characters of the text. -/
theorem decodeUtf8From_utf8Encode (front : ByteArray) (text : List Char) (back : ByteArray) (found : List Char) :
    decodeUtf8From (front ++ (text.utf8Encode ++ back)) front.size found =
      decodeUtf8From (front ++ (text.utf8Encode ++ back)) (front ++ text.utf8Encode).size (text.reverse ++ found) := by
  induction text generalizing front found with
  | nil => rw [List.utf8Encode_nil, ByteArray.append_empty, List.reverse_nil, List.nil_append]
  | cons c rest ih =>
    have whole : (c :: rest).utf8Encode = [c].utf8Encode ++ rest.utf8Encode := List.utf8Encode_cons
    have behind : front.size + c.utf8Size = (front ++ [c].utf8Encode).size := by
      rw [ByteArray.size_append, List.utf8Encode_singleton]
      simp
    have passed : front ++ [c].utf8Encode ++ rest.utf8Encode = front ++ ([c].utf8Encode ++ rest.utf8Encode) :=
      ByteArray.append_assoc
    rw [whole, ByteArray.append_assoc, decodeUtf8From_some (utf8DecodeChar?_append_utf8Encode front c _), behind,
      ← ByteArray.append_assoc, ih, passed, List.reverse_cons, List.append_assoc]
    rfl

/-- **Decoding undoes encoding.** -/
theorem decodeUtf8_utf8Encode (text : List Char) : decodeUtf8 text.utf8Encode = .ok text := by
  have passed := decodeUtf8From_utf8Encode .empty text .empty []
  rw [ByteArray.append_empty, ByteArray.empty_append, List.append_nil] at passed
  exact passed.trans ((decodeUtf8From_end (Nat.le_refl _) _).trans (by rw [List.reverse_reverse]))

/-! ## Line endings -/

/-- The ways to end a line. -/
inductive LineEnding where
  | lineFeed
  | carriageReturn
  | both
  deriving DecidableEq, Repr

namespace LineEnding

/-- What stands at the end of a line. -/
def characters : LineEnding → List Char
  | .lineFeed => ['\n']
  | .carriageReturn => ['\r']
  | .both => ['\r', '\n']

/-- A text with every line feed written as the ending. -/
def write (ending : LineEnding) (text : List Char) : List Char :=
  text.flatMap fun c => if c = '\n' then ending.characters else [c]

variable {ending : LineEnding} {text rest : List Char} {c : Char}

theorem write_newline_cons (ending : LineEnding) (rest : List Char) :
    ending.write ('\n' :: rest) = ending.characters ++ ending.write rest := by
  rw [write, List.flatMap_cons, if_pos rfl]
  rfl

theorem write_cons (h : c ≠ '\n') : ending.write (c :: rest) = c :: ending.write rest := by
  rw [write, List.flatMap_cons, if_neg h]
  rfl

/-- Where lines end with carriage returns there are no line feeds. -/
theorem head?_write_carriageReturn (text : List Char) : (carriageReturn.write text).head? ≠ some '\n' := by
  cases text with
  | nil =>
    intro same
    cases same
  | cons c rest =>
    by_cases newline : c = '\n'
    · rw [newline, write_newline_cons, characters, List.cons_append, List.head?_cons]
      decide
    · rw [write_cons newline, List.head?_cons]
      exact fun same => newline (Option.some.inj same)

end LineEnding

/-- **However its lines were ended, a text without carriage returns comes back.** -/
theorem unifyNewlines_write (ending : LineEnding) {text : List Char} (noReturn : '\r' ∉ text) :
    unifyNewlines (ending.write text) = text := by
  induction text with
  | nil => rfl
  | cons c rest ih =>
    obtain ⟨notReturn, noReturnBehind⟩ := List.ne_and_not_mem_of_not_mem_cons noReturn
    by_cases newline : c = '\n'
    · subst newline
      rw [LineEnding.write_newline_cons]
      cases ending with
      | lineFeed =>
        show unifyNewlines ('\n' :: LineEnding.lineFeed.write rest) = _
        rw [unifyNewlines_cons (by decide), ih noReturnBehind]
      | carriageReturn =>
        show unifyNewlines ('\r' :: LineEnding.carriageReturn.write rest) = _
        rw [unifyNewlines_return (LineEnding.head?_write_carriageReturn rest), ih noReturnBehind]
      | both =>
        show unifyNewlines ('\r' :: '\n' :: LineEnding.both.write rest) = _
        rw [unifyNewlines_pair, ih noReturnBehind]
    · rw [LineEnding.write_cons newline, unifyNewlines_cons notReturn.symm, ih noReturnBehind]

end Text

namespace CommandLine

/-- **A text without carriage returns can be read from its bytes**, however its lines were ended. -/
theorem decodeSource_write (ending : Text.LineEnding) {text : String} (noReturn : '\r' ∉ text.toList) :
    decodeSource (ending.write text.toList).utf8Encode = .ok text := by
  rw [decodeSource, Text.decodeUtf8_utf8Encode]
  show Except.ok (String.ofList (Text.unifyNewlines (ending.write text.toList))) = _
  rw [Text.unifyNewlines_write ending noReturn, String.ofList_toList]

end CommandLine

end Mini
