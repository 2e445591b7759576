import Mini.CommandLine.Run
import Mini.Proofs.Encoding

/-!
# Bytes that encode no text

`run_of_bytes`: what a command line makes of the bytes it is given. If they encode a text, this text is compiled, with its
line endings unified and nothing else changed. If they encode none, the run ends there, and the byte it names is the first
behind the longest beginning of the bytes that encodes a text. The place is counted in the bytes as they are, before any
line ending is unified.

Decoding passes over bytes that encode what it has found, and over nothing else (`Text.decodeUtf8From_passes`), so it stops
behind an encoded beginning. It does not stop before the end of one (`Text.le_of_decodeUtf8_error`), since it goes over
anything that was encoded, whatever follows.
-/

namespace Mini

namespace Text

/-! ## Where decoding ends -/

/-- Whether so many bytes are the longest beginning that encodes a text. -/
structure IsLongestEncoded (bytes : ByteArray) (n : Nat) : Prop where
  le : n ≤ bytes.size
  encoded : ∃ text : List Char, bytes.extract 0 n = text.utf8Encode
  last : ∀ m ≤ bytes.size, (∃ text : List Char, bytes.extract 0 m = text.utf8Encode) → m ≤ n

/-- A character is found only where its encoding stands. -/
theorem extract_of_utf8DecodeChar? {bytes : ByteArray} {offset : Nat} {c : Char}
    (h : bytes.utf8DecodeChar? offset = some c) :
    bytes.extract offset (offset + c.utf8Size) = [c].utf8Encode := by
  have isSome : (bytes.utf8DecodeChar? offset).isSome := by rw [h]; rfl
  have found : bytes.utf8DecodeChar offset isSome = c := Option.get_of_eq_some isSome h
  have encoded := ByteArray.utf8EncodeChar_utf8DecodeChar (h := isSome)
  rw [found] at encoded
  rw [List.utf8Encode_singleton, encoded]

/-- **Decoding passes over the encoding of what it finds**, up to the end of the bytes or to the offset it blames. -/
theorem decodeUtf8From_passes {bytes : ByteArray} {offset : Nat} (inside : offset ≤ bytes.size) (found : List Char) :
    ∃ n text, offset ≤ n ∧ n ≤ bytes.size ∧ bytes.extract offset n = List.utf8Encode text ∧
      (n = bytes.size ∧ decodeUtf8From bytes offset found = .ok (found.reverse ++ text) ∨
        decodeUtf8From bytes offset found = .error n) := by
  fun_induction decodeUtf8From bytes offset found with
  | case1 offset found below missing =>
    exact ⟨offset, [], Nat.le_refl _, inside, ByteArray.extract_same.trans List.utf8Encode_nil.symm, .inr rfl⟩
  | case2 offset found below c here ih =>
    obtain ⟨n, text, further, le, encoded, ending⟩ := ih (ByteArray.le_size_of_utf8DecodeChar?_eq_some here)
    have whole : bytes.extract offset n = (c :: text).utf8Encode := by
      rw [ByteArray.extract_eq_extract_append_extract (offset + c.utf8Size) (Nat.le_add_right _ _) further,
        extract_of_utf8DecodeChar? here, encoded]
      exact List.utf8Encode_cons.symm
    rw [List.reverse_cons, List.append_assoc] at ending
    exact ⟨n, c :: text, Nat.le_trans (Nat.le_add_right _ _) further, le, whole, ending⟩
  | case3 offset found ended =>
    obtain rfl : offset = bytes.size := Nat.le_antisymm inside (Nat.not_lt.mp ended)
    refine ⟨bytes.size, [], Nat.le_refl _, Nat.le_refl _, ByteArray.extract_same.trans List.utf8Encode_nil.symm, .inl ⟨rfl, ?_⟩⟩
    rw [List.append_nil]

/-- **Decoding goes over whatever was encoded**, so it blames nothing before the end of an encoded beginning. -/
theorem le_of_decodeUtf8_error {bytes : ByteArray} {n m : Nat} {text : List Char} (stopped : decodeUtf8 bytes = .error n)
    (le : m ≤ bytes.size) (encoded : bytes.extract 0 m = text.utf8Encode) : m ≤ n := by
  have whole : bytes = .empty ++ (text.utf8Encode ++ bytes.extract m bytes.size) := by
    rw [ByteArray.empty_append, ← encoded, ← ByteArray.extract_eq_extract_append_extract m (Nat.zero_le _) le,
      ByteArray.extract_zero_size]
  have passed := decodeUtf8From_utf8Encode .empty text (bytes.extract m bytes.size) []
  have here : (ByteArray.empty ++ text.utf8Encode).size = m := by
    rw [ByteArray.empty_append, ← encoded, ByteArray.size_extract]
    omega
  rw [← whole, here] at passed
  obtain ⟨k, _, further, _, _, ⟨_, done⟩ | blamed⟩ := decodeUtf8From_passes le (text.reverse ++ [])
  · rw [← passed] at done
    exact absurd (stopped.symm.trans done) (by simp)
  · rw [← passed] at blamed
    rw [← Except.error.inj (blamed.symm.trans stopped)]
    exact further

/-- **Bytes that encode no text are blamed behind their longest beginning that encodes one.** -/
theorem exists_decodeUtf8_error {bytes : ByteArray} (none : ¬ ∃ text : List Char, bytes = text.utf8Encode) :
    ∃ n, decodeUtf8 bytes = .error n ∧ IsLongestEncoded bytes n := by
  obtain ⟨n, text, _, le, encoded, ⟨rfl, _⟩ | stopped⟩ := decodeUtf8From_passes (Nat.zero_le bytes.size) []
  · exact absurd ⟨text, ByteArray.extract_zero_size.symm.trans encoded⟩ none
  · exact ⟨n, stopped, le, ⟨text, encoded⟩, fun m leM ⟨_, encodedM⟩ => le_of_decodeUtf8_error stopped leM encodedM⟩

/-! ## Unified line endings -/

/-- Whether one text is another with its line endings unified: a carriage return, with the line feed behind it if there is
one, is a line feed, and every other character stays. -/
inductive Unified : List Char → List Char → Prop where
  | nil : Unified [] []
  | pair {rest unified : List Char} : Unified rest unified → Unified ('\r' :: '\n' :: rest) ('\n' :: unified)
  | lone {rest unified : List Char} : rest.head? ≠ some '\n' → Unified rest unified →
      Unified ('\r' :: rest) ('\n' :: unified)
  | kept {c : Char} {rest unified : List Char} : c ≠ '\r' → Unified rest unified → Unified (c :: rest) (c :: unified)

theorem exists_unified_onto (before text : List Char) :
    ∃ unified, Unified text unified ∧ unifyNewlinesOnto before text = before.reverse ++ unified := by
  fun_induction unifyNewlinesOnto before text with
  | case1 before => exact ⟨[], .nil, (List.append_nil _).symm⟩
  | case2 before rest ih =>
    obtain ⟨unified, isUnified, eq⟩ := ih
    exact ⟨'\n' :: unified, .pair isUnified, by rw [eq, List.reverse_cons, List.append_assoc]; rfl⟩
  | case3 before rest notPair ih =>
    obtain ⟨unified, isUnified, eq⟩ := ih
    have single : rest.head? ≠ some '\n' := fun first => by
      obtain ⟨more, rfl⟩ := List.head?_eq_some_iff.mp first
      exact notPair more rfl
    exact ⟨'\n' :: unified, .lone single isUnified, by rw [eq, List.reverse_cons, List.append_assoc]; rfl⟩
  | case4 before c rest notPair notReturn ih =>
    obtain ⟨unified, isUnified, eq⟩ := ih
    exact ⟨c :: unified, .kept notReturn isUnified, by rw [eq, List.reverse_cons, List.append_assoc]; rfl⟩

theorem unified_unifyNewlines (text : List Char) : Unified text (unifyNewlines text) := by
  obtain ⟨unified, isUnified, eq⟩ := exists_unified_onto [] text
  rw [unifyNewlines, eq]
  exact isUnified

end Text

namespace CommandLine

/-! ## Sources that are bytes -/

/-- Whether a source is given by bytes: a file that holds them, or standard input. -/
def Source.IsGiven (source : Source) (env : Environment) (bytes : ByteArray) : Prop :=
  match source with
  | .words _ => False
  | .file name => env.file name = .ok bytes
  | .standardInput => env.input = bytes

theorem Source.read_of_isGiven {source : Source} {env : Environment} {bytes : ByteArray}
    (given : source.IsGiven env bytes) : source.read env = decodeSource bytes := by
  cases source with
  | words words => cases given
  | file name => rw [read, show env.file name = .ok bytes from given]
  | standardInput => rw [read, show env.input = bytes from given]

theorem decodeSource_of_decodeUtf8_ok {bytes : ByteArray} {text : List Char} (h : Text.decodeUtf8 bytes = .ok text) :
    decodeSource bytes = .ok (String.ofList (Text.unifyNewlines text)) := by
  rw [decodeSource, h]

theorem decodeSource_of_decodeUtf8_error {bytes : ByteArray} {n : Nat} (h : Text.decodeUtf8 bytes = .error n) :
    decodeSource bytes = .error (.notUtf8 n) := by
  rw [decodeSource, h]

theorem notUtf8_line (origin : String) (n : Nat) :
    s!"Cannot read {origin}: {(ReadError.notUtf8 n).message}" = s!"Cannot read {origin}: not valid UTF-8 (byte {n})" := by
  have joined : ": not valid UTF-8 (byte " = ": " ++ "not valid UTF-8 (byte " := by decide
  show "Cannot read " ++ origin ++ ": " ++ ("not valid UTF-8 (byte " ++ toString n ++ ")") =
    "Cannot read " ++ origin ++ ": not valid UTF-8 (byte " ++ toString n ++ ")"
  rw [joined]
  simp only [String.append_assoc]

/-- **Bytes are compiled as the text they encode, or blamed where they stop encoding one.** Bytes that encode a text are
compiled as this text with its line endings unified. Of other bytes nothing is compiled: the exit code is 2, there is no
output, and not a step of compiling is reported, but the offset behind the longest beginning that encodes a text. -/
theorem run_of_bytes {arguments : List String} {settings : Settings} {env : Environment} {bytes : ByteArray}
    (asks : readArguments arguments = .ok (.compile settings)) (given : settings.source.IsGiven env bytes) :
    (∀ text : List Char, bytes = text.utf8Encode → ∃ source : String, Text.Unified text source.toList ∧
      settings.source.read env = .ok source ∧
      run arguments env = (settings.answerTo source (compile source)).after (settings.source.asked env)) ∧
    ((¬ ∃ text : List Char, bytes = text.utf8Encode) → ∃ n, Text.IsLongestEncoded bytes n ∧
      settings.source.read env = .error (.notUtf8 n) ∧
      run arguments env = ⟨2, "", unlines (settings.source.asked env ++
        [s!"Cannot read {settings.source.origin}: not valid UTF-8 (byte {n})"])⟩) := by
  have read := Source.read_of_isGiven given
  refine ⟨fun text encoded => ?_, fun none => ?_⟩
  · subst encoded
    rw [decodeSource_of_decodeUtf8_ok (Text.decodeUtf8_utf8Encode text)] at read
    refine ⟨_, ?_, read, ?_⟩
    · rw [String.toList_ofList]
      exact Text.unified_unifyNewlines text
    · rw [run_of_compile asks, Settings.run_of_read read, Settings.answer]
  · obtain ⟨n, stopped, longest⟩ := Text.exists_decodeUtf8_error none
    rw [decodeSource_of_decodeUtf8_error stopped] at read
    refine ⟨n, longest, read, ?_⟩
    rw [run_of_compile asks, Settings.run_of_readError read, unlines_append, notUtf8_line]

/-- A file with a byte order mark and two kinds of line ending, and a standard input that is cut off in the middle of a
character: the byte is counted behind both bytes of the line ending. -/
theorem run_of_bytes_cut_off :
    let text := ['\ufeff', 'x', '\r', '\n', '\r']
    let cut : ByteArray := ⟨#[0x61, 0x0D, 0x0A, 0xE2, 0x82]⟩
    let env : Environment := ⟨fun _ => .ok text.utf8Encode, cut, true⟩
    let source := "\ufeffx\n\n"
    run ["-f", "p"] env = ((Settings.mk false false (.file "p")).answerTo source (compile source)).after [] ∧
      run ["-v"] env = ⟨2, "", unlines [prompt, "Cannot read standard input: not valid UTF-8 (byte 3)"]⟩ := by
  intro text cut env source
  have asksFile : readArguments ["-f", "p"] = .ok (.compile ⟨false, false, .file "p"⟩) := rfl
  have asksInput : readArguments ["-v"] = .ok (.compile ⟨false, true, .standardInput⟩) := rfl
  have given : (Source.file "p").IsGiven env text.utf8Encode := rfl
  have givenInput : Source.standardInput.IsGiven env cut := rfl
  refine ⟨?_, ?_⟩
  · obtain ⟨found, _, read, ran⟩ := (run_of_bytes asksFile given).1 text rfl
    rw [Source.read_of_isGiven given, decodeSource_of_decodeUtf8_ok (Text.decodeUtf8_utf8Encode text)] at read
    obtain rfl : source = found := Except.ok.inj read
    exact ran
  · have stopped : Text.decodeUtf8 cut = .error 3 := by
      show Text.decodeUtf8 ⟨#[0x61, 0x0D, 0x0A, 0xE2, 0x82]⟩ = .error 3
      rw [Text.decodeUtf8, Text.decodeUtf8From_some (c := 'a') rfl, Text.decodeUtf8From_some (c := '\r') rfl,
        Text.decodeUtf8From_some (c := '\n') rfl, Text.decodeUtf8From_none (by decide) rfl]
      rfl
    have none : ¬ ∃ text : List Char, cut = text.utf8Encode := by
      rintro ⟨encoded, eq⟩
      rw [eq, Text.decodeUtf8_utf8Encode] at stopped
      cases stopped
    obtain ⟨n, _, read, ran⟩ := (run_of_bytes asksInput givenInput).2 none
    rw [Source.read_of_isGiven givenInput, decodeSource_of_decodeUtf8_error stopped] at read
    obtain rfl : 3 = n := ReadError.notUtf8.inj (Except.error.inj read)
    exact ran

end CommandLine

end Mini
