import Mini.Proofs.Visible
import Std.Data.String.ToInt

/-!
# Quoted text read back

`renderWith_faithful`: the line that shows a token tells everything about it. Tokens that are shown alike have the same
kind, lexeme and position, whatever characters their lexemes have, and no character of the line is one without a visible
form. Which characters above ASCII count as such does not matter. Only a token whose position has too many digits to be
written is not shown (`render_refused_on_far_line`).

A quoted text can be read back character by character (`Text.readChar_escape`). How a character is written depends on the
mark, but the mark comes first; and no character is written so that it begins with the mark, so where the mark comes next
the text is over (`Text.quoteWith_append_inj`), whatever stands behind it. The words around the lexeme, the kind before
it and the numbers behind it, are told apart by the space and the colon, which are in none of them.
-/

namespace Mini

namespace Text

variable {unprintable : Char → Bool} {mark c : Char}

/-! ## Reading a character back -/

/-- The value of a hexadecimal digit. -/
def hexValue (digit : Char) : Nat :=
  if digit.isDigit then digit.toNat - '0'.toNat else digit.toNat - 'a'.toNat + 10

/-- The number that hexadecimal digits denote, most significant first. -/
def ofHexDigits (digits : List Char) : Nat :=
  digits.foldl (fun value digit => 16 * value + hexValue digit) 0

/-- How many numbers have a code of so many digits. -/
def codeCount : Nat → Nat
  | 0 => 1
  | width + 1 => 16 * codeCount width

/-- How many digits of a code point follow a letter behind a backslash. -/
def codeWidth? (letter : Char) : Option Nat :=
  if letter = 'x' then some 2
  else if letter = 'u' then some 4
  else if letter = 'U' then some 8
  else none

/-- What a letter behind a backslash stands for by itself. -/
def unescape (letter : Char) : Char :=
  if letter = 'n' then '\n'
  else if letter = 'r' then '\r'
  else if letter = 't' then '\t'
  else letter

/-- The first character of a text in its written form, and what stands behind it. -/
def readChar (written : List Char) : Option (Char × List Char) :=
  match written with
  | [] => none
  | c :: rest =>
    if c = '\\' then
      match rest with
      | [] => none
      | letter :: rest =>
        match codeWidth? letter with
        | some width => some (Char.ofNat (ofHexDigits (rest.take width)), rest.drop width)
        | none => some (unescape letter, rest)
    else some (c, rest)

theorem ofHexDigits_hexDigits (width n : Nat) : ofHexDigits (hexDigits width n) = n % codeCount width := by
  have digit : ∀ d < 16, hexValue (Nat.digitChar d) = d := by decide
  induction width generalizing n with
  | zero => simp [hexDigits, ofHexDigits, codeCount, Nat.mod_one]
  | succ width ih =>
    have last : ofHexDigits (hexDigits (width + 1) n) =
        16 * ofHexDigits (hexDigits width (n / 16)) + hexValue (Nat.digitChar (n % 16)) := by
      rw [ofHexDigits, hexDigits, List.foldl_append]
      rfl
    rw [last, ih, digit _ (Nat.mod_lt n (by decide)), codeCount, Nat.mod_mul, Nat.add_comm]

theorem readChar_code {letter : Char} {width : Nat} (isCode : codeWidth? letter = some width)
    (small : c.toNat < codeCount width) (rest : List Char) :
    readChar ('\\' :: letter :: hexDigits width c.toNat ++ rest) = some (c, rest) := by
  have front : (hexDigits width c.toNat ++ rest).take width = hexDigits width c.toNat :=
    List.take_left' (length_hexDigits width _)
  have behind : (hexDigits width c.toNat ++ rest).drop width = rest := List.drop_left' (length_hexDigits width _)
  rw [List.cons_append, List.cons_append, readChar, if_pos rfl]
  simp only [isCode, front, behind, ofHexDigits_hexDigits, Nat.mod_eq_of_lt small, Char.ofNat_toNat]

/-- A character that is written by its code point is read back. -/
theorem readChar_escapeByCode (c : Char) (rest : List Char) : readChar (escapeByCode c ++ rest) = some (c, rest) := by
  unfold escapeByCode
  split_ifs with byte word
  · exact readChar_code rfl byte rest
  · exact readChar_code rfl word rest
  · have long : c.toNat < codeCount 8 := c.val.toNat_lt
    exact readChar_code rfl long rest

theorem readChar_of_ne (plain : c ≠ '\\') (rest : List Char) : readChar (c :: rest) = some (c, rest) :=
  if_neg plain

/-- **A character is read back from its written form**, and what stands behind it is left. -/
theorem readChar_escape (isMark : mark = '\'' ∨ mark = '"') (c : Char) (rest : List Char) :
    readChar (escape unprintable mark c ++ rest) = some (c, rest) := by
  unfold escape
  split_ifs with special newline carriageReturn tab code
  · rcases special with rfl | rfl
    · rcases isMark with rfl | rfl <;> rfl
    · rfl
  · rw [newline]
    rfl
  · rw [carriageReturn]
    rfl
  · rw [tab]
    rfl
  · exact readChar_escapeByCode c rest
  · exact readChar_of_ne (fun backslash => special (.inr backslash)) rest

/-! ## Reading a text back -/

theorem ne_backslash_of_isMark (isMark : mark = '\'' ∨ mark = '"') : mark ≠ '\\' := by
  rcases isMark with rfl | rfl <;> decide

/-- No written form of a character begins with the mark. -/
theorem escape_append_ne (isMark : mark = '\'' ∨ mark = '"') (c : Char) (rest other : List Char) :
    escape unprintable mark c ++ rest ≠ mark :: other := by
  intro same
  have plain := ne_backslash_of_isMark isMark
  have read : readChar (escape unprintable mark c ++ rest) = some (c, rest) := readChar_escape isMark c rest
  rw [same, readChar_of_ne plain] at read
  -- So the character would be the mark itself, and that is written behind a backslash.
  obtain ⟨rfl, _⟩ := Prod.mk.inj (Option.some.inj read)
  rw [escape, if_pos (.inl rfl)] at same
  exact plain (List.cons.inj same).1.symm

/-- **Written characters are told apart up to the mark**, whatever stands behind it. -/
theorem flatMap_escape_inj (isMark : mark = '\'' ∨ mark = '"') {first second rest other : List Char}
    (same : first.flatMap (escape unprintable mark) ++ mark :: rest =
      second.flatMap (escape unprintable mark) ++ mark :: other) : first = second ∧ rest = other := by
  induction first generalizing second with
  | nil =>
    cases second with
    | nil => exact ⟨rfl, (List.cons.inj same).2⟩
    | cons d second =>
      rw [List.flatMap_cons, List.append_assoc] at same
      exact absurd same.symm (escape_append_ne isMark d _ _)
  | cons c first ih =>
    cases second with
    | nil =>
      rw [List.flatMap_cons, List.append_assoc] at same
      exact absurd same (escape_append_ne isMark c _ _)
    | cons d second =>
      rw [List.flatMap_cons, List.flatMap_cons, List.append_assoc, List.append_assoc] at same
      have read := congrArg readChar same
      rw [readChar_escape isMark, readChar_escape isMark] at read
      obtain ⟨rfl, others⟩ := Prod.mk.inj (Option.some.inj read)
      obtain ⟨rfl, behind⟩ := ih others
      exact ⟨rfl, behind⟩

theorem toList_quoteWith (unprintable : Char → Bool) (text : String) : (quoteWith unprintable text).toList =
    quoteMark text.toList ::
      (text.toList.flatMap (escape unprintable (quoteMark text.toList)) ++ [quoteMark text.toList]) := by
  rw [quoteWith, String.toList_ofList]

/-- **A quoted text says which text it is and where it ends.** -/
theorem quoteWith_append_inj {first second : String} {rest other : List Char}
    (same : (quoteWith unprintable first).toList ++ rest = (quoteWith unprintable second).toList ++ other) :
    first = second ∧ rest = other := by
  rw [toList_quoteWith, toList_quoteWith, List.cons_append, List.cons_append] at same
  obtain ⟨marks, same⟩ := List.cons.inj same
  rw [← marks, List.append_assoc, List.append_assoc, List.singleton_append, List.singleton_append] at same
  obtain ⟨texts, behind⟩ := flatMap_escape_inj (quoteMark_eq_or first.toList) same
  exact ⟨String.toList_inj.mp texts, behind⟩

/-- Texts that end where a character first stands are told apart, and so is what stands behind the character. -/
theorem append_cons_inj {first second rest other : List Char} (noFirst : c ∉ first) (noSecond : c ∉ second)
    (same : first ++ c :: rest = second ++ c :: other) : first = second ∧ rest = other := by
  induction first generalizing second with
  | nil =>
    cases second with
    | nil => exact ⟨rfl, (List.cons.inj same).2⟩
    | cons d second => exact absurd (List.mem_cons.mpr (.inl (List.cons.inj same).1)) noSecond
  | cons d first ih =>
    cases second with
    | nil => exact absurd (List.mem_cons.mpr (.inl (List.cons.inj same).1.symm)) noFirst
    | cons e second =>
      obtain ⟨rfl, others⟩ := List.cons.inj same
      obtain ⟨rfl, behind⟩ := ih (List.not_mem_of_not_mem_cons noFirst) (List.not_mem_of_not_mem_cons noSecond) others
      exact ⟨rfl, behind⟩

/-! ## Numbers -/

theorem eq_or_isDigit_of_mem_toString {n : Int} (mem : c ∈ (toString n).toList) : c = '-' ∨ c.isDigit = true := by
  have digits : ∀ k : Nat, c ∈ (toString k).toList → c.isDigit = true := by
    intro k mem
    rw [Nat.toString_eq_repr, Nat.toList_repr] at mem
    exact Nat.isDigit_of_mem_toDigits (by decide) (by decide) mem
  rw [Int.toString_eq_repr, Int.repr_eq_if] at mem
  split at mem
  · exact .inr (digits _ mem)
  · rw [String.toList_append] at mem
    exact (List.mem_append.mp mem).imp List.mem_singleton.mp (digits _)

/-- No number has a colon in it. -/
theorem colon_not_mem_toString (n : Int) : ':' ∉ (toString n).toList := by
  intro mem
  rcases eq_or_isDigit_of_mem_toString mem with sign | digit
  · exact absurd sign (by decide)
  · exact absurd digit (by decide)

theorem toString_int_inj {n m : Int} (same : toString n = toString m) : n = m := by
  rw [Int.toString_eq_repr, Int.toString_eq_repr] at same
  exact Int.repr_inj.mp same

end Text

/-! ## Lines of tokens -/

section Shown

variable {unprintable : Char → Bool} {t u : Token}

theorem Kind.space_not_mem_name (kind : Kind) : ' ' ∉ kind.name.toList := by
  cases kind <;> decide

theorem Token.toList_lineWith (unprintable : Char → Bool) (t : Token) : (t.lineWith unprintable).toList =
    t.kind.name.toList ++ ' ' :: ((Text.quoteWith unprintable t.lexeme).toList ++
      (" at ".toList ++ ((toString t.position.line).toList ++ ':' :: (toString t.position.column).toList))) := by
  simp [lineWith]

/-- **Tokens with the same line agree in everything.** -/
theorem Token.agree_of_lineWith_eq (same : t.lineWith unprintable = u.lineWith unprintable) :
    t.kind = u.kind ∧ t.lexeme = u.lexeme ∧ t.position.line = u.position.line ∧ t.position.column = u.position.column := by
  rw [← String.toList_inj, toList_lineWith, toList_lineWith] at same
  obtain ⟨names, same⟩ := Text.append_cons_inj t.kind.space_not_mem_name u.kind.space_not_mem_name same
  obtain ⟨lexemes, same⟩ := Text.quoteWith_append_inj same
  rw [List.append_right_inj] at same
  obtain ⟨lines, columns⟩ := Text.append_cons_inj (Text.colon_not_mem_toString t.position.line)
    (Text.colon_not_mem_toString u.position.line) same
  exact ⟨Kind.name_inj.mp (String.toList_inj.mp names), lexemes, Text.toString_int_inj (String.toList_inj.mp lines),
    Text.toString_int_inj (String.toList_inj.mp columns)⟩

/-- A character with a visible form ends no line. -/
theorem Text.ne_newline_of_needsCode {c : Char} (visible : Text.needsCode unprintable c = false) : c ≠ '\n' ∧ c ≠ '\r' := by
  refine ⟨?_, ?_⟩ <;> rintro rfl <;> cases visible

theorem Token.lineWith_eq_iff : t.lineWith unprintable = u.lineWith unprintable ↔
    t.kind = u.kind ∧ t.lexeme = u.lexeme ∧ t.position.line = u.position.line ∧ t.position.column = u.position.column := by
  refine ⟨agree_of_lineWith_eq, fun ⟨kinds, lexemes, lines, columns⟩ => ?_⟩
  rw [lineWith, lineWith, kinds, lexemes, lines, columns]

/-- **The line that shows a token is faithful**, for any lexeme and any position that can be written: a token is shown by
a line, by which no other is shown but those that agree with it in kind, lexeme, line and column, and the line has no line
feed, no carriage return and no character without a visible form in it. -/
theorem renderWith_faithful {t : Token} (writable : t.position.IsWritable) (unprintable : Char → Bool) (u : Token) :
    (t.renderWith unprintable = u.renderWith unprintable ↔ t.kind = u.kind ∧ t.lexeme = u.lexeme ∧
      t.position.line = u.position.line ∧ t.position.column = u.position.column) ∧
    ∃ text, t.renderWith unprintable = .ok text ∧
      ∀ c ∈ text.toList, c ≠ '\n' ∧ c ≠ '\r' ∧ Text.needsCode unprintable c = false := by
  have shown := Token.renderWith_of_isWritable writable unprintable
  refine ⟨?_, _, shown, fun c mem => ?_⟩
  · rw [shown, ← Token.lineWith_eq_iff]
    by_cases writableOther : u.position.IsWritable
    · rw [Token.renderWith_of_isWritable writableOther, Except.ok.injEq]
    · -- A token whose position cannot be written does not agree with one whose position can.
      rw [Token.renderWith_of_not_isWritable writableOther]
      refine ⟨fun same => ?_, fun same => absurd ?_ writableOther⟩
      · cases same
      · obtain ⟨_, _, lines, columns⟩ := Token.agree_of_lineWith_eq same
        exact ⟨lines ▸ writable.1, columns ▸ writable.2⟩
  · have visible := isVisible_lineWith unprintable t c mem
    obtain ⟨noFeed, noReturn⟩ := Text.ne_newline_of_needsCode visible
    exact ⟨noFeed, noReturn, visible⟩

/-- A lexeme that looks like the end of a line of a token, with both marks and a line feed in it, is not taken for the
token without it. -/
theorem renderWith_faithful_of_imitation :
    let t : Token := ⟨.identifier, "x' at 1:1\n\"", ⟨-3, 0⟩⟩
    let u : Token := ⟨.identifier, "x", ⟨1, 1⟩⟩
    t.position.IsWritable ∧ t.render ≠ u.render ∧ ∃ text, t.render = .ok text ∧ '\n' ∉ text.toList := by
  intro t u
  have writable : t.position.IsWritable := by decide
  obtain ⟨alike, text, shown, visible⟩ := renderWith_faithful writable Text.isUnprintable u
  refine ⟨writable, fun same => ?_, text, shown, fun mem => (visible _ mem).1 rfl⟩
  exact absurd (alike.mp same).2.1 (by decide)

/-- Tokens on a line whose number has too many digits are not shown, so that different ones are refused alike. -/
theorem render_refused_on_far_line :
    let line : Nat := Nat.pow 10 mostDigits
    let t : Token := ⟨.identifier, "x", ⟨line, 1⟩⟩
    let u : Token := ⟨.identifier, "y", ⟨line, 1⟩⟩
    (¬ ∃ text, t.render = .ok text) ∧ ¬ (t.render = u.render ↔ t.kind = u.kind ∧ t.lexeme = u.lexeme ∧
      t.position.line = u.position.line ∧ t.position.column = u.position.column) := by
  intro line t u
  have long : ¬ IsWritable line := not_isWritable_pow
  clear_value line
  have refused : t.render = .error .tooManyDigits := Token.renderWith_of_not_isWritable (fun h => long h.1) _
  have refusedOther : u.render = .error .tooManyDigits := Token.renderWith_of_not_isWritable (fun h => long h.1) _
  refine ⟨fun ⟨text, shown⟩ => ?_, fun claimed => ?_⟩
  · rw [refused] at shown
    cases shown
  · have differ : "x" ≠ "y" := by decide
    exact differ (claimed.mp (refused.trans refusedOther.symm)).2.1

end Shown

end Mini
