import Mini.Text.Printable

/-!
# Quoted text

A text is shown between quotation marks on one line, so that nothing in it can be mistaken for what stands
around it. The mark is the apostrophe, unless the text has an apostrophe and no double quote. Inside, the
mark and the backslash are preceded by a backslash, line feed, carriage return and tab have letters of their
own, and every other character without a visible form is written by its code point in hexadecimal.

Which characters above ASCII have no visible form is a parameter of `quoteWith`; `quote` takes the Unicode
table.
-/

namespace Mini.Text

/-- The lowest `width` hexadecimal digits of a number, most significant first. -/
def hexDigits : Nat → Nat → List Char
  | 0, _ => []
  | width + 1, n => hexDigits width (n / 16) ++ [Nat.digitChar (n % 16)]

/-- A character by its code point: two digits behind `\x`, four behind `\u` or eight behind `\U`, whichever
is the first that can hold it. -/
def escapeByCode (c : Char) : List Char :=
  if c.toNat < 0x100 then '\\' :: 'x' :: hexDigits 2 c.toNat
  else if c.toNat < 0x10000 then '\\' :: 'u' :: hexDigits 4 c.toNat
  else '\\' :: 'U' :: hexDigits 8 c.toNat

/-- Whether a character is written by its code point: the controls of ASCII, and above ASCII what the
parameter says. -/
def needsCode (unprintable : Char → Bool) (c : Char) : Bool :=
  if c.toNat < 0x80 then c.toNat < 0x20 || c.toNat == 0x7F else unprintable c

/-- The written form of one character between the given marks. -/
def escape (unprintable : Char → Bool) (mark c : Char) : List Char :=
  if c = mark ∨ c = '\\' then ['\\', c]
  else if c = '\n' then ['\\', 'n']
  else if c = '\r' then ['\\', 'r']
  else if c = '\t' then ['\\', 't']
  else if needsCode unprintable c then escapeByCode c
  else [c]

/-- The mark a text is shown between: the apostrophe, unless only the double quote avoids an escape. -/
def quoteMark (text : List Char) : Char :=
  if '\'' ∈ text ∧ '"' ∉ text then '"' else '\''

/-- A text between its marks, for any set of unprintable characters above ASCII. -/
def quoteWith (unprintable : Char → Bool) (text : String) : String :=
  let mark := quoteMark text.toList
  String.ofList (mark :: (text.toList.flatMap (escape unprintable mark) ++ [mark]))

/-- A text between its marks. -/
def quote (text : String) : String :=
  quoteWith isUnprintable text

theorem length_hexDigits (width n : Nat) : (hexDigits width n).length = width := by
  induction width generalizing n with
  | zero => rfl
  | succ width ih => simp [hexDigits, ih]

theorem quoteMark_eq_or (text : List Char) : quoteMark text = '\'' ∨ quoteMark text = '"' := by
  unfold quoteMark
  split
  · exact .inr rfl
  · exact .inl rfl

end Mini.Text
