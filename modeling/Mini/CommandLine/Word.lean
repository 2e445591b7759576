import Mini.CommandLine.Switch
import Mini.Text.DecimalDigit

/-!
# Words of a command line

Each word before the first double dash is classified by itself, before any of them takes effect. A word with
a dash in front names a switch if it is a letter of one, or the beginning of just one long name; what is
attached to it, behind an equals sign or directly behind the letter, goes with it. Any other word with a dash
is an unknown switch, unless it is a dash alone, looks like a negative number, or contains a space: then, like
every word without a dash, it is plain.

These are the rules of argparse in version 3.11.0.
-/

namespace Mini.CommandLine

/-- How a switch was named. -/
inductive Style where
  | letter
  | long
  deriving DecidableEq, Repr

/-- What a word is by itself. -/
inductive Word where
  /-- Part of the program, or the value of a switch. -/
  | plain (text : String)
  /-- Like a switch, but none. -/
  | unknown (text : String)
  /-- A switch, and the text attached to it. -/
  | known (switch : Switch) (style : Style) (attached : Option String)
  deriving DecidableEq, Repr

/-- A text up to its first equals sign, and the text behind it if there is one. -/
def splitAtEquals (text : List Char) : List Char × Option String :=
  match text.dropWhile (· ≠ '=') with
  | [] => (text, none)
  | _ :: value => (text.takeWhile (· ≠ '='), some (String.ofList value))

/-- Digits of any script, one at least. -/
def isDigits (text : List Char) : Bool :=
  !text.isEmpty && text.all Text.isDecimalDigit

/-- Whether the text behind a dash is a number: digits, or digits behind a point with or without digits
before it. A line feed at the end does not count. -/
def isNumber (text : List Char) : Bool :=
  let text := if text.getLast? = some '\n' then text.dropLast else text
  isDigits text ||
    match text.dropWhile Text.isDecimalDigit with
    | '.' :: fraction => isDigits fraction
    | _ => false

/-- A word with a dash in front that names no switch. -/
def Word.ofUnnamed (text : String) : Word :=
  if isNumber (text.toList.drop 1) || text.toList.contains ' ' then .plain text else .unknown text

/-- What a word is by itself. -/
def Word.ofString (text : String) : Except UsageError Word :=
  match text.toList with
  | '-' :: '-' :: more =>
    let (stem, value) := splitAtEquals more
    match Switch.all.filter fun switch => stem.isPrefixOf switch.longName.toList with
    | [] => .ok (ofUnnamed text)
    | [switch] => .ok (.known switch .long value)
    | several => .error (.ambiguous text several)
  | '-' :: letter :: more =>
    match Switch.ofLetter? letter with
    | none => .ok (ofUnnamed text)
    | some switch =>
      match more with
      | [] => .ok (.known switch .letter none)
      | '=' :: value => .ok (.known switch .letter (some (String.ofList value)))
      | attached => .ok (.known switch .letter (some (String.ofList attached)))
  | _ => .ok (.plain text)

/-- A word without a dash in front is plain. -/
theorem Word.ofString_plain {text : String} (h : text.toList.head? ≠ some '-') :
    Word.ofString text = .ok (.plain text) := by
  unfold Word.ofString
  split <;> simp_all

end Mini.CommandLine
