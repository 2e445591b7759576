import Mini.Text.CodePoints

/-!
# White space

The twenty-nine characters that separate lexemes: the ASCII controls from tab to carriage return and
from file separator to unit separator, the space, and the Unicode space, line and paragraph separators
together with NEL.
-/

namespace Mini.Text

/-- The code points of white space. -/
def blanks : CodePoints :=
  [(0x09, 0x0D), (0x1C, 0x20), (0x85, 0x85), (0xA0, 0xA0), (0x1680, 0x1680), (0x2000, 0x200A),
   (0x2028, 0x2029), (0x202F, 0x202F), (0x205F, 0x205F), (0x3000, 0x3000)]

/-- Whether a character is white space, so that no lexeme can begin with it. -/
def isBlank (c : Char) : Bool :=
  blanks.contains c

end Mini.Text
