import Mini.Position
import Mini.Text.Quoted

/-!
# Tokens

A token is a lexeme with its kind and the position of its first character. `Token.render` shows it on one
line if the line can name its position; the lexeme is quoted, so that the line can be read back.
-/

namespace Mini

/-- The lexical categories. The standard rules of Mini produce no keywords. -/
inductive Kind where
  | identifier
  | integer
  | real
  | operator
  | keyword
  | assignment
  deriving DecidableEq, Repr

/-- The name of a category, as tokens are shown. -/
def Kind.name : Kind → String
  | .identifier => "IDENTIFIER"
  | .integer => "INTEGER"
  | .real => "REAL"
  | .operator => "OPERATOR"
  | .keyword => "KEYWORD"
  | .assignment => "ASSIGNMENT"

/-- A lexeme, its kind, and where it starts. -/
structure Token where
  kind : Kind
  lexeme : String
  position : Position
  deriving DecidableEq, Repr

/-- The line of a token, its lexeme quoted for a given set of unprintable characters. -/
def Token.lineWith (unprintable : Char → Bool) (t : Token) : String :=
  t.kind.name ++ " " ++ Text.quoteWith unprintable t.lexeme ++ " at " ++
    toString t.position.line ++ ":" ++ toString t.position.column

/-- The line of a token. -/
def Token.line (t : Token) : String :=
  t.lineWith Text.isUnprintable

/-- A token on one line, its lexeme quoted for a given set of unprintable characters, if its position can be written. -/
def Token.renderWith (unprintable : Char → Bool) (t : Token) : Except DecimalError String :=
  if t.position.IsWritable then .ok (t.lineWith unprintable) else .error .tooManyDigits

/-- A token on one line, if its position can be written. -/
def Token.render (t : Token) : Except DecimalError String :=
  t.renderWith Text.isUnprintable

theorem Token.renderWith_of_isWritable {t : Token} (writable : t.position.IsWritable) (unprintable : Char → Bool) :
    t.renderWith unprintable = .ok (t.lineWith unprintable) :=
  if_pos writable

theorem Token.renderWith_of_not_isWritable {t : Token} (unwritable : ¬ t.position.IsWritable) (unprintable : Char → Bool) :
    t.renderWith unprintable = .error .tooManyDigits :=
  if_neg unwritable

theorem Kind.name_inj {k l : Kind} : k.name = l.name ↔ k = l := by
  cases k <;> cases l <;> decide

end Mini
