import Mini.Syntax.Grammar
import Mini.Text.Quoted

/-!
# Reading at a cursor

A cursor is a list of tokens and how many of them are consumed. Statements, expressions and whole programs are
read at the cursor, which moves behind what was read; a reading that fails leaves it at the point of failure.

A parse error names the token at the point of failure, or the last token if the tokens end there. Where there
are no tokens at all there is nothing to name. Positions of tokens can be any integers; where the one to name cannot
be written, that is the error. A program has the position of the first token of the list, wherever the cursor was
when it was read.
-/

namespace Mini

/-- Why tokens are not a program. -/
inductive ParseError where
  /-- There are no tokens. -/
  | noTokens
  /-- What was expected, and the position of the token to blame. -/
  | unexpected (fault : Fault) (position : Position) (writable : position.IsWritable := by decide)
  /-- The position of the token to blame cannot be written, and nothing else is said. -/
  | unwritable (error : DecimalError)
  deriving DecidableEq, Repr

/-- What was expected, in words. -/
def Fault.message : Fault → String
  | .statementExpected => "Expected identifier at the start of a statement"
  | .assignmentExpected name => s!"Expected ':=' after identifier {Text.quote name}"
  | .operandExpected => "Expected expression (identifier or number)"
  | .operandMissing => "Unexpected end of input while parsing expression"

namespace ParseError

/-- The wording of a parse error. -/
def message : ParseError → String
  | .noTokens => "Unexpected end of input at start of file"
  | .unexpected fault position _ =>
    s!"{fault.message} at line {position.line}, column {position.column}"
  | .unwritable error => error.message

/-- The position that the error names, if it names one. -/
def position? : ParseError → Option Position
  | .noTokens => none
  | .unexpected _ position _ => some position
  | .unwritable _ => none

/-- What was expected where a token stands that is to blame: the error names its position, if that can be written. -/
def blaming (fault : Fault) (token : Token) : ParseError :=
  if writable : token.position.IsWritable then
    .unexpected fault token.position writable
  else
    .unwritable .tooManyDigits

theorem blaming_of_isWritable {token : Token} (writable : token.position.IsWritable) (fault : Fault) :
    blaming fault token = .unexpected fault token.position writable :=
  dif_pos writable

theorem blaming_of_not_isWritable {token : Token} (unwritable : ¬ token.position.IsWritable) (fault : Fault) :
    blaming fault token = .unwritable .tooManyDigits :=
  dif_neg unwritable

end ParseError

/-- Tokens, and how many of them have been read. -/
structure Cursor where
  tokens : List Token
  consumed : Nat
  deriving DecidableEq, Repr

namespace Cursor

/-- Before the first token. -/
def start (tokens : List Token) : Cursor := ⟨tokens, 0⟩

/-- The tokens that have not been read. -/
def rest (cursor : Cursor) : List Token :=
  cursor.tokens.drop cursor.consumed

/-- The cursor moved so that an ending of its tokens is left. -/
def leaving (cursor : Cursor) (rest : List Token) : Cursor :=
  { cursor with consumed := cursor.tokens.length - rest.length }

/-- A failure as an error: the token at the point of failure is to blame, or else the last one. -/
def blame (cursor : Cursor) (failure : Failure) : ParseError :=
  match failure.rest.head?.or cursor.tokens.getLast? with
  | none => .noTokens
  | some token => .blaming failure.fault token

/-- The value of a production at the cursor, and the cursor behind it. -/
def read {α : Type} (cursor : Cursor) (production : Production α) : Except ParseError α × Cursor :=
  match production.read cursor.rest with
  | .ok (value, rest) => (.ok value, cursor.leaving rest)
  | .error failure => (.error (cursor.blame failure), cursor.leaving failure.rest)

/-- An expression at the cursor. -/
def expression (cursor : Cursor) : Except ParseError Expr × Cursor :=
  cursor.read Grammar.expression

/-- A statement at the cursor. -/
def statement (cursor : Cursor) : Except ParseError Assignment × Cursor :=
  cursor.read Grammar.statement

/-- The position of a program: that of the first token, or the start of a text. -/
def programPosition (tokens : List Token) : Position :=
  (tokens.head?.map Token.position).getD .start

/-- All tokens from the cursor on as a program. -/
def program (cursor : Cursor) : Except ParseError Program × Cursor :=
  match Grammar.statements cursor.rest with
  | .ok statements => (.ok ⟨statements, programPosition cursor.tokens⟩, cursor.leaving [])
  | .error failure => (.error (cursor.blame failure), cursor.leaving failure.rest)

/-- What a reading leaves, when it leaves an ending of what was there. -/
theorem rest_leaving {cursor : Cursor} {rest : List Token} (h : rest <:+ cursor.rest) :
    (cursor.leaving rest).rest = rest := by
  obtain ⟨before, eq⟩ := h.trans (List.drop_suffix cursor.consumed cursor.tokens)
  show cursor.tokens.drop (cursor.tokens.length - rest.length) = rest
  rw [← eq, List.length_append, Nat.add_sub_cancel, List.drop_left]

theorem read_ok {α : Type} {cursor : Cursor} {production : Production α} {value : α} {rest : List Token}
    (h : production.read cursor.rest = .ok (value, rest)) :
    cursor.read production = (.ok value, cursor.leaving rest) := by
  rw [read, h]

theorem read_error {α : Type} {cursor : Cursor} {production : Production α} {failure : Failure}
    (h : production.read cursor.rest = .error failure) :
    cursor.read production = (.error (cursor.blame failure), cursor.leaving failure.rest) := by
  rw [read, h]

theorem program_ok {cursor : Cursor} {statements : List Assignment}
    (h : Grammar.statements cursor.rest = .ok statements) :
    cursor.program = (.ok ⟨statements, programPosition cursor.tokens⟩, cursor.leaving []) := by
  rw [program, h]

theorem program_error {cursor : Cursor} {failure : Failure}
    (h : Grammar.statements cursor.rest = .error failure) :
    cursor.program = (.error (cursor.blame failure), cursor.leaving failure.rest) := by
  rw [program, h]

theorem blame_eq {cursor : Cursor} {failure : Failure} {token : Token}
    (h : failure.rest.head?.or cursor.tokens.getLast? = some token) :
    cursor.blame failure = .blaming failure.fault token := by
  rw [blame, h]

/-- A cursor on an ending of its tokens is not behind their end. -/
theorem consumed_leaving_le (cursor : Cursor) (rest : List Token) :
    (cursor.leaving rest).consumed ≤ cursor.tokens.length :=
  Nat.sub_le ..

end Cursor

/-- The program that a list of tokens is. -/
def Program.ofTokens (tokens : List Token) : Except ParseError Program :=
  (Cursor.start tokens).program.1

end Mini
