import Mini.Token.Rule
import Mini.Text.Blank

/-!
# From text to tokens

A lexer holds the recognizers of its rules in the order in which they are tried. It skips white space; at
any other character the first recognizer with a non-empty match gives the next token, even if a later one
would match more. A character at which nothing matches is illegal and ends the scan.

`Lexer.scan` answers with the tokens found up to the end or up to the illegal character, `Lexer.tokenize`
with the tokens of a text that has none. A lexeme can contain white space but not begin with it.
-/

namespace Mini

/-- An automaton together with the kind of token it recognizes. -/
structure Recognizer where
  kind : Kind
  automaton : Automaton

/-- Recognizers in the order in which they are tried. -/
structure Lexer where
  recognizers : List Recognizer

/-- A character at which no rule matches. -/
structure LexicalError where
  character : Char
  position : Position
  deriving DecidableEq, Repr

/-- The wording of a lexical error. -/
def LexicalError.message (e : LexicalError) : String :=
  s!"Lexical error at {e.position.line}:{e.position.column} -> Illegal character: " ++
    Text.quote (String.singleton e.character)

/-- The kind and length of a lexeme at the beginning of a text. -/
structure Match where
  kind : Kind
  length : Nat
  deriving DecidableEq, Repr

/-- How far a text could be cut into tokens, and the illegal character that ended it. -/
structure Scan where
  tokens : List Token
  illegal : Option LexicalError
  deriving DecidableEq, Repr

/-- The recognizer of a rule, if its automaton could be built. -/
def Rule.recognizer (rule : Rule) : Except ConstructionError Recognizer :=
  rule.automaton.map fun automaton => ⟨rule.kind, automaton⟩

namespace Lexer

/-- The lexer of a list of rules. Automata are looked at in the order in which they will be tried, so the
first that could not be built decides the error. -/
def ofRules (rules : List Rule) : Except ConstructionError Lexer := do
  let recognizers ← (Rule.byPriority rules).mapM Rule.recognizer
  return ⟨recognizers⟩

/-- The lexer of the Mini language. -/
def standard : Except ConstructionError Lexer :=
  ofRules Rule.standard

/-- The first recognizer that matches a non-empty beginning of the text, and how much it matches. -/
def match? (lexer : Lexer) (text : List Char) : Option Match :=
  lexer.recognizers.findSome? fun r => (r.automaton.longestMatch text).map fun n => ⟨r.kind, n⟩

/-- The scan of a text that starts at a position, behind the tokens found before it, which come reversed. -/
def scanFrom (lexer : Lexer) (position : Position) (found : List Token) : List Char → Scan
  | [] => ⟨found.reverse, none⟩
  | c :: rest =>
    if Text.isBlank c then
      lexer.scanFrom (position.advance c) found rest
    else
      match lexer.match? (c :: rest) with
      | none => ⟨found.reverse, some ⟨c, position⟩⟩
      | some m =>
        -- A match is never empty, so its first character is `c`.
        let lexeme := c :: rest.take (m.length - 1)
        lexer.scanFrom (position.advanceOver lexeme)
          (⟨m.kind, String.ofList lexeme, position⟩ :: found) (rest.drop (m.length - 1))
  termination_by text => text.length
  decreasing_by all_goals simp only [List.length_drop, List.length_cons]; omega

/-- The scan of a whole text. -/
def scan (lexer : Lexer) (source : String) : Scan :=
  lexer.scanFrom .start [] source.toList

/-- The tokens of a text, or its first illegal character. -/
def tokenize (lexer : Lexer) (source : String) : Except LexicalError (List Token) :=
  match lexer.scan source with
  | ⟨tokens, none⟩ => .ok tokens
  | ⟨_, some e⟩ => .error e

/-! ## The cases of a scan -/

theorem scanFrom_nil (lexer : Lexer) (position : Position) (found : List Token) :
    lexer.scanFrom position found [] = ⟨found.reverse, none⟩ := by
  rw [scanFrom]

theorem scanFrom_blank {c : Char} (h : Text.isBlank c = true) (lexer : Lexer) (position : Position)
    (found : List Token) (rest : List Char) :
    lexer.scanFrom position found (c :: rest) = lexer.scanFrom (position.advance c) found rest := by
  rw [scanFrom, if_pos h]

theorem scanFrom_illegal {lexer : Lexer} {c : Char} {rest : List Char} (h : Text.isBlank c = false)
    (unmatched : lexer.match? (c :: rest) = none) (position : Position) (found : List Token) :
    lexer.scanFrom position found (c :: rest) = ⟨found.reverse, some ⟨c, position⟩⟩ := by
  rw [scanFrom, if_neg (by simp [h]), unmatched]

/-- A match is never empty and never longer than the text. -/
theorem match?_bounds {lexer : Lexer} {text : List Char} {m : Match} (h : lexer.match? text = some m) :
    0 < m.length ∧ m.length ≤ text.length := by
  obtain ⟨r, _, found⟩ := List.exists_of_findSome?_eq_some h
  obtain ⟨n, matched, rfl⟩ := Option.map_eq_some_iff.mp found
  exact Automaton.longestMatch_bounds matched

/-- **A match gives the next token**, and the scan goes on behind its lexeme. -/
theorem scanFrom_match {lexer : Lexer} {c : Char} {rest : List Char} {m : Match}
    (h : Text.isBlank c = false) (matched : lexer.match? (c :: rest) = some m) (position : Position)
    (found : List Token) :
    lexer.scanFrom position found (c :: rest) =
      lexer.scanFrom (position.advanceOver ((c :: rest).take m.length))
        (⟨m.kind, String.ofList ((c :: rest).take m.length), position⟩ :: found)
        ((c :: rest).drop m.length) := by
  obtain ⟨n, length⟩ : ∃ n, m.length = n + 1 :=
    Nat.exists_eq_add_one.mpr (match?_bounds matched).1
  rw [scanFrom, if_neg (by simp [h]), matched]
  simp only [length, Nat.add_sub_cancel, List.take_succ_cons, List.drop_succ_cons]

end Lexer

end Mini
