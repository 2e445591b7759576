import Mini.Syntax.Cursor
import Mini.Syntax.Outline
import Mini.Token.Lexer

/-!
# Compilation

A source text is first cut into tokens as a whole, and the tokens are then read as a program. The first step
that fails decides the error; both steps keep their own errors. The rules by which a text is cut are a
parameter, so the lexer has to be built first.
-/

namespace Mini

/-- Why a source text is not a program. -/
inductive CompilationError where
  /-- A rule has no automaton. -/
  | construction (error : ConstructionError)
  /-- The text has an illegal character. -/
  | lexical (error : LexicalError)
  /-- The tokens are not a program. -/
  | parse (error : ParseError)
  deriving DecidableEq, Repr

/-- The wording of a compilation error. -/
def CompilationError.message : CompilationError → String
  | .construction e => e.message
  | .lexical e => e.message
  | .parse e => e.message

/-- The tokens of a source text and the program they are. -/
structure Compilation where
  tokens : List Token
  program : Program
  deriving DecidableEq, Repr

/-- The tokens of a source text, cut by the given rules. -/
def tokenizeWith (rules : List Rule) (source : String) : Except CompilationError (List Token) := do
  let lexer ← (Lexer.ofRules rules).mapError .construction
  (lexer.tokenize source).mapError .lexical

/-- The tokens and the program of a source text, cut by the given rules. -/
def compileWith (rules : List Rule) (source : String) : Except CompilationError Compilation := do
  let tokens ← tokenizeWith rules source
  let program ← (Program.ofTokens tokens).mapError .parse
  return ⟨tokens, program⟩

/-- The tokens of a source text in the Mini language. -/
def tokenize (source : String) : Except CompilationError (List Token) :=
  tokenizeWith Rule.standard source

/-- The tokens and the program of a source text in the Mini language. -/
def compile (source : String) : Except CompilationError Compilation :=
  compileWith Rule.standard source

/-! ## What the steps say -/

theorem tokenizeWith_of_ofRules {rules : List Rule} {lexer : Lexer} (built : Lexer.ofRules rules = .ok lexer)
    (source : String) : tokenizeWith rules source = (lexer.tokenize source).mapError .lexical := by
  rw [tokenizeWith, built]
  rfl

theorem tokenizeWith_eq_ok_iff {rules : List Rule} {source : String} {tokens : List Token} :
    tokenizeWith rules source = .ok tokens ↔
      ∃ lexer, Lexer.ofRules rules = .ok lexer ∧ lexer.tokenize source = .ok tokens := by
  refine ⟨fun h => ?_, fun h => ?_⟩
  · cases built : Lexer.ofRules rules with
    | error e =>
      rw [tokenizeWith, built] at h
      cases h
    | ok lexer =>
      rw [tokenizeWith_of_ofRules built] at h
      cases cut : lexer.tokenize source with
      | error e =>
        rw [cut] at h
        cases h
      | ok found =>
        rw [cut] at h
        cases h
        exact ⟨lexer, rfl, cut⟩
  · obtain ⟨lexer, built, cut⟩ := h
    rw [tokenizeWith_of_ofRules built, cut]
    rfl

theorem compileWith_of_tokenizeWith {rules : List Rule} {source : String} {tokens : List Token}
    (cut : tokenizeWith rules source = .ok tokens) :
    compileWith rules source = ((Program.ofTokens tokens).mapError .parse).map (Compilation.mk tokens) := by
  rw [compileWith, cut]
  rfl

theorem compileWith_of_tokenizeWith_error {rules : List Rule} {source : String} {e : CompilationError}
    (refused : tokenizeWith rules source = .error e) : compileWith rules source = .error e := by
  rw [compileWith, refused]
  rfl

/-- A text compiles when there is a lexer, it has tokens, and these are a program. -/
theorem compileWith_eq_ok_iff {rules : List Rule} {source : String} {compilation : Compilation} :
    compileWith rules source = .ok compilation ↔
      ∃ lexer, Lexer.ofRules rules = .ok lexer ∧ lexer.tokenize source = .ok compilation.tokens ∧
        Program.ofTokens compilation.tokens = .ok compilation.program := by
  refine ⟨fun h => ?_, fun h => ?_⟩
  · cases cut : tokenizeWith rules source with
    | error e =>
      rw [compileWith, cut] at h
      cases h
    | ok tokens =>
      obtain ⟨lexer, built, found⟩ := tokenizeWith_eq_ok_iff.mp cut
      rw [compileWith_of_tokenizeWith cut] at h
      cases read : Program.ofTokens tokens with
      | error e =>
        rw [read] at h
        cases h
      | ok program =>
        rw [read] at h
        cases h
        exact ⟨lexer, built, found, read⟩
  · obtain ⟨lexer, built, found, read⟩ := h
    rw [compileWith_of_tokenizeWith (tokenizeWith_eq_ok_iff.mpr ⟨lexer, built, found⟩), read]
    rfl

end Mini
