import Mini.Syntax.Production

/-!
# The grammar of Mini

    program    := statement*
    statement  := IDENTIFIER ASSIGNMENT expression
    expression := term (('+' | '-') term)*
    term       := power (('*' | '/') power)*
    power      := operand ('^' operand)*
    operand    := IDENTIFIER | INTEGER | REAL

Sums and products group from the left, powers from the right. Only the kinds of tokens decide, and the signs
of operators. The productions `operand`, `power`, `term`, `expression` and `statement` read a beginning of the
tokens, `statements` reads them all.
-/

namespace Mini.Grammar

/-- The expression that a token is by itself. -/
def operand? (token : Token) : Option Expr :=
  match token.kind with
  | .integer => some (.number .integer token.lexeme token.position)
  | .real => some (.number .real token.lexeme token.position)
  | .identifier => some (.name token.lexeme token.position)
  | .operator | .keyword | .assignment => none

/-- A number or a name. -/
def operand : Production Expr where
  read
    | [] => .error ⟨.operandMissing, []⟩
    | token :: rest =>
      match operand? token with
      | some e => .ok (e, rest)
      | none => .error ⟨.operandExpected, token :: rest⟩
  consumes {tokens value rest} h := by
    match tokens with
    | [] => cases h
    | token :: more =>
      dsimp only at h
      split at h
      · cases h; exact ⟨token, rest, rfl, List.suffix_refl rest⟩
      · cases h
  leaves {tokens failure} h := by
    match tokens with
    | [] => cases h; exact List.suffix_refl []
    | token :: more =>
      dsimp only at h
      split at h
      · cases h
      · cases h; exact List.suffix_refl _

theorem read_operand_some {token : Token} {e : Expr} (h : operand? token = some e) (rest : List Token) :
    operand.read (token :: rest) = .ok (e, rest) := by
  show (match operand? token with | some e => _ | none => _) = _
  rw [h]

theorem read_operand_none {token : Token} (h : operand? token = none) (rest : List Token) :
    operand.read (token :: rest) = .error ⟨.operandExpected, token :: rest⟩ := by
  show (match operand? token with | some e => _ | none => _) = _
  rw [h]

/-- Operands raised to powers. -/
def power : Production Expr :=
  (operand.chain ["^"]).map Chain.groupRight

/-- Powers multiplied and divided. -/
def term : Production Expr :=
  (power.chain ["*", "/"]).map Chain.groupLeft

/-- Terms added and subtracted. -/
def expression : Production Expr :=
  (term.chain ["+", "-"]).map Chain.groupLeft

/-- A name, the assignment sign, and an expression. -/
def statement : Production Assignment :=
  (Production.expect .identifier .statementExpected).andThen fun name =>
    (Production.expect .assignment (.assignmentExpected name.lexeme)).andThen fun _ =>
      expression.map fun value => ⟨name.lexeme, value, name.position⟩

/-- All tokens as statements, behind the statements found before, which come reversed. -/
def statementsFrom (found : List Assignment) (tokens : List Token) : Except Failure (List Assignment) :=
  match tokens with
  | [] => .ok found.reverse
  | token :: more =>
    match _ : statement.read (token :: more) with
    | .error failure => .error failure
    | .ok (next, rest) => statementsFrom (next :: found) rest
  termination_by tokens.length
  decreasing_by exact statement.length_lt ‹_›

/-- All tokens as statements. -/
def statements (tokens : List Token) : Except Failure (List Assignment) :=
  statementsFrom [] tokens

/-! ## The cases of reading statements -/

theorem statementsFrom_nil (found : List Assignment) : statementsFrom found [] = .ok found.reverse := by
  rw [statementsFrom]

theorem statementsFrom_error {tokens : List Token} {failure : Failure} (nonempty : tokens ≠ [])
    (h : statement.read tokens = .error failure) (found : List Assignment) :
    statementsFrom found tokens = .error failure := by
  match tokens with
  | [] => exact absurd rfl nonempty
  | token :: more =>
    rw [statementsFrom]
    split <;> simp_all

theorem statementsFrom_ok {tokens rest : List Token} {next : Assignment}
    (h : statement.read tokens = .ok (next, rest)) (found : List Assignment) :
    statementsFrom found tokens = statementsFrom (next :: found) rest := by
  match tokens with
  | [] => obtain ⟨_, _, impossible, _⟩ := statement.consumes h; cases impossible
  | token :: more =>
    rw [statementsFrom]
    split <;> simp_all

/-- A failure leaves an ending of the tokens. -/
theorem statementsFrom_leaves {found : List Assignment} {tokens : List Token} {failure : Failure}
    (h : statementsFrom found tokens = .error failure) : failure.rest <:+ tokens := by
  fun_induction statementsFrom found tokens with
  | case1 => cases h
  | case2 found token more failed read => cases h; exact statement.leaves read
  | case3 found token more next rest read ih => exact (ih h).trans (statement.suffix read)

end Mini.Grammar
