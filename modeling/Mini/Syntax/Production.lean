import Mini.Syntax.Basic
import Mini.Token.Basic

/-!
# Productions

A production reads a beginning of a list of tokens. If it succeeds it answers with a value and the tokens it
left, and it has read one token at least; if it fails it answers with the reason and the tokens from the point
of failure on. Tokens that were read before a failure are not given back. Both promises are part of the type:
what is left is an ending of the tokens, and after a success a proper one. This is what makes repetition end.

`chain` is the shape of every level of precedence: operands separated by operators of that level. How the
operands are grouped is not part of reading; `Chain.groupLeft` and `Chain.groupRight` are the two ways.
-/

namespace Mini

/-- What a token was read for when reading failed. -/
inductive Fault where
  /-- A statement has to start with an identifier. -/
  | statementExpected
  /-- The identifier that starts a statement has to be followed by the assignment sign. -/
  | assignmentExpected (name : String)
  /-- An operand has to be an identifier or a number. -/
  | operandExpected
  /-- The tokens end where an operand is needed. -/
  | operandMissing
  deriving DecidableEq, Repr

/-- A reason to fail, and the tokens from the point of failure on. -/
structure Failure where
  fault : Fault
  rest : List Token
  deriving DecidableEq, Repr

/-- A way to read a value from the beginning of a list of tokens. -/
structure Production (α : Type) where
  read : List Token → Except Failure (α × List Token)
  /-- A success reads a token at least and leaves an ending of the others. -/
  consumes : ∀ {tokens value rest}, read tokens = .ok (value, rest) →
    ∃ first more, tokens = first :: more ∧ rest <:+ more
  /-- A failure leaves an ending of the tokens. -/
  leaves : ∀ {tokens failure}, read tokens = .error failure → failure.rest <:+ tokens

namespace Production

variable {α β : Type}

/-- **A success makes the tokens fewer.** -/
theorem length_lt (p : Production α) {tokens value rest} (h : p.read tokens = .ok (value, rest)) :
    rest.length < tokens.length := by
  obtain ⟨first, more, rfl, suffix⟩ := p.consumes h
  exact Nat.lt_succ_of_le suffix.length_le

theorem suffix (p : Production α) {tokens value rest} (h : p.read tokens = .ok (value, rest)) :
    rest <:+ tokens := by
  obtain ⟨first, more, rfl, suffix⟩ := p.consumes h
  exact suffix.trans (List.suffix_cons first more)

/-- One token of the given kind. -/
def expect (kind : Kind) (fault : Fault) : Production Token where
  read
    | [] => .error ⟨fault, []⟩
    | token :: rest => if token.kind = kind then .ok (token, rest) else .error ⟨fault, token :: rest⟩
  consumes {tokens value rest} h := by
    match tokens with
    | [] => cases h
    | token :: more =>
      dsimp only at h
      split at h
      · cases h
        exact ⟨value, rest, rfl, List.suffix_refl rest⟩
      · cases h
  leaves {tokens failure} h := by
    match tokens with
    | [] => cases h; exact List.suffix_refl []
    | token :: more =>
      dsimp only at h
      split at h
      · cases h
      · cases h; exact List.suffix_refl _

/-- A production, its value changed. -/
def map (f : α → β) (p : Production α) : Production β where
  read tokens := (p.read tokens).map fun (value, rest) => (f value, rest)
  consumes {tokens value rest} h := by
    cases read : p.read tokens with
    | error failure => simp [read, Except.map] at h
    | ok result =>
      simp only [read, Except.map, Except.ok.injEq, Prod.mk.injEq] at h
      exact h.2 ▸ p.consumes read
  leaves {tokens failure} h := by
    cases read : p.read tokens with
    | error failure => simp only [read, Except.map, Except.error.injEq] at h; exact h ▸ p.leaves read
    | ok result => simp [read, Except.map] at h

/-- One production after another, which may depend on the first one's value. -/
def andThen (p : Production α) (q : α → Production β) : Production β where
  read tokens :=
    match p.read tokens with
    | .error failure => .error failure
    | .ok (value, rest) => (q value).read rest
  consumes {tokens value rest} h := by
    cases read : p.read tokens with
    | error failure => simp [read] at h
    | ok result =>
      simp only [read] at h
      obtain ⟨first, more, rfl, suffix⟩ := p.consumes read
      exact ⟨first, more, rfl, ((q result.1).suffix h).trans suffix⟩
  leaves {tokens failure} h := by
    cases read : p.read tokens with
    | error failure => simp only [read, Except.error.injEq] at h; exact h ▸ p.leaves read
    | ok result =>
      simp only [read] at h
      exact ((q result.1).leaves h).trans (p.suffix read)

theorem read_andThen_error {p : Production α} {q : α → Production β} {tokens : List Token}
    {failure : Failure} (h : p.read tokens = .error failure) :
    (p.andThen q).read tokens = .error failure := by
  show (match p.read tokens with | .error failure => _ | .ok (value, rest) => _) = _
  rw [h]

theorem read_andThen_ok {p : Production α} {q : α → Production β} {tokens rest : List Token} {value : α}
    (h : p.read tokens = .ok (value, rest)) : (p.andThen q).read tokens = (q value).read rest := by
  show (match p.read tokens with | .error failure => _ | .ok (value, rest) => _) = _
  rw [h]

theorem read_map (f : α → β) (p : Production α) (tokens : List Token) :
    (p.map f).read tokens = (p.read tokens).map fun (value, rest) => (f value, rest) := rfl

end Production

/-! ## Chains -/

/-- Operands separated by operators: the first operand, and each further one behind its operator. -/
structure Chain where
  first : Expr
  links : List (Token × Expr)

/-- An operator token between two expressions. -/
def Expr.join (left : Expr) (operator : Token) (right : Expr) : Expr :=
  .binary left operator.lexeme right operator.position

/-- Grouped from the left: each operator takes all before it and the next operand. -/
def Chain.groupLeft (chain : Chain) : Expr :=
  chain.links.foldl (fun left (operator, right) => left.join operator right) chain.first

/-- Grouped from the right, an operand and the links behind it: each operator takes the operand before it
and all behind it. -/
def groupRightFrom (first : Expr) : List (Token × Expr) → Expr
  | [] => first
  | (operator, next) :: links => first.join operator (groupRightFrom next links)

/-- Grouped from the right. -/
def Chain.groupRight (chain : Chain) : Expr :=
  groupRightFrom chain.first chain.links

/-- Whether a token is an operator with one of the given signs. -/
def Token.isOperator (signs : List String) (token : Token) : Bool :=
  token.kind = .operator && signs.contains token.lexeme

namespace Production

/-- Operators with one of the signs, each with the operand behind it, as long as there is such an operator;
the links found before come reversed. -/
def links (operand : Production Expr) (signs : List String) (found : List (Token × Expr))
    (tokens : List Token) : Except Failure (List (Token × Expr) × List Token) :=
  match tokens with
  | [] => .ok (found.reverse, [])
  | token :: rest =>
    if token.isOperator signs then
      match _ : operand.read rest with
      | .error failure => .error failure
      | .ok (value, after) => operand.links signs ((token, value) :: found) after
    else
      .ok (found.reverse, token :: rest)
  termination_by tokens.length
  decreasing_by exact Nat.lt_succ_of_lt (operand.length_lt ‹_›)

theorem links_nil (operand : Production Expr) (signs : List String) (found : List (Token × Expr)) :
    operand.links signs found [] = .ok (found.reverse, []) := by
  rw [links]

theorem links_stop {operand : Production Expr} {signs : List String} {token : Token}
    (h : token.isOperator signs = false) (found : List (Token × Expr)) (rest : List Token) :
    operand.links signs found (token :: rest) = .ok (found.reverse, token :: rest) := by
  rw [links, if_neg (by simp [h])]

theorem links_error {operand : Production Expr} {signs : List String} {token : Token} {rest : List Token}
    {failure : Failure} (h : token.isOperator signs = true) (next : operand.read rest = .error failure)
    (found : List (Token × Expr)) :
    operand.links signs found (token :: rest) = .error failure := by
  rw [links, if_pos h]
  split <;> simp_all

theorem links_ok {operand : Production Expr} {signs : List String} {token : Token} {rest after : List Token}
    {value : Expr} (h : token.isOperator signs = true) (next : operand.read rest = .ok (value, after))
    (found : List (Token × Expr)) :
    operand.links signs found (token :: rest) =
      operand.links signs ((token, value) :: found) after := by
  rw [links, if_pos h]
  split <;> simp_all

/-- What the links leave is an ending of the tokens. -/
theorem links_suffix (operand : Production Expr) (signs : List String) (found : List (Token × Expr))
    (tokens : List Token) :
    match operand.links signs found tokens with
    | .ok (_, rest) => rest <:+ tokens
    | .error failure => failure.rest <:+ tokens := by
  fun_induction links operand signs found tokens with
  | case1 found => simp
  | case2 found token rest isOperator failure next =>
    exact (operand.leaves next).trans (List.suffix_cons token rest)
  | case3 found token rest isOperator value after next ih =>
    have shorter := (operand.suffix next).trans (List.suffix_cons token rest)
    split at ih <;> exact ih.trans shorter
  | case4 => exact List.suffix_refl _

/-- Operands separated by operators with one of the signs, as many as there are. -/
def chain (operand : Production Expr) (signs : List String) : Production Chain where
  read tokens :=
    match operand.read tokens with
    | .error failure => .error failure
    | .ok (first, rest) => (operand.links signs [] rest).map fun (links, after) => (⟨first, links⟩, after)
  consumes {tokens value rest} h := by
    cases read : operand.read tokens with
    | error failure => simp [read] at h
    | ok result =>
      obtain ⟨first, more, rfl, suffix⟩ := operand.consumes read
      have ending := operand.links_suffix signs [] result.2
      cases linked : operand.links signs [] result.2 with
      | error failure => simp [read, linked, Except.map] at h
      | ok links =>
        simp only [read, linked, Except.map, Except.ok.injEq, Prod.mk.injEq] at h ending
        exact ⟨first, more, rfl, h.2 ▸ ending.trans suffix⟩
  leaves {tokens failure} h := by
    cases read : operand.read tokens with
    | error failure => simp only [read, Except.error.injEq] at h; exact h ▸ operand.leaves read
    | ok result =>
      have ending := operand.links_suffix signs [] result.2
      cases linked : operand.links signs [] result.2 with
      | error failure =>
        simp only [read, linked, Except.map, Except.error.injEq] at h ending
        exact h ▸ ending.trans (operand.suffix read)
      | ok links => simp [read, linked, Except.map] at h

theorem read_chain_error {operand : Production Expr} {signs : List String} {tokens : List Token}
    {failure : Failure} (h : operand.read tokens = .error failure) :
    (operand.chain signs).read tokens = .error failure := by
  show (match operand.read tokens with | .error failure => _ | .ok (first, rest) => _) = _
  rw [h]

theorem read_chain_ok {operand : Production Expr} {signs : List String} {tokens rest : List Token}
    {first : Expr} (h : operand.read tokens = .ok (first, rest)) :
    (operand.chain signs).read tokens =
      (operand.links signs [] rest).map fun (links, after) => (⟨first, links⟩, after) := by
  show (match operand.read tokens with | .error failure => _ | .ok (first, rest) => _) = _
  rw [h]

end Production

end Mini
