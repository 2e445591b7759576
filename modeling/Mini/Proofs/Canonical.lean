import Mini.Syntax.Cursor

/-!
# Canonical trees and their tokens

The grammar of Mini said without reading, by the shape of trees. A tree is canonical when its operators are
the five of the language and every operand binds at least as tight as its place asks for: a sum leans left, a
product leans left and holds no bare sum, a power leans right and stands on a leaf. There are no parentheses,
so this is all that a tree of source text can look like.

The tokens of a tree are those it was made from, in order. A tree keeps the lexeme and the position of every
token but the assignment signs, of which it only knows that they were there. Two lists of tokens are therefore
compared as far as trees keep them (`Token.kept`).
-/

namespace Mini

/-! ## Tokens in order -/

/-- The kind of token that a number is written with. -/
def NumberForm.kind : NumberForm → Kind
  | .integer => .integer
  | .real => .real

/-- The tokens of an expression. -/
def Expr.tokens : Expr → List Token
  | .number form lexeme position => [⟨form.kind, lexeme, position⟩]
  | .name text position => [⟨.identifier, text, position⟩]
  | .binary left operator right position =>
    left.tokens ++ ⟨.operator, operator, position⟩ :: right.tokens

/-- The assignment sign, as it stands for every token of its kind. -/
def assignmentSign : Token := ⟨.assignment, ":=", .start⟩

/-- The tokens of an assignment. -/
def Assignment.tokens (a : Assignment) : List Token :=
  ⟨.identifier, a.name, a.position⟩ :: assignmentSign :: a.value.tokens

/-- The tokens of a program. -/
def Program.tokens (p : Program) : List Token :=
  p.statements.flatMap Assignment.tokens

/-- A token as far as trees keep it. -/
def Token.kept (t : Token) : Token :=
  if t.kind = .assignment then assignmentSign else t

/-- Whether the tokens are those of the program, as far as trees keep them. -/
def Program.Spells (p : Program) (tokens : List Token) : Prop :=
  p.tokens = tokens.map Token.kept

/-! ## The shape of canonical trees -/

/-- The signs of sums. -/
def sumSigns : List String := ["+", "-"]

/-- The signs of products. -/
def productSigns : List String := ["*", "/"]

/-- The sign of powers. -/
def powerSigns : List String := ["^"]

/-- The signs of all operators, those that bind tightest first. -/
def operatorSigns : List String := powerSigns ++ productSigns ++ sumSigns

/-- A number or a name. -/
def Expr.isLeaf : Expr → Bool
  | .number .. => true
  | .name .. => true
  | .binary .. => false

/-- Whether the root is an operator with one of the signs. -/
def Expr.rootIn (signs : List String) : Expr → Bool
  | .number .. => false
  | .name .. => false
  | .binary _ operator _ _ => signs.contains operator

/-- Whether an operator may stand between two operands. -/
def joins (left : Expr) (operator : String) (right : Expr) : Bool :=
  (sumSigns.contains operator && !right.rootIn sumSigns) ||
  (productSigns.contains operator && !left.rootIn sumSigns && (right.isLeaf || right.rootIn powerSigns)) ||
  (powerSigns.contains operator && left.isLeaf && (right.isLeaf || right.rootIn powerSigns))

/-- Whether every operator of an expression may stand where it does. -/
def Expr.isCanonical : Expr → Bool
  | .number .. => true
  | .name .. => true
  | .binary left operator right _ => left.isCanonical && right.isCanonical && joins left operator right

/-- Whether the value of every assignment is canonical. -/
def Program.isCanonical (p : Program) : Bool :=
  p.statements.all fun a => a.value.isCanonical

/-- An expression has a token at least. -/
theorem Expr.tokens_ne_nil (e : Expr) : e.tokens ≠ [] := by
  cases e with
  | number form lexeme position => exact List.cons_ne_nil _ _
  | name text position => exact List.cons_ne_nil _ _
  | binary left operator right position => exact List.append_ne_nil_of_right_ne_nil _ (List.cons_ne_nil _ _)

/-! ## What trees keep -/

theorem Token.kept_of_ne {t : Token} (h : t.kind ≠ .assignment) : t.kept = t :=
  if_neg h

theorem Token.kept_eq_sign_iff {t : Token} : t.kept = assignmentSign ↔ t.kind = .assignment := by
  refine ⟨fun h => ?_, fun h => ?_⟩
  · by_cases same : t.kind = .assignment
    · exact same
    · rw [Token.kept_of_ne same] at h
      exact h ▸ rfl
  · exact if_pos h

/-- A token that is no assignment sign is kept whole, so it can be told from what is kept. -/
theorem Token.eq_of_kept_eq {t u : Token} (h : t.kept = u) (other : u.kind ≠ .assignment) : t = u := by
  by_cases same : t.kind = .assignment
  · rw [Token.kept_eq_sign_iff.mpr same] at h
    exact absurd (h ▸ rfl) other
  · rw [← h, Token.kept_of_ne same]

/-- Where nothing is an assignment sign, keeping changes nothing. -/
theorem eq_of_map_kept {tokens kept : List Token} (h : tokens.map Token.kept = kept)
    (others : ∀ t ∈ kept, t.kind ≠ .assignment) : tokens = kept := by
  induction tokens generalizing kept with
  | nil => exact h
  | cons t rest ih =>
    subst h
    have first : t = t.kept := Token.eq_of_kept_eq rfl (others t.kept List.mem_cons_self)
    have more := ih rfl fun u mem => others u (List.mem_cons_of_mem _ mem)
    rw [List.map_cons, ← first, ← more]

theorem Expr.kind_ne_of_mem_tokens {e : Expr} : ∀ t ∈ e.tokens, t.kind ≠ .assignment := by
  induction e with
  | number form lexeme position => cases form <;> simp [Expr.tokens, NumberForm.kind]
  | name text position => simp [Expr.tokens]
  | binary left operator right position ihl ihr =>
    intro t mem
    rw [Expr.tokens, List.mem_append, List.mem_cons] at mem
    rcases mem with mem | rfl | mem
    · exact ihl t mem
    · exact Kind.noConfusion
    · exact ihr t mem

theorem Expr.map_kept_tokens (e : Expr) : e.tokens.map Token.kept = e.tokens := by
  rw [List.map_congr_left fun t mem => Token.kept_of_ne (e.kind_ne_of_mem_tokens t mem), List.map_id']

end Mini
