import Mini.Position

/-!
# Syntax trees

A program is a list of assignments, an assignment gives a name the value of an expression, and an expression
is a number, a name, or an operator between two expressions. Every node has the position of the token it was
made from: an assignment that of its name, an operation that of its operator, a program that of the first
token of all.

Operators are kept as text, so a tree can hold what no source text denotes.
-/

namespace Mini

/-- The two ways a number is written. -/
inductive NumberForm where
  | integer
  | real
  deriving DecidableEq, Repr

/-- Expressions. -/
inductive Expr where
  | number (form : NumberForm) (lexeme : String) (position : Position)
  | name (name : String) (position : Position)
  | binary (left : Expr) (operator : String) (right : Expr) (position : Position)
  deriving DecidableEq, Repr

/-- An expression given to a name. -/
structure Assignment where
  name : String
  value : Expr
  position : Position
  deriving DecidableEq, Repr

/-- Assignments in order. -/
structure Program where
  statements : List Assignment
  position : Position := .start
  deriving DecidableEq, Repr

/-- Any node of a syntax tree. -/
inductive Node where
  | program (program : Program)
  | assignment (assignment : Assignment)
  | expr (expr : Expr)
  deriving DecidableEq, Repr

/-! ## The shape of a tree -/

/-- The number of nodes of an expression. -/
def Expr.size : Expr → Nat
  | .number .. => 1
  | .name .. => 1
  | .binary left _ right _ => left.size + right.size + 1

/-- The number of nodes of an assignment. -/
def Assignment.size (a : Assignment) : Nat :=
  a.value.size + 1

/-- The number of nodes of a program. -/
def Program.size (p : Program) : Nat :=
  p.statements.foldr (fun a total => a.size + total) 1

namespace Node

/-- The nodes directly below a node, in source order. -/
def children : Node → List Node
  | .program p => p.statements.map .assignment
  | .assignment a => [.expr a.value]
  | .expr (.number ..) => []
  | .expr (.name ..) => []
  | .expr (.binary left _ right _) => [.expr left, .expr right]

/-- The number of nodes of a tree. -/
def size : Node → Nat
  | .program p => p.size
  | .assignment a => a.size
  | .expr e => e.size

/-- The number of nodes of several trees together. -/
def totalSize (trees : List Node) : Nat :=
  trees.foldr (fun n total => n.size + total) 0

theorem totalSize_append (first second : List Node) :
    totalSize (first ++ second) = totalSize first + totalSize second := by
  induction first with
  | nil => simp [totalSize]
  | cons n rest ih => simpa [totalSize, Nat.add_assoc] using ih

/-- **A tree is its root and the trees below it.** -/
theorem size_eq (n : Node) : n.size = totalSize n.children + 1 := by
  match n with
  | .program ⟨statements, position⟩ =>
    induction statements with
    | nil => rfl
    | cons a rest ih =>
      simp only [size, Program.size, children, totalSize, List.map_cons, List.foldr_cons] at ih ⊢
      rw [ih, Nat.add_assoc]
  | .assignment a => rfl
  | .expr (.number ..) => rfl
  | .expr (.name ..) => rfl
  | .expr (.binary ..) => rfl

end Node

end Mini
