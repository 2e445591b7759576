import Mini.Index
import Mini.Syntax.Basic

/-!
# Outlines

An outline shows a tree with one line for each node: a node before the nodes below it, these in source order
and two columns further in. The indent of the root is any integer; lines that would start left of the margin
start at the margin, and the nodes below still count from the indent.

An indent that is asked for can be refused (`Node.outlineAt`): the spaces of a line are counted by an index, so there is
no outline where the indent of one of its lines is none, on either side of the margin. Memory is not counted.

Trees can be much deeper than wide, so the lines are made from a list of the trees still to be shown, each
with its indent (`outlineLines`). Every step shows one node, so the sum of the sizes bounds the number of steps.
-/

namespace Mini

/-- What a line says about its node. -/
def Node.label : Node → String
  | .program _ => "Program"
  | .assignment a => s!"Assignment: {a.name}"
  | .expr (.number .integer lexeme _) => s!"IntegerLiteral: {lexeme}"
  | .expr (.number .real lexeme _) => s!"RealLiteral: {lexeme}"
  | .expr (.name name _) => s!"IdentifierExpr: {name}"
  | .expr (.binary _ operator _ _) => s!"BinaryExpr '{operator}'"

/-- How much further in the nodes below a node stand. -/
def indentStep : Int := 2

/-- The line of a node: its label behind as many spaces as the indent asks for. -/
def Node.line (indent : Int) (n : Node) : String :=
  String.ofList (List.replicate indent.toNat ' ') ++ n.label

/-- What is still to be shown gets smaller when a node gives way to the nodes below it. -/
theorem totalSize_below_lt (indent : Int) (n : Node) (rest : List (Int × Node)) :
    Node.totalSize ((n.children.map (indent + indentStep, ·) ++ rest).map Prod.snd) <
      Node.totalSize (((indent, n) :: rest).map Prod.snd) := by
  have below : (n.children.map (indent + indentStep, ·)).map Prod.snd = n.children := by
    simp [Function.comp_def]
  rw [List.map_append, below, Node.totalSize_append]
  show _ < n.size + Node.totalSize (rest.map Prod.snd)
  rw [n.size_eq]
  omega

/-- The lines of the trees still to be shown, each from its indent, behind the lines shown before, which
come reversed. -/
def outlineLines (shown : List String) (pending : List (Int × Node)) : List String :=
  match pending with
  | [] => shown.reverse
  | (indent, n) :: rest =>
    outlineLines (n.line indent :: shown) (n.children.map (indent + indentStep, ·) ++ rest)
  termination_by Node.totalSize (pending.map Prod.snd)
  decreasing_by exact totalSize_below_lt indent n rest

/-- The outline of a tree, its lines separated by line feeds. -/
def Node.outline (n : Node) (indent : Int) : String :=
  "\n".intercalate (outlineLines [] [(indent, n)])

/-- The outline of a tree from the margin as a text of its own, its last line ended too. -/
def Node.outlineText (n : Node) : String :=
  n.outline 0 ++ "\n"

theorem outlineLines_nil (shown : List String) : outlineLines shown [] = shown.reverse := by
  rw [outlineLines]

/-- The first pending tree is shown before the others, its root before the trees below it. -/
theorem outlineLines_cons (shown : List String) (indent : Int) (n : Node) (rest : List (Int × Node)) :
    outlineLines shown ((indent, n) :: rest) =
      outlineLines (n.line indent :: shown) (n.children.map (indent + indentStep, ·) ++ rest) := by
  rw [outlineLines]

/-! ## Indents that are asked for -/

/-- Why there is no outline at an indent. -/
inductive IndentError where
  /-- The indent of a line is no index. -/
  | notAnIndex
  deriving DecidableEq, Repr

/-- The wording of an indent error. -/
def IndentError.message : IndentError → String
  | .notAnIndex => notAnIndexMessage

/-- The lines of the trees still to be shown, as `outlineLines` has them, up to the first whose indent is refused. -/
def outlineLinesAt (shown : List String) (pending : List (Int × Node)) : Except IndentError (List String) :=
  match pending with
  | [] => .ok shown.reverse
  | (indent, n) :: rest =>
    if IsIndex indent then
      outlineLinesAt (n.line indent :: shown) (n.children.map (indent + indentStep, ·) ++ rest)
    else
      .error .notAnIndex
  termination_by Node.totalSize (pending.map Prod.snd)
  decreasing_by exact totalSize_below_lt indent n rest

/-- The outline of a tree at an indent that was asked for, if every line can have its indent. -/
def Node.outlineAt (n : Node) (indent : Int) : Except IndentError String :=
  (outlineLinesAt [] [(indent, n)]).map ("\n".intercalate ·)

theorem outlineLinesAt_nil (shown : List String) : outlineLinesAt shown [] = .ok shown.reverse := by
  rw [outlineLinesAt]

theorem outlineLinesAt_cons {indent : Int} (index : IsIndex indent) (shown : List String) (n : Node)
    (rest : List (Int × Node)) :
    outlineLinesAt shown ((indent, n) :: rest) =
      outlineLinesAt (n.line indent :: shown) (n.children.map (indent + indentStep, ·) ++ rest) := by
  rw [outlineLinesAt, if_pos index]

theorem outlineLinesAt_refused {indent : Int} (noIndex : ¬ IsIndex indent) (shown : List String) (n : Node)
    (rest : List (Int × Node)) : outlineLinesAt shown ((indent, n) :: rest) = .error .notAnIndex := by
  rw [outlineLinesAt, if_neg noIndex]

end Mini
