import Mini.Proofs.Preorder

/-!
# Outlines rendered level by level

`outline_rendered`: the lines that come of going through pending trees are those of a plain recursion over the tree
(`Node.rendering`), which gives a node its line and then, one level further in, the lines of the nodes below it in source
order. A line is as far in as the indent of the root and two columns for every level ask for, and at the margin where
that is left of it. There is one line for every node.

An indent that is no index is refused whatever the tree (`outlineAt_left_of_indices`).
-/

namespace Mini

/-! ## Rendering by recursion -/

/-- A label at a level, in an outline that starts at an indent. -/
def levelLine (indent : Int) (level : Nat) (label : String) : String :=
  String.ofList (List.replicate (max 0 (indent + 2 * level)).toNat ' ') ++ label

/-- The lines of an expression at a level: an operation before its operands, the left one before the right one. -/
def Expr.rendering (indent : Int) (level : Nat) : Expr → List String
  | .number form lexeme position => [levelLine indent level (Node.expr (.number form lexeme position)).label]
  | .name text position => [levelLine indent level (Node.expr (.name text position)).label]
  | .binary left operator right position =>
    levelLine indent level (Node.expr (.binary left operator right position)).label ::
      (left.rendering indent (level + 1) ++ right.rendering indent (level + 1))

/-- The lines of an assignment at a level, before those of its value. -/
def Assignment.rendering (indent : Int) (level : Nat) (a : Assignment) : List String :=
  levelLine indent level (Node.assignment a).label :: a.value.rendering indent (level + 1)

/-- The lines of a tree at a level: a node before the nodes below it, these in source order and one level further in. -/
def Node.rendering (indent : Int) (level : Nat) : Node → List String
  | .program p =>
    levelLine indent level (Node.program p).label :: p.statements.flatMap (Assignment.rendering indent (level + 1))
  | .assignment a => a.rendering indent level
  | .expr e => e.rendering indent level

/-! ## The rendering of a tree lists its nodes -/

/-- Left of the margin there are no spaces, and neither are there at it. -/
theorem lineAt_eq (indent : Int) (level : Nat) (n : Node) : lineAt indent (level, n) = levelLine indent level n.label := by
  have spaces : (max 0 (indent + 2 * level)).toNat = (indentAt indent level).toNat := by
    rw [indentAt, indentStep]
    omega
  rw [levelLine, spaces]
  rfl

theorem Expr.rendering_eq (indent : Int) (level : Nat) (e : Expr) :
    e.rendering indent level = (e.preorder level).map (lineAt indent) := by
  induction e generalizing level with
  | number form lexeme position => rw [rendering, preorder, List.map_singleton, lineAt_eq]
  | name text position => rw [rendering, preorder, List.map_singleton, lineAt_eq]
  | binary left operator right position ihl ihr =>
    rw [rendering, preorder, List.map_cons, List.map_append, lineAt_eq, ihl, ihr]

theorem Assignment.rendering_eq (indent : Int) (level : Nat) (a : Assignment) :
    a.rendering indent level = (a.preorder level).map (lineAt indent) := by
  rw [rendering, preorder, List.map_cons, lineAt_eq, Expr.rendering_eq]

/-- **A rendering has the lines of all nodes with their levels.** -/
theorem Node.rendering_eq (indent : Int) (level : Nat) (n : Node) :
    n.rendering indent level = (n.preorder level).map (lineAt indent) := by
  match n with
  | .assignment a => exact a.rendering_eq indent level
  | .expr e => exact e.rendering_eq indent level
  | .program p =>
    have statements : Assignment.rendering indent (level + 1) =
        fun a => (a.preorder (level + 1)).map (lineAt indent) :=
      funext fun a => a.rendering_eq indent (level + 1)
    rw [rendering, preorder, List.map_cons, lineAt_eq, List.map_flatMap, statements]

/-- **Outlines are renderings.** Going through pending trees ends with the lines of the rendering, and there are as many as
the tree has nodes. Joined by line feeds they are the outline at every indent at which there is one: that is where the
indents of all lines are indices, so there is none at an indent that is no index. -/
theorem outline_rendered (n : Node) (indent : Int) :
    outlineLines [] [(indent, n)] = n.rendering indent 0 ∧
    (n.rendering indent 0).length = n.size ∧
    (∀ text, n.outlineAt indent = .ok text ↔
      n.Fits indent ∧ text = "\n".intercalate (n.rendering indent 0)) ∧
    (¬ IsIndex indent → n.outlineAt indent = .error .notAnIndex) := by
  have lines : outlineLines [] [(indent, n)] = n.rendering indent 0 := by
    rw [n.outlineLines_singleton, n.rendering_eq]
  refine ⟨lines, ?_, fun text => ?_, fun outside => n.outlineAt_eq_notAnIndex outside⟩
  · rw [n.rendering_eq, List.length_map, n.length_preorder]
  · rw [Node.outlineAt_eq_ok_iff, Node.outline, lines, eq_comm (a := text)]

/-- An integer below the indices is refused, although the rendering has its lines there as everywhere. -/
theorem outlineAt_left_of_indices :
    let empty : Node := .program ⟨[], .start⟩
    let indent : Int := -9223372036854775809
    empty.rendering indent 0 = ["Program"] ∧ empty.outlineAt indent = .error .notAnIndex ∧
      ¬ empty.outlineAt indent = .ok ("\n".intercalate (empty.rendering indent 0)) := by
  intro empty indent
  have refused : empty.outlineAt indent = .error .notAnIndex := empty.outlineAt_eq_notAnIndex (by decide)
  refine ⟨rfl, refused, fun claimed => ?_⟩
  rw [refused] at claimed
  cases claimed

end Mini
