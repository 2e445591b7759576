import Mini.Proofs.NodePlace
import Mini.Proofs.Unplaced

/-!
# Outlines by recursion

The lines of an outline, said without a list of pending trees: the nodes of a tree, each before the nodes below it and
with the level at which it stands (`Node.preorder`), and for each the line of its node, two columns further in for every
level (`Node.outline_eq`). The loop that makes the lines goes through pending trees one after the other, and each leaves
its own lines (`outlineLines_eq`).

An outline that is asked for is this outline where every line can have its indent, and refused where one cannot
(`Node.outlineAt_eq`).

Positions do not show in an outline (`Node.outline_unplaced`), and neither do they matter for whether there is one
(`Node.fits_unplaced`).
-/

namespace Mini

/-! ## Nodes with their levels -/

/-- The nodes of an expression at a level, each with its level. -/
def Expr.preorder (level : Nat) : Expr → List (Nat × Node)
  | .number form lexeme position => [(level, .expr (.number form lexeme position))]
  | .name text position => [(level, .expr (.name text position))]
  | .binary left operator right position =>
    (level, .expr (.binary left operator right position)) ::
      (left.preorder (level + 1) ++ right.preorder (level + 1))

/-- The nodes of an assignment at a level, each with its level. -/
def Assignment.preorder (level : Nat) (a : Assignment) : List (Nat × Node) :=
  (level, .assignment a) :: a.value.preorder (level + 1)

namespace Node

/-- The nodes of a tree at a level, each with its level: a node before the nodes below it, these in source order. -/
def preorder (level : Nat) : Node → List (Nat × Node)
  | .program p => (level, .program p) :: p.statements.flatMap (Assignment.preorder (level + 1))
  | .assignment a => a.preorder level
  | .expr e => e.preorder level

/-- **A tree is listed as its root and then the trees below it, one level further in.** -/
theorem preorder_eq (level : Nat) (n : Node) :
    n.preorder level = (level, n) :: n.children.flatMap (preorder (level + 1)) := by
  match n with
  | .program p =>
    rw [children, List.flatMap_map]
    rfl
  | .assignment a =>
    rw [children, List.flatMap_singleton]
    rfl
  | .expr (.number ..) => rfl
  | .expr (.name ..) => rfl
  | .expr (.binary left operator right position) =>
    rw [children, List.flatMap_cons, List.flatMap_singleton]
    rfl

end Node

/-! ## How many nodes there are -/

theorem Expr.length_preorder (level : Nat) (e : Expr) : (e.preorder level).length = e.size := by
  induction e generalizing level with
  | number form lexeme position => rfl
  | name text position => rfl
  | binary left operator right position ihl ihr =>
    rw [preorder, List.length_cons, List.length_append, ihl, ihr, size]

theorem Assignment.length_preorder (level : Nat) (a : Assignment) : (a.preorder level).length = a.size := by
  rw [preorder, List.length_cons, Expr.length_preorder, size]

theorem Node.length_preorder (level : Nat) (n : Node) : (n.preorder level).length = n.size := by
  match n with
  | .assignment a => exact a.length_preorder level
  | .expr e => exact e.length_preorder level
  | .program ⟨statements, position⟩ =>
    rw [preorder, List.length_cons, size, Program.size]
    induction statements with
    | nil => rfl
    | cons a rest ih =>
      rw [List.flatMap_cons, List.length_append, Assignment.length_preorder, Nat.add_assoc, ih, List.foldr_cons]

/-! ## The lines of an outline -/

/-- The indent of a level, in an outline that starts at an indent. -/
def indentAt (indent : Int) (level : Nat) : Int :=
  indent + indentStep * level

theorem indentAt_succ (indent : Int) (level : Nat) :
    indentAt indent (level + 1) = indentAt indent level + indentStep := by
  rw [indentAt, indentAt, Int.natCast_succ, Int.mul_add, Int.mul_one, Int.add_assoc]

/-- The line of a node at a level, in an outline that starts at an indent. -/
def lineAt (indent : Int) (placed : Nat × Node) : String :=
  placed.2.line (indentAt indent placed.1)

/-- A node at a level with its indent, as a tree that is still to be shown. -/
def pendingAt (indent : Int) (placed : Nat × Node) : Int × Node :=
  (indentAt indent placed.1, placed.2)

theorem pendingAt_zero (indent : Int) (n : Node) : pendingAt indent (0, n) = (indent, n) := by
  simp [pendingAt, indentAt]

/-- The trees below a node are pending one level further in. -/
theorem map_pendingAt_children (indent : Int) (level : Nat) (n : Node) :
    (n.children.map (level + 1, ·)).map (pendingAt indent) = n.children.map (indentAt indent level + indentStep, ·) := by
  rw [List.map_map, ← indentAt_succ]
  rfl

/-- The nodes of pending trees, each with its level. -/
def preorderAll (pending : List (Nat × Node)) : List (Nat × Node) :=
  pending.flatMap fun placed => placed.2.preorder placed.1

theorem preorderAll_cons (level : Nat) (n : Node) (rest : List (Nat × Node)) :
    preorderAll ((level, n) :: rest) = (level, n) :: preorderAll (n.children.map (level + 1, ·) ++ rest) := by
  rw [preorderAll, preorderAll, List.flatMap_cons, n.preorder_eq, List.flatMap_append, List.flatMap_map]
  rfl

theorem preorderAll_singleton (level : Nat) (n : Node) : preorderAll [(level, n)] = n.preorder level :=
  List.flatMap_singleton ..

/-- **Induction over pending trees**: the first gives way to the trees below it, and every step shows one node. -/
theorem pending_induction {motive : List (Nat × Node) → Prop} (nil : motive [])
    (cons : ∀ level n rest, motive (n.children.map (level + 1, ·) ++ rest) → motive ((level, n) :: rest))
    (pending : List (Nat × Node)) : motive pending := by
  induction size : Node.totalSize (pending.map Prod.snd) using Nat.strongRecOn generalizing pending with
  | ind bound ih =>
    cases pending with
    | nil => exact nil
    | cons placed rest =>
      obtain ⟨level, n⟩ := placed
      refine cons level n rest (ih _ ?_ _ rfl)
      have nodes : (n.children.map (level + 1, ·)).map Prod.snd = n.children := by
        rw [List.map_map]
        exact List.map_id' _
      rw [← size, List.map_append, nodes, Node.totalSize_append]
      show _ < n.size + Node.totalSize (rest.map Prod.snd)
      rw [n.size_eq]
      omega

/-- **Pending trees leave their lines one after the other.** -/
theorem outlineLines_eq (indent : Int) (shown : List String) (pending : List (Nat × Node)) :
    outlineLines shown (pending.map (pendingAt indent)) =
      shown.reverse ++ (preorderAll pending).map (lineAt indent) := by
  induction pending using pending_induction generalizing shown with
  | nil =>
    rw [List.map_nil, outlineLines_nil]
    exact (List.append_nil _).symm
  | cons level n rest ih =>
    have line : n.line (indentAt indent level) = lineAt indent (level, n) := rfl
    rw [List.map_cons, pendingAt, outlineLines_cons, ← map_pendingAt_children, ← List.map_append, ih, preorderAll_cons,
      List.map_cons, List.reverse_cons, List.append_assoc, List.singleton_append, line]

/-- The lines of one tree. -/
theorem Node.outlineLines_singleton (n : Node) (indent : Int) :
    outlineLines [] [(indent, n)] = (n.preorder 0).map (lineAt indent) := by
  have lines := outlineLines_eq indent [] [(0, n)]
  rwa [List.map_singleton, pendingAt_zero, List.reverse_nil, List.nil_append, preorderAll_singleton] at lines

/-- **An outline has a line for every node**, each before those of the nodes below it. -/
theorem Node.outline_eq (n : Node) (indent : Int) :
    n.outline indent = "\n".intercalate ((n.preorder 0).map (lineAt indent)) := by
  rw [outline, outlineLines_singleton]

/-! ## Outlines that are asked for -/

/-- Whether every line of a tree can have its indent, in an outline that starts at an indent. -/
def Node.Fits (indent : Int) (n : Node) : Prop :=
  ∀ placed ∈ n.preorder 0, IsIndex (indentAt indent placed.1)

instance (indent : Int) (n : Node) : Decidable (n.Fits indent) :=
  inferInstanceAs (Decidable (∀ placed ∈ n.preorder 0, IsIndex (indentAt indent placed.1)))

/-- **Pending trees leave their lines if all of these can have their indents**, and else none. -/
theorem outlineLinesAt_eq (indent : Int) (shown : List String) (pending : List (Nat × Node)) :
    outlineLinesAt shown (pending.map (pendingAt indent)) =
      if ∀ placed ∈ preorderAll pending, IsIndex (indentAt indent placed.1) then
        .ok (outlineLines shown (pending.map (pendingAt indent)))
      else
        .error .notAnIndex := by
  induction pending using pending_induction generalizing shown with
  | nil =>
    have none : ∀ placed ∈ preorderAll [], IsIndex (indentAt indent placed.1) := List.forall_mem_nil _
    rw [if_pos none, List.map_nil, outlineLinesAt_nil, outlineLines_nil]
  | cons level n rest ih =>
    rw [List.map_cons, pendingAt, preorderAll_cons]
    by_cases index : IsIndex (indentAt indent level)
    · simp only [List.forall_mem_cons, index, true_and]
      rw [outlineLinesAt_cons index, outlineLines_cons, ← map_pendingAt_children, ← List.map_append, ih]
    · rw [outlineLinesAt_refused index, if_neg fun fits => index (fits (level, n) List.mem_cons_self)]

/-- **The outline of a tree is refused exactly where one of its lines cannot have its indent.** -/
theorem Node.outlineAt_eq (n : Node) (indent : Int) :
    n.outlineAt indent = if n.Fits indent then .ok (n.outline indent) else .error .notAnIndex := by
  have lines := outlineLinesAt_eq indent [] [(0, n)]
  rw [List.map_singleton, pendingAt_zero, preorderAll_singleton] at lines
  rw [outlineAt, lines, apply_ite (Except.map _)]
  rfl

theorem Node.outlineAt_eq_ok_iff {n : Node} {indent : Int} {text : String} :
    n.outlineAt indent = .ok text ↔ n.Fits indent ∧ n.outline indent = text := by
  rw [outlineAt_eq]
  by_cases fits : n.Fits indent <;> simp [fits]

/-- The root is the first line that has to have its indent. -/
theorem Node.outlineAt_eq_notAnIndex {indent : Int} (outside : ¬ IsIndex indent) (n : Node) :
    n.outlineAt indent = .error .notAnIndex := by
  rw [outlineAt, outlineLinesAt_refused outside]
  rfl

/-! ## Positions do not show -/

/-- A node with all its positions forgotten. -/
def Node.unplaced : Node → Node
  | .program p => .program p.unplaced
  | .assignment a => .assignment a.unplaced
  | .expr e => .expr e.unplaced

theorem Node.label_unplaced (n : Node) : n.unplaced.label = n.label := by
  match n with
  | .program p => rfl
  | .assignment a => rfl
  | .expr (.number .integer ..) => rfl
  | .expr (.number .real ..) => rfl
  | .expr (.name ..) => rfl
  | .expr (.binary ..) => rfl

/-- A node at a level with its positions forgotten. -/
def unplacedAt (placed : Nat × Node) : Nat × Node :=
  (placed.1, placed.2.unplaced)

theorem lineAt_unplacedAt (indent : Int) (placed : Nat × Node) :
    lineAt indent (unplacedAt placed) = lineAt indent placed := by
  rw [lineAt, lineAt, Node.line, Node.line, unplacedAt, Node.label_unplaced]

theorem Expr.preorder_unplaced (level : Nat) (e : Expr) :
    e.unplaced.preorder level = (e.preorder level).map unplacedAt := by
  induction e generalizing level with
  | number form lexeme position => rfl
  | name text position => rfl
  | binary left operator right position ihl ihr =>
    rw [unplaced, preorder, ihl, ihr, preorder, List.map_cons, List.map_append]
    rfl

theorem Assignment.preorder_unplaced (level : Nat) (a : Assignment) :
    a.unplaced.preorder level = (a.preorder level).map unplacedAt := by
  rw [preorder, preorder, List.map_cons, ← Expr.preorder_unplaced]
  rfl

theorem Node.preorder_unplaced (level : Nat) (n : Node) :
    n.unplaced.preorder level = (n.preorder level).map unplacedAt := by
  match n with
  | .assignment a => exact a.preorder_unplaced level
  | .expr e => exact e.preorder_unplaced level
  | .program p =>
    have statements : p.unplaced.statements.flatMap (Assignment.preorder (level + 1)) =
        (p.statements.flatMap (Assignment.preorder (level + 1))).map unplacedAt := by
      rw [Program.unplaced, List.flatMap_map, List.map_flatMap]
      exact congrArg (p.statements.flatMap ·) (funext fun a => a.preorder_unplaced (level + 1))
    rw [preorder, List.map_cons, ← statements]
    rfl

/-- **Positions do not show in an outline.** -/
theorem Node.outline_unplaced (n : Node) (indent : Int) : n.unplaced.outline indent = n.outline indent := by
  have lines : lineAt indent ∘ unplacedAt = lineAt indent := funext fun placed => lineAt_unplacedAt indent placed
  rw [outline_eq, outline_eq, preorder_unplaced, List.map_map, lines]

/-- Positions do not matter for whether lines can have their indents. -/
theorem Node.fits_unplaced (n : Node) (indent : Int) : n.unplaced.Fits indent ↔ n.Fits indent := by
  rw [Fits, preorder_unplaced]
  exact List.forall_mem_map

end Mini
