import Mini.Proofs.Level
import Mini.Syntax.Cursor

/-!
# Chains that group from the right

`Cursor.read_power_recursive`: a power is read by collecting operands and operators as long as there are any, and joining
them afterwards. At every cursor this has the outcome, and leaves the cursor, that the recursion

    power := operand ('^' power)?

has, in which an operand followed by the sign is joined to what the recursion reads behind it.

What carries this is that a chain goes on behind an operator as a chain of its own would from there
(`Production.read_groupRight_more`): what was found stays in front of what is still found (`links_append`), and grouped
from the right it encloses it. That the operands can be joined on a stack, one operator after another from the last on,
with the power alone left over, holds of every chain (`Chain.unstack_eq`).
-/

namespace Mini

/-! ## The chain behind an operator -/

namespace Production

variable {operand : Production Expr} {signs : List String} {operator : Token} {tokens rest more : List Token} {base : Expr}

/-- **What was found stays in front of what is still found**, and does not decide what that is. -/
theorem links_append (operand : Production Expr) (signs : List String) (near far : List (Token × Expr))
    (tokens : List Token) :
    operand.links signs (near ++ far) tokens =
      (operand.links signs near tokens).map fun (links, rest) => (far.reverse ++ links, rest) := by
  fun_induction operand.links signs near tokens with
  | case1 near =>
    rw [links_nil, List.reverse_append]
    rfl
  | case2 near token rest isOperator failure next =>
    rw [links_error isOperator next]
    rfl
  | case3 near token rest isOperator value after next ih =>
    rw [links_ok isOperator next, ← List.cons_append, ih]
  | case4 near token rest notOperator =>
    rw [links_stop (Bool.eq_false_iff.mpr notOperator), List.reverse_append]
    rfl

theorem read_groupRight_error {failure : Failure} (read : operand.read tokens = .error failure) :
    ((operand.chain signs).map Chain.groupRight).read tokens = .error failure := by
  rw [read_map, read_chain_error read]
  rfl

/-- An operand with no operator behind it is the whole chain. -/
theorem read_groupRight_stop (read : operand.read tokens = .ok (base, rest)) (stops : Stops signs rest) :
    ((operand.chain signs).map Chain.groupRight).read tokens = .ok (base, rest) := by
  have alone : operand.links signs [] rest = .ok ([], rest) := by
    cases rest with
    | nil => exact links_nil operand signs []
    | cons token rest => exact links_stop (stops_cons_iff.mp stops) [] rest
  rw [read_map, read_chain_ok read, alone]
  rfl

/-- **An operand with an operator behind it is joined to the chain that begins there**, or fails as that chain does. -/
theorem read_groupRight_more (read : operand.read tokens = .ok (base, operator :: more))
    (sign : operator.isOperator signs = true) :
    ((operand.chain signs).map Chain.groupRight).read tokens =
      (((operand.chain signs).map Chain.groupRight).read more).map fun (exponent, rest) =>
        (base.join operator exponent, rest) := by
  rw [read_map, read_map, read_chain_ok read]
  cases next : operand.read more with
  | error failure =>
    rw [links_error sign next, read_chain_error next]
    rfl
  | ok found =>
    obtain ⟨value, after⟩ := found
    -- the first link is found already, and stays in front of those behind it
    rw [links_ok sign next, read_chain_ok next, ← List.nil_append [(operator, value)], links_append]
    cases operand.links signs [] after <;> rfl

end Production

/-! ## Operands on a stack -/

/-- The two operands on top of a stack joined by an operator. The last operand is the topmost, so it stands on the
right. -/
def joinTop : List Expr → Token → Option (List Expr)
  | result :: base :: operands, operator => some (base.join operator result :: operands)
  | _, _ => none

namespace Chain

/-- The operands of a chain, in order. -/
def operands (chain : Chain) : List Expr :=
  chain.first :: chain.links.map Prod.snd

/-- The operators of a chain, in order. -/
def operators (chain : Chain) : List Token :=
  chain.links.map Prod.fst

/-- What is left on a stack of all operands when each operator, from the last on, has joined the two on top of it;
nothing, if an operator finds fewer than two. -/
def unstack (chain : Chain) : Option (List Expr) :=
  chain.operators.reverse.foldlM joinTop chain.operands.reverse

/-- Operands that lie deeper stay as they are. The links behind the first operand leave one expression on top of it,
which the first operator joins to it. -/
theorem foldlM_joinTop (first : Expr) (links : List (Token × Expr)) (deeper : List Expr) :
    (links.map Prod.fst).reverse.foldlM joinTop ((first :: links.map Prod.snd).reverse ++ deeper) =
      some (groupRightFrom first links :: deeper) := by
  induction links generalizing first deeper with
  | nil => rfl
  | cons link links ih =>
    obtain ⟨operator, next⟩ := link
    have above := ih next (first :: deeper)
    have operands : (first :: next :: links.map Prod.snd).reverse ++ deeper =
        (next :: links.map Prod.snd).reverse ++ first :: deeper := by
      rw [List.reverse_cons, List.append_assoc, List.singleton_append]
    have operators : (operator :: links.map Prod.fst).reverse = (links.map Prod.fst).reverse ++ [operator] :=
      List.reverse_cons
    rw [List.map_cons, List.map_cons, operands, operators, List.foldlM_append, above]
    rfl

/-- **The stack has an operand for each operator and one more**, and what is left on it is the chain grouped from the
right. -/
theorem unstack_eq (chain : Chain) : chain.unstack = some [chain.groupRight] := by
  have bottom := foldlM_joinTop chain.first chain.links []
  rwa [List.append_nil] at bottom

example (a b c : Expr) (s t : Token) : (Chain.mk a [(s, b), (t, c)]).unstack = some [a.join s (b.join t c)] := rfl

end Chain

/-! ## The recursion -/

namespace Cursor

variable {operand : Production Expr} {signs : List String} {cursor after : Cursor}

/-- The cursor behind the next token. -/
def pass (cursor : Cursor) : Cursor :=
  { cursor with consumed := cursor.consumed + 1 }

theorem rest_pass (cursor : Cursor) : cursor.pass.rest = cursor.rest.tail :=
  List.tail_drop.symm

theorem pass_leaving {operator : Token} {more : List Token} (ending : operator :: more <:+ cursor.rest) :
    (cursor.leaving (operator :: more)).pass = cursor.leaving more := by
  have shorter : more.length + 1 ≤ cursor.tokens.length :=
    (ending.trans (List.drop_suffix cursor.consumed cursor.tokens)).length_le
  have place : cursor.tokens.length - (more.length + 1) + 1 = cursor.tokens.length - more.length := by omega
  exact congrArg (Cursor.mk cursor.tokens) place

theorem exists_of_read_ok {α : Type} {p : Production α} {value : α} (h : cursor.read p = (.ok value, after)) :
    ∃ rest, p.read cursor.rest = .ok (value, rest) ∧ after = cursor.leaving rest := by
  cases read : p.read cursor.rest with
  | error failure =>
    rw [read_error read] at h
    cases h
  | ok found =>
    rw [read_ok read] at h
    cases h
    exact ⟨found.2, rfl, rfl⟩

theorem exists_of_read_error {α : Type} {p : Production α} {error : ParseError}
    (h : cursor.read p = (.error error, after)) :
    ∃ failure, p.read cursor.rest = .error failure ∧
      error = cursor.blame failure ∧ after = cursor.leaving failure.rest := by
  cases read : p.read cursor.rest with
  | error failure =>
    rw [read_error read] at h
    cases h
    exact ⟨failure, rfl, rfl, rfl⟩
  | ok found =>
    rw [read_ok read] at h
    cases h

theorem length_rest_lt {α : Type} {p : Production α} {value : α} (h : cursor.read p = (.ok value, after)) :
    after.rest.length < cursor.rest.length := by
  obtain ⟨rest, read, rfl⟩ := exists_of_read_ok h
  rw [rest_leaving (p.suffix read)]
  exact p.length_lt read

/-- A level that refers to itself, `level := operand (sign level)?`: an operand, and if an operator comes next, that
operator and the level again. The operator joins the operand to all that the level was behind it. -/
def readRight (operand : Production Expr) (signs : List String) (cursor : Cursor) : Except ParseError Expr × Cursor :=
  match _ : cursor.read operand with
  | (.error error, after) => (.error error, after)
  | (.ok base, after) =>
    match after.rest with
    | [] => (.ok base, after)
    | operator :: _ =>
      if operator.isOperator signs then
        let (exponent, last) := after.pass.readRight operand signs
        (exponent.map (base.join operator), last)
      else
        (.ok base, after)
  termination_by cursor.rest.length
  decreasing_by
    have fewer := length_rest_lt ‹_›
    rw [rest_pass, List.length_tail]
    omega

/-- What is read behind an operator is joined to the operand before it. -/
theorem read_groupRight_more {base : Expr} {operator : Token} {more : List Token}
    {exponent : Except ParseError Expr} {last : Cursor}
    (found : operand.read cursor.rest = .ok (base, operator :: more)) (sign : operator.isOperator signs = true)
    (deeper : (cursor.leaving more).read ((operand.chain signs).map Chain.groupRight) = (exponent, last)) :
    cursor.read ((operand.chain signs).map Chain.groupRight) = (exponent.map (base.join operator), last) := by
  have there : (cursor.leaving more).rest = more :=
    rest_leaving ((List.suffix_cons operator more).trans (operand.suffix found))
  have whole := Production.read_groupRight_more found sign
  cases behind : ((operand.chain signs).map Chain.groupRight).read more with
  | error failure =>
    rw [read_error (there.symm ▸ behind)] at deeper
    cases deeper
    rw [behind] at whole
    exact read_error whole
  | ok result =>
    rw [read_ok (there.symm ▸ behind)] at deeper
    cases deeper
    rw [behind] at whole
    exact read_ok whole

/-- **A chain grouped from the right is read as the level that refers to itself is**: the same expression or the same
error, and the same cursor behind it. -/
theorem read_groupRight (operand : Production Expr) (signs : List String) (cursor : Cursor) :
    cursor.read ((operand.chain signs).map Chain.groupRight) = cursor.readRight operand signs := by
  fun_induction readRight operand signs cursor with
  | case1 cursor error after read =>
    obtain ⟨failure, failed, rfl, rfl⟩ := exists_of_read_error read
    exact read_error (Production.read_groupRight_error failed)
  | case2 cursor base after read ending =>
    obtain ⟨rest, found, rfl⟩ := exists_of_read_ok read
    rw [rest_leaving (operand.suffix found)] at ending
    exact read_ok (Production.read_groupRight_stop found (ending ▸ stops_nil signs))
  | case3 cursor base after read operator more next sign exponent last deeper ih =>
    obtain ⟨rest, found, rfl⟩ := exists_of_read_ok read
    rw [rest_leaving (operand.suffix found)] at next
    subst next
    have ending : operator :: more <:+ cursor.rest := operand.suffix found
    rw [deeper, pass_leaving ending] at ih
    exact read_groupRight_more found sign ih
  | case4 cursor base after read operator more next other =>
    obtain ⟨rest, found, rfl⟩ := exists_of_read_ok read
    rw [rest_leaving (operand.suffix found)] at next
    subst next
    exact read_ok (Production.read_groupRight_stop found (stops_cons_iff.mpr (Bool.eq_false_iff.mpr other)))

theorem read_map {α β : Type} (f : α → β) (p : Production α) (cursor : Cursor) :
    cursor.read (p.map f) = ((cursor.read p).1.map f, (cursor.read p).2) := by
  have mapped := Production.read_map f p cursor.rest
  cases read : p.read cursor.rest with
  | error failure =>
    rw [read] at mapped
    rw [read_error read, read_error mapped]
    rfl
  | ok result =>
    rw [read] at mapped
    rw [read_ok read, read_ok mapped]
    rfl

/-- **A power is read as the recursion `power := operand ('^' power)?` reads it**, at every cursor: the same expression or
the same error, and the same cursor behind it. The same comes of taking the operands off a stack, an operator at a time
from the last on: they never run out, and nothing but the power is left over. -/
theorem read_power_recursive (cursor : Cursor) :
    cursor.read Grammar.power = cursor.readRight Grammar.operand ["^"] ∧
      cursor.read ((Grammar.operand.chain ["^"]).map Chain.unstack) =
        ((cursor.readRight Grammar.operand ["^"]).1.map fun power => some [power],
          (cursor.readRight Grammar.operand ["^"]).2) := by
  have whole := read_groupRight Grammar.operand ["^"] cursor
  refine ⟨whole, ?_⟩
  rw [← whole, read_map, read_map, funext Chain.unstack_eq]
  cases (cursor.read (Grammar.operand.chain ["^"])).1 <;> rfl

end Cursor

end Mini
