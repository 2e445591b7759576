import Mini.Compilation
import Mini.Proofs.Place
import Mini.Proofs.Reading

/-!
# Where nodes stand

`compile_node_places`: the nodes of a compiled program stand in the text where their own words do. Taken in the order of
their tokens, an assignment before its value and an operation between its operands, they stand one behind the other,
and at the position of each the text goes on with the node's own word: the name of an assignment or of an expression,
the sign of an operation, the digits of a number. The program itself stands where its first node does.

A node of a program is one of its tokens, and only assignment signs are no nodes (`map_place_inOrder`); where tokens stand
is known already, for any rules.
-/

namespace Mini

/-! ## Nodes in order -/

/-- The nodes of an expression in the order of their tokens. -/
def Expr.inOrder : Expr → List Node
  | .number form lexeme position => [.expr (.number form lexeme position)]
  | .name text position => [.expr (.name text position)]
  | .binary left operator right position =>
    left.inOrder ++ .expr (.binary left operator right position) :: right.inOrder

/-- The nodes of an assignment in the order of their tokens. -/
def Assignment.inOrder (a : Assignment) : List Node :=
  .assignment a :: a.value.inOrder

/-- The nodes below a program in the order of their tokens. -/
def Program.inOrder (p : Program) : List Node :=
  p.statements.flatMap Assignment.inOrder

namespace Node

/-- The position of a node. -/
def position : Node → Position
  | .program p => p.position
  | .assignment a => a.position
  | .expr (.number _ _ position) => position
  | .expr (.name _ position) => position
  | .expr (.binary _ _ _ position) => position

/-- The word that a node was made from; a program has none of its own. -/
def text : Node → String
  | .program _ => ""
  | .assignment a => a.name
  | .expr (.number _ lexeme _) => lexeme
  | .expr (.name text _) => text
  | .expr (.binary _ operator _ _) => operator

/-- What a node was made from, and where. -/
def place (n : Node) : String × Position :=
  (n.text, n.position)

end Node

/-- What a token says, and where. -/
def Token.place (t : Token) : String × Position :=
  (t.lexeme, t.position)

/-- The tokens that become nodes: all but the assignment signs. -/
def nodeTokens (tokens : List Token) : List Token :=
  tokens.filter fun t => t.kind ≠ .assignment

/-! ## Nodes are tokens -/

theorem nodeTokens_append (first second : List Token) :
    nodeTokens (first ++ second) = nodeTokens first ++ nodeTokens second :=
  List.filter_append ..

theorem nodeTokens_map_kept (tokens : List Token) : nodeTokens (tokens.map Token.kept) = nodeTokens tokens := by
  induction tokens with
  | nil => rfl
  | cons t rest ih =>
    unfold nodeTokens at ih ⊢
    by_cases isSign : t.kind = .assignment
    · rw [List.map_cons, Token.kept_eq_sign_iff.mpr isSign, List.filter_cons_of_neg (by simp [assignmentSign]),
        List.filter_cons_of_neg (by simp [isSign]), ih]
    · rw [List.map_cons, Token.kept_of_ne isSign, List.filter_cons_of_pos (by simp [isSign]),
        List.filter_cons_of_pos (by simp [isSign]), ih]

theorem Expr.nodeTokens_tokens (e : Expr) : nodeTokens e.tokens = e.tokens :=
  List.filter_eq_self.mpr fun t mem => by simpa using e.kind_ne_of_mem_tokens t mem

theorem Expr.map_place_inOrder (e : Expr) : e.inOrder.map Node.place = e.tokens.map Token.place := by
  induction e with
  | number form lexeme position => rfl
  | name text position => rfl
  | binary left operator right position ihl ihr =>
    rw [inOrder, tokens, List.map_append, List.map_cons, List.map_append, List.map_cons, ihl, ihr]
    rfl

theorem Assignment.map_place_inOrder (a : Assignment) :
    a.inOrder.map Node.place = (nodeTokens a.tokens).map Token.place := by
  have tokens : nodeTokens a.tokens = ⟨.identifier, a.name, a.position⟩ :: nodeTokens a.value.tokens := rfl
  rw [tokens, Expr.nodeTokens_tokens, inOrder, List.map_cons, List.map_cons, Expr.map_place_inOrder]
  rfl

/-- **The nodes below a program are its tokens but the assignment signs, in the same order.** -/
theorem Program.map_place_inOrder (p : Program) : p.inOrder.map Node.place = (nodeTokens p.tokens).map Token.place := by
  obtain ⟨statements, position⟩ := p
  unfold inOrder tokens
  induction statements with
  | nil => rfl
  | cons a rest ih =>
    rw [List.flatMap_cons, List.flatMap_cons, nodeTokens_append, List.map_append, List.map_append, ih,
      Assignment.map_place_inOrder]

/-- A program read from tokens has their words for nodes, and stands where the first of them does. -/
theorem place_of_ofTokens {tokens : List Token} {p : Program} (read : Program.ofTokens tokens = .ok p) :
    p.inOrder.map Node.place = (nodeTokens tokens).map Token.place ∧
      p.position = (p.inOrder.head?.map Node.position).getD .start := by
  have kept : tokens.map Token.kept = p.statements.flatMap Assignment.tokens := (spells_of_ofTokens read).2.symm
  refine ⟨by rw [p.map_place_inOrder, Program.tokens, ← kept, nodeTokens_map_kept], ?_⟩
  rw [(ofTokens_eq_ok_iff.mp read).2, Cursor.programPosition, Program.inOrder]
  cases statementsEq : p.statements with
  | nil =>
    rw [statementsEq] at kept
    rw [List.map_eq_nil_iff.mp kept]
    rfl
  | cons a rest =>
    rw [statementsEq, List.flatMap_cons] at kept
    obtain ⟨sign, more, _, _, rfl⟩ := Grammar.exists_of_map_kept_eq_append kept
    rfl

/-! ## Nodes in the text -/

/-- Whether a word stands at a position of a text: the text goes on with it at the one offset that has the position. -/
def StandsAt (text : List Char) (word : String) (position : Position) : Prop :=
  ∃ offset < text.length, word.toList <+: text.drop offset ∧
    ∀ other ≤ text.length, Position.atOffset text other = position ↔ other = offset

/-- The tokens of a text stand in it. -/
theorem standsAt_of_tokenize {rules : List Rule} {lexer : Lexer} (built : Lexer.ofRules rules = .ok lexer)
    {source : String} {tokens : List Token} (h : lexer.tokenize source = .ok tokens) :
    tokens.Pairwise (fun t u => t.position.Before u.position) ∧
      ∀ t ∈ tokens, StandsAt source.toList t.lexeme t.position := by
  obtain ⟨pieces, final, whole, cut, _, rfl⟩ := (Lexer.tokenize_eq_ok_iff built).mp h
  refine ⟨pairwise_tokensFrom cut .start, fun t mem => ?_⟩
  have places : tokensFrom .start pieces = (located 0 pieces).map (tokenAt source.toList) := by
    rw [whole]
    exact tokensFrom_eq_located [] pieces final
  rw [places] at mem
  obtain ⟨⟨offset, p⟩, memLocated, rfl⟩ := List.mem_map.mp mem
  have front : p.lexeme <+: source.toList.drop offset := by
    rw [whole]
    exact lexeme_of_mem_located [] pieces final memLocated
  have inside : offset < source.toList.length := by
    obtain ⟨_, next⟩ := cut.exists_nextToken p (mem_of_mem_located memLocated)
    have nonempty := List.length_pos_iff.mpr next.ne_nil
    have longer := front.length_le
    rw [List.length_drop] at longer
    omega
  refine ⟨offset, inside, ?_, fun other insideOther => ?_⟩
  · rw [tokenAt, String.toList_ofList]
    exact front
  · exact Position.atOffset_inj insideOther (Nat.le_of_lt inside)

/-- **Positions of nodes are faithful to the text.** The nodes of a compiled program, in the order of their tokens, stand
one behind the other, so no two of them have one position; each stands where the text goes on with its own word; and
the program stands where the first of them does, or at the start when there is none. -/
theorem compile_node_places {rules : List Rule} {source : String} {compilation : Compilation}
    (compiled : compileWith rules source = .ok compilation) :
    compilation.program.inOrder.Pairwise (fun m n => m.position.Before n.position) ∧
      (compilation.program.inOrder.map Node.position).Nodup ∧
      (∀ n ∈ compilation.program.inOrder, StandsAt source.toList n.text n.position) ∧
      compilation.program.position = (compilation.program.inOrder.head?.map Node.position).getD ⟨1, 1⟩ := by
  obtain ⟨lexer, built, cut, read⟩ := compileWith_eq_ok_iff.mp compiled
  obtain ⟨forward, stand⟩ := standsAt_of_tokenize built cut
  obtain ⟨places, position⟩ := place_of_ofTokens read
  have ordered : compilation.program.inOrder.Pairwise fun m n => m.position.Before n.position := by
    have tokensForward : ((nodeTokens compilation.tokens).map Token.place).Pairwise fun a b => a.2.Before b.2 :=
      List.pairwise_map.mpr (forward.sublist List.filter_sublist)
    rw [← places, List.pairwise_map] at tokensForward
    exact tokensForward
  refine ⟨ordered, List.pairwise_map.mpr (ordered.imp Position.Before.ne), fun n mem => ?_, position⟩
  have memPlaces : n.place ∈ (nodeTokens compilation.tokens).map Token.place := by
    rw [← places]
    exact List.mem_map_of_mem mem
  obtain ⟨t, memTokens, same⟩ := List.mem_map.mp memPlaces
  have := stand t (List.mem_filter.mp memTokens).1
  rwa [show t.lexeme = n.text from congrArg Prod.fst same,
    show t.position = n.position from congrArg Prod.snd same] at this

/-- A power across lines: each operation stands where its own sign does. -/
theorem compile_node_places_across_lines :
    let names : Automaton := .ofEdges "s" ["t"] [(("s", "x"), "t"), (("s", "y"), "t")]
    let signs : Automaton := .ofEdges "s" ["t"] [(("s", "^"), "t")]
    let assignments : Automaton := .ofEdges "s" ["t"] [(("s", "="), "t")]
    let rules : List Rule := [⟨.identifier, .ok names, 3⟩, ⟨.operator, .ok signs, 2⟩, ⟨.assignment, .ok assignments, 1⟩]
    ∃ compilation, compileWith rules " x =x\n ^y^\nx" = .ok compilation ∧
      compilation.program.inOrder.map Node.place =
        [("x", ⟨1, 2⟩), ("x", ⟨1, 5⟩), ("^", ⟨2, 2⟩), ("y", ⟨2, 3⟩), ("^", ⟨2, 4⟩), ("x", ⟨3, 1⟩)] ∧
      (compilation.program.inOrder.map Node.position).Nodup ∧
      ∀ n ∈ compilation.program.inOrder, StandsAt " x =x\n ^y^\nx".toList n.text n.position := by
  intro names signs assignments rules
  let source := " x =x\n ^y^\nx"
  let tokens : List Token := [⟨.identifier, "x", ⟨1, 2⟩⟩, ⟨.assignment, "=", ⟨1, 4⟩⟩, ⟨.identifier, "x", ⟨1, 5⟩⟩,
    ⟨.operator, "^", ⟨2, 2⟩⟩, ⟨.identifier, "y", ⟨2, 3⟩⟩, ⟨.operator, "^", ⟨2, 4⟩⟩, ⟨.identifier, "x", ⟨3, 1⟩⟩]
  let program : Program := ⟨[⟨"x", .binary (.name "x" ⟨1, 5⟩) "^"
    (.binary (.name "y" ⟨2, 3⟩) "^" (.name "x" ⟨3, 1⟩) ⟨2, 4⟩) ⟨2, 2⟩, ⟨1, 2⟩⟩], ⟨1, 2⟩⟩
  let lexer : Lexer := ⟨[⟨.identifier, names⟩, ⟨.operator, signs⟩, ⟨.assignment, assignments⟩]⟩
  have built : Lexer.ofRules rules = .ok lexer := rfl
  have scanned : lexer.scan source = ⟨tokens, none⟩ := by decide +kernel
  have cut : lexer.tokenize source = .ok tokens := by rw [Lexer.tokenize, scanned]
  have read : Program.ofTokens tokens = .ok program := by
    refine ofTokens_eq_ok_iff.mpr ⟨Grammar.statementsFrom_eq_ok_iff.mpr ⟨program.statements, rfl, ?_, rfl⟩, rfl⟩
    decide
  have compiled : compileWith rules source = .ok ⟨tokens, program⟩ :=
    compileWith_eq_ok_iff.mpr ⟨lexer, built, cut, read⟩
  obtain ⟨_, distinct, stand, _⟩ := compile_node_places compiled
  exact ⟨_, compiled, rfl, distinct, stand⟩

end Mini
