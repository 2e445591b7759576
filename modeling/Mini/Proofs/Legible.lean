import Mini.Proofs.Layout
import Mini.Proofs.Preorder
import Mini.Proofs.RoundTrip

/-!
# Outlines can be read back

`outline_legible`: an outline shows all of a tree but its positions. At every indent, trees whose words stay on their
lines have the same outline only if they differ in positions alone; and two texts compile to programs with the same
outline only if they have the same words. At an indent that is no index nothing has an outline (`outlineAt_beyond_index`).

An outline is read back in three steps. Its lines are told apart, since none has a line feed in it. The label of a line
is what follows the spaces, and it is known by its first two letters, so that a word cannot be taken for anything else,
whatever stands in it (`Node.caption_eq_of_line_eq`). From the labels alone the tree is put together again: each says
how many trees follow below it, and where one of them ends the next begins (`Expr.unplaced_eq_of_captions`). Indents are
not needed for this, so it does not matter that indents below zero leave no trace.
-/

namespace Mini

/-! ## What labels say -/

/-- What the label of a node says besides its word. -/
inductive Heading where
  | program
  | assignment
  | integer
  | real
  | name
  | operation
  deriving DecidableEq

namespace Heading

/-- What stands before the word. -/
def opening : Heading → String
  | .program => "Program"
  | .assignment => "Assignment: "
  | .integer => "IntegerLiteral: "
  | .real => "RealLiteral: "
  | .name => "IdentifierExpr: "
  | .operation => "BinaryExpr '"

/-- What stands behind the word. -/
def closing : Heading → String
  | .operation => "'"
  | .program | .assignment | .integer | .real | .name => ""

/-- The two letters that a label begins with. -/
def initials : Heading → Char × Char
  | .program => ('P', 'r')
  | .assignment => ('A', 's')
  | .integer => ('I', 'n')
  | .real => ('R', 'e')
  | .name => ('I', 'd')
  | .operation => ('B', 'i')

theorem exists_opening_eq (heading : Heading) :
    ∃ rest, heading.opening.toList = heading.initials.1 :: heading.initials.2 :: rest := by
  cases heading <;> exact ⟨_, rfl⟩

theorem initials_inj {first second : Heading} (same : first.initials = second.initials) : first = second := by
  cases first <;> cases second <;> first | rfl | exact absurd same (by decide)

/-- No label begins with a space. -/
theorem initials_ne_space (heading : Heading) : heading.initials.1 ≠ ' ' := by
  cases heading <;> decide

/-- **A heading is known by what stands before the word**, whatever follows. -/
theorem opening_inj {first second : Heading} {rest other : List Char}
    (same : first.opening.toList ++ rest = second.opening.toList ++ other) : first = second ∧ rest = other := by
  obtain ⟨more, opening⟩ := first.exists_opening_eq
  obtain ⟨moreSecond, openingSecond⟩ := second.exists_opening_eq
  have letters := same
  rw [opening, openingSecond] at letters
  obtain ⟨letter, letters⟩ := List.cons.inj letters
  obtain rfl := initials_inj (Prod.ext letter (List.cons.inj letters).1)
  exact ⟨rfl, List.append_cancel_left same⟩

theorem newline_not_mem_opening (heading : Heading) : '\n' ∉ heading.opening.toList := by
  cases heading <;> decide

theorem newline_not_mem_closing (heading : Heading) : '\n' ∉ heading.closing.toList := by
  cases heading <;> decide

end Heading

namespace Node

variable {n m : Node}

/-- What the label of a node says besides the word of the node. -/
def heading : Node → Heading
  | .program _ => .program
  | .assignment _ => .assignment
  | .expr (.number .integer _ _) => .integer
  | .expr (.number .real _ _) => .real
  | .expr (.name _ _) => .name
  | .expr (.binary _ _ _ _) => .operation

/-- All that the label of a node says. -/
def caption (n : Node) : Heading × String :=
  (n.heading, n.text)

theorem label_eq (n : Node) : n.label = n.heading.opening ++ n.text ++ n.heading.closing := by
  match n with
  | .program p => rfl
  | .assignment a => exact String.append_empty.symm
  | .expr (.number .integer ..) => exact String.append_empty.symm
  | .expr (.number .real ..) => exact String.append_empty.symm
  | .expr (.name ..) => exact String.append_empty.symm
  | .expr (.binary ..) => rfl

theorem toList_label (n : Node) :
    n.label.toList = n.heading.opening.toList ++ (n.text.toList ++ n.heading.closing.toList) := by
  rw [label_eq, String.toList_append, String.toList_append, List.append_assoc]

theorem caption_eq_of_label_eq (same : n.label = m.label) : n.caption = m.caption := by
  rw [← String.toList_inj, toList_label, toList_label] at same
  obtain ⟨heading, words⟩ := Heading.opening_inj same
  rw [heading] at words
  exact Prod.ext heading (String.toList_inj.mp (List.append_cancel_right words))

/-! ## What lines say -/

theorem toList_line (indent : Int) (n : Node) :
    (n.line indent).toList = List.replicate indent.toNat ' ' ++ n.label.toList := by
  rw [line, String.toList_append, String.toList_ofList]

/-- The label of a line is what follows the spaces. -/
theorem dropWhile_line (indent : Int) (n : Node) :
    (n.line indent).toList.dropWhile (fun c => c = ' ') = n.label.toList := by
  obtain ⟨rest, opening⟩ := n.heading.exists_opening_eq
  have spaces : ∀ d ∈ List.replicate indent.toNat ' ', decide (d = ' ') = true := fun d mem =>
    decide_eq_true (List.eq_of_mem_replicate mem)
  rw [toList_line, List.dropWhile_append_of_pos spaces, toList_label, opening, List.cons_append,
    List.dropWhile_cons_of_neg (by simpa using n.heading.initials_ne_space)]

/-- **A line says which label it has**, also if the indents are not known. -/
theorem caption_eq_of_line_eq {indent other : Int} (same : n.line indent = m.line other) : n.caption = m.caption := by
  refine caption_eq_of_label_eq (String.toList_inj.mp ?_)
  rw [← dropWhile_line indent, ← dropWhile_line other, same]

/-- A node with a word that stays on its line has a line that does. -/
theorem newline_not_mem_line (unbroken : '\n' ∉ n.text.toList) (indent : Int) : '\n' ∉ (n.line indent).toList := by
  have space : '\n' ≠ ' ' := by decide
  rw [toList_line, toList_label, List.mem_append, List.mem_append, List.mem_append]
  rintro (spaces | opening | word | closing)
  · exact space (List.eq_of_mem_replicate spaces)
  · exact n.heading.newline_not_mem_opening opening
  · exact unbroken word
  · exact n.heading.newline_not_mem_closing closing

/-- Whether all words of a tree, its names, numbers and operators, stay on their lines. -/
def IsUnbroken (n : Node) : Prop :=
  ∀ placed ∈ n.preorder 0, '\n' ∉ placed.2.text.toList

instance (n : Node) : Decidable n.IsUnbroken :=
  inferInstanceAs (Decidable (∀ placed ∈ n.preorder 0, '\n' ∉ placed.2.text.toList))

end Node

/-! ## From labels to trees -/

/-- What the labels of nodes say. -/
def captions (nodes : List (Nat × Node)) : List (Heading × String) :=
  nodes.map fun placed => placed.2.caption

theorem captions_append (first second : List (Nat × Node)) :
    captions (first ++ second) = captions first ++ captions second :=
  List.map_append

theorem captions_eq_of_map_lineAt_eq {indent : Int} {first second : List (Nat × Node)}
    (same : first.map (lineAt indent) = second.map (lineAt indent)) : captions first = captions second := by
  induction first generalizing second with
  | nil =>
    obtain rfl := List.map_eq_nil_iff.mp same.symm
    rfl
  | cons placed rest ih =>
    obtain ⟨other, more, rfl, line, lines⟩ := List.map_eq_cons_iff.mp same.symm
    exact List.cons_eq_cons.mpr ⟨Node.caption_eq_of_line_eq line.symm, ih lines.symm⟩

variable {level depth : Nat} {rest other : List (Heading × String)}

theorem Expr.captions_preorder_binary (left : Expr) (operator : String) (right : Expr) (position : Position) :
    captions ((Expr.binary left operator right position).preorder level) ++ rest =
      (.operation, operator) :: (captions (left.preorder (level + 1)) ++ (captions (right.preorder (level + 1)) ++ rest)) := by
  rw [← List.append_assoc, ← captions_append]
  rfl

/-- **Where the labels of an expression end is said by the labels themselves**, and they say which expression it is. -/
theorem Expr.unplaced_eq_of_captions {e f : Expr}
    (same : captions (e.preorder level) ++ rest = captions (f.preorder depth) ++ other) :
    e.unplaced = f.unplaced ∧ rest = other := by
  -- Levels and what follows differ from operand to operand; the first label decides which constructor both trees have.
  induction e generalizing f level depth rest other with
  | number form lexeme position =>
    cases f with
    | number formF lexemeF positionF =>
      obtain ⟨root, behind⟩ := List.cons.inj same
      cases form <;> cases formF <;> cases root
      · exact ⟨rfl, behind⟩
      · exact ⟨rfl, behind⟩
    | name text place => cases form <;> cases same
    | binary left operator right place => cases form <;> cases same
  | name text position =>
    cases f with
    | number form lexeme place => cases form <;> cases same
    | name textF place =>
      cases same
      exact ⟨rfl, rfl⟩
    | binary left operator right place => cases same
  | binary left operator right position ihl ihr =>
    cases f with
    | number form lexeme place => cases form <;> cases same
    | name text place => cases same
    | binary leftF operatorF rightF place =>
      rw [captions_preorder_binary, captions_preorder_binary] at same
      obtain ⟨root, behind⟩ := List.cons.inj same
      cases root
      obtain ⟨lefts, behind⟩ := ihl behind
      obtain ⟨rights, behind⟩ := ihr behind
      rw [unplaced, unplaced, lefts, rights]
      exact ⟨rfl, behind⟩

theorem Assignment.unplaced_eq_of_captions {a b : Assignment}
    (same : captions (a.preorder level) ++ rest = captions (b.preorder depth) ++ other) :
    a.unplaced = b.unplaced ∧ rest = other := by
  obtain ⟨root, behind⟩ := List.cons.inj same
  obtain ⟨values, behind⟩ := Expr.unplaced_eq_of_captions behind
  rw [unplaced, unplaced, values, show a.name = b.name from congrArg Prod.snd root]
  exact ⟨rfl, behind⟩

/-- Nothing follows the last statement, so the labels say how many there are. -/
theorem map_unplaced_eq_of_captions {statements others : List Assignment}
    (same : captions (statements.flatMap (Assignment.preorder level)) =
      captions (others.flatMap (Assignment.preorder depth))) :
    statements.map Assignment.unplaced = others.map Assignment.unplaced := by
  induction statements generalizing others with
  | nil =>
    cases others with
    | nil => rfl
    | cons b more => cases same
  | cons a rest ih =>
    cases others with
    | nil => cases same
    | cons b more =>
      rw [List.flatMap_cons, List.flatMap_cons, captions_append, captions_append] at same
      obtain ⟨first, behind⟩ := Assignment.unplaced_eq_of_captions same
      rw [List.map_cons, List.map_cons, first, ih behind]

theorem Expr.heading_ne (e : Expr) :
    (Node.expr e).heading ≠ .program ∧ (Node.expr e).heading ≠ .assignment := by
  cases e with
  | number form lexeme position => cases form <;> exact ⟨Heading.noConfusion, Heading.noConfusion⟩
  | name text position => exact ⟨Heading.noConfusion, Heading.noConfusion⟩
  | binary left operator right position => exact ⟨Heading.noConfusion, Heading.noConfusion⟩

/-- **The labels of a tree say which tree it is**, up to positions. -/
theorem Node.unplaced_eq_of_captions {first second : Node}
    (same : captions (first.preorder level) = captions (second.preorder depth)) : first.unplaced = second.unplaced := by
  have root : first.heading = second.heading := by
    rw [first.preorder_eq, second.preorder_eq] at same
    exact congrArg Prod.fst (List.cons.inj same).1
  have ended := congrArg (· ++ []) same
  match first, second with
  | .program p, .program q =>
    have statements := map_unplaced_eq_of_captions (List.cons.inj same).2
    exact congrArg (fun statements => Node.program ⟨statements, .start⟩) statements
  | .assignment a, .assignment b => exact congrArg Node.assignment (Assignment.unplaced_eq_of_captions ended).1
  | .expr e, .expr f => exact congrArg Node.expr (Expr.unplaced_eq_of_captions ended).1
  | .program p, .assignment b => cases root
  | .assignment a, .program q => cases root
  | .program p, .expr f => exact absurd root.symm f.heading_ne.1
  | .assignment a, .expr f => exact absurd root.symm f.heading_ne.2
  | .expr e, .program q => exact absurd root e.heading_ne.1
  | .expr e, .assignment b => exact absurd root e.heading_ne.2

/-! ## From outlines to trees -/

/-- Lines without line feeds are told apart by line feeds between them. -/
theorem eq_of_intercalate_eq {first second : List String} (unbroken : ∀ line ∈ first, '\n' ∉ line.toList)
    (unbrokenSecond : ∀ line ∈ second, '\n' ∉ line.toList) (some : first ≠ []) (someSecond : second ≠ [])
    (same : "\n".intercalate first = "\n".intercalate second) : first = second := by
  have newline : "\n".toList = ['\n'] := rfl
  rw [← String.toList_inj, String.toList_intercalate, String.toList_intercalate, newline] at same
  have lines := congrArg (List.splitOn '\n') same
  rw [List.splitOn_intercalate _ (List.forall_mem_map.mpr unbroken) (by simpa using some),
    List.splitOn_intercalate _ (List.forall_mem_map.mpr unbrokenSecond) (by simpa using someSecond)] at lines
  exact (List.map_inj_right fun _ _ => String.toList_inj.mp).mp lines

/-- **Unbroken trees have the same outline exactly when they are the same tree, up to positions.** -/
theorem Node.outline_eq_iff {first second : Node} (unbroken : first.IsUnbroken) (unbrokenSecond : second.IsUnbroken)
    (indent : Int) : first.outline indent = second.outline indent ↔ first.unplaced = second.unplaced := by
  refine ⟨fun same => ?_, fun same => ?_⟩
  · have lines : ∀ n : Node, n.IsUnbroken → ∀ line ∈ (n.preorder 0).map (lineAt indent), '\n' ∉ line.toList := by
      intro n unbroken
      exact List.forall_mem_map.mpr fun placed mem => newline_not_mem_line (unbroken placed mem) _
    have some : ∀ n : Node, (n.preorder 0).map (lineAt indent) ≠ [] := by
      intro n
      rw [n.preorder_eq]
      exact List.cons_ne_nil _ _
    rw [outline_eq, outline_eq] at same
    exact unplaced_eq_of_captions (captions_eq_of_map_lineAt_eq
      (eq_of_intercalate_eq (lines first unbroken) (lines second unbrokenSecond) (some first) (some second) same))
  · rw [← first.outline_unplaced, same, second.outline_unplaced]

/-- Where one of two unbroken trees has an outline, the other has the same one exactly when it is the same tree, up to
positions. -/
theorem Node.outlineAt_eq_iff {first second : Node} (unbroken : first.IsUnbroken) (unbrokenSecond : second.IsUnbroken)
    {indent : Int} {text : String} (shown : first.outlineAt indent = .ok text) :
    second.outlineAt indent = .ok text ↔ first.unplaced = second.unplaced := by
  obtain ⟨fits, rfl⟩ := outlineAt_eq_ok_iff.mp shown
  rw [outlineAt_eq_ok_iff, eq_comm, outline_eq_iff unbroken unbrokenSecond]
  refine ⟨fun h => h.2, fun same => ⟨?_, same⟩⟩
  rwa [← second.fits_unplaced, ← same, first.fits_unplaced]

/-! ## Outlines of programs -/

/-- The words of nodes are lexemes of their tokens. -/
theorem Expr.exists_token_of_mem_preorder {e : Expr} {level : Nat} {placed : Nat × Node} (mem : placed ∈ e.preorder level) :
    ∃ t ∈ e.tokens, t.lexeme = placed.2.text := by
  induction e generalizing level with
  | number form lexeme position =>
    obtain rfl := List.mem_singleton.mp mem
    exact ⟨_, List.mem_singleton.mpr rfl, rfl⟩
  | name text position =>
    obtain rfl := List.mem_singleton.mp mem
    exact ⟨_, List.mem_singleton.mpr rfl, rfl⟩
  | binary left operator right position ihl ihr =>
    rw [preorder, List.mem_cons, List.mem_append] at mem
    rcases mem with rfl | mem | mem
    · exact ⟨⟨.operator, operator, position⟩, List.mem_append_right _ List.mem_cons_self, rfl⟩
    · obtain ⟨t, memTokens, lexeme⟩ := ihl mem
      exact ⟨t, List.mem_append_left _ memTokens, lexeme⟩
    · obtain ⟨t, memTokens, lexeme⟩ := ihr mem
      exact ⟨t, List.mem_append_right _ (List.mem_cons_of_mem _ memTokens), lexeme⟩

theorem Assignment.exists_token_of_mem_preorder {a : Assignment} {level : Nat} {placed : Nat × Node}
    (mem : placed ∈ a.preorder level) : ∃ t ∈ a.tokens, t.lexeme = placed.2.text := by
  rcases List.mem_cons.mp mem with rfl | mem
  · exact ⟨_, List.mem_cons_self, rfl⟩
  · obtain ⟨t, memTokens, lexeme⟩ := Expr.exists_token_of_mem_preorder mem
    exact ⟨t, List.mem_cons_of_mem _ (List.mem_cons_of_mem _ memTokens), lexeme⟩

/-- The words in a program are lexemes of its tokens; the program itself has no word. -/
theorem Program.exists_token_of_mem_preorder {p : Program} {placed : Nat × Node}
    (mem : placed ∈ (Node.program p).preorder 0) : placed.2.text = "" ∨ ∃ t ∈ p.tokens, t.lexeme = placed.2.text := by
  rcases List.mem_cons.mp mem with rfl | mem
  · exact .inl rfl
  · obtain ⟨a, memStatement, mem⟩ := List.mem_flatMap.mp mem
    obtain ⟨t, memTokens, lexeme⟩ := Assignment.exists_token_of_mem_preorder mem
    exact .inr ⟨t, List.mem_flatMap.mpr ⟨a, memStatement, memTokens⟩, lexeme⟩

/-- Words of the language stay on their lines. -/
theorem Token.IsWritten.newline_not_mem {t : Token} (written : t.IsWritten) : '\n' ∉ t.lexeme.toList := by
  have next : NextToken Rule.standard (t.lexeme.toList ++ []) t.kind t.lexeme.toList :=
    nextToken_of_isWord written <| by
      intro c mem
      cases mem
  intro mem
  cases next.isBlank_eq_false Rule.leavesBlanks_of_mem_standard '\n' mem

/-- **Programs of source texts are unbroken.** -/
theorem Program.WellFormed.isUnbroken {p : Program} (h : p.WellFormed) : (Node.program p).IsUnbroken := by
  have written := (Program.wellFormed_iff.mp h).2
  intro placed mem
  rcases Program.exists_token_of_mem_preorder mem with empty | ⟨t, memTokens, lexeme⟩
  · rw [empty]
    exact List.not_mem_nil
  · rw [← lexeme]
    exact (written t memTokens).newline_not_mem

theorem Expr.map_word_tokens_unplaced (e : Expr) : e.unplaced.tokens.map Token.word = e.tokens.map Token.word := by
  induction e with
  | number form lexeme position => rfl
  | name text position => rfl
  | binary left operator right position ihl ihr =>
    rw [unplaced, tokens, tokens, List.map_append, List.map_append, List.map_cons, List.map_cons, ihl, ihr]
    rfl

/-- Positions do not show in the words of a program. -/
theorem Program.map_word_tokens_unplaced (p : Program) :
    p.unplaced.tokens.map Token.word = p.tokens.map Token.word := by
  have statement : ∀ a : Assignment, a.unplaced.tokens.map Token.word = a.tokens.map Token.word := fun a =>
    congrArg (List.cons _ <| List.cons _ ·) a.value.map_word_tokens_unplaced
  rw [unplaced, tokens, tokens, List.flatMap_map, List.map_flatMap, List.map_flatMap]
  exact congrArg (p.statements.flatMap ·) (funext statement)

/-- What a text compiles to has its words: all that a tree does not keep is that an assignment sign is one. -/
theorem map_word_tokens_of_compile {source : String} {compilation : Compilation}
    (h : compile source = .ok compilation) :
    compilation.program.tokens.map Token.word = compilation.tokens.map Token.word := by
  obtain ⟨lexer, built, cut, read⟩ := compileWith_eq_ok_iff.mp h
  have sameWord : ∀ t ∈ compilation.tokens, t.kept.word = t.word := by
    intro t mem
    by_cases isSign : t.kind = .assignment
    · have written : t.kind.IsWord t.lexeme.toList := isWritten_of_tokenize built cut t mem
      rw [isSign] at written
      have lexeme : t.lexeme = ":=" := String.toList_inj.mp written
      rw [Token.kept_eq_sign_iff.mpr isSign, Token.word, Token.word, isSign, lexeme]
      rfl
    · rw [Token.kept_of_ne isSign]
  rw [(spells_of_ofTokens read).2, List.map_map]
  exact List.map_congr_left sameWord

/-- **Programs of texts are the same, up to positions, exactly when the texts have the same words.** -/
theorem unplaced_eq_iff_map_word_eq {source other : String} {first second : Compilation}
    (compiled : compile source = .ok first) (compiledOther : compile other = .ok second) :
    first.program.unplaced = second.program.unplaced ↔
      first.tokens.map Token.word = second.tokens.map Token.word := by
  refine ⟨fun same => ?_, fun same => ?_⟩
  · rw [← map_word_tokens_of_compile compiled, ← map_word_tokens_of_compile compiledOther,
      ← first.program.map_word_tokens_unplaced, same, Program.map_word_tokens_unplaced]
  · rw [← map_word_tokens_of_compile compiledOther] at same
    obtain ⟨_, _, _, read⟩ := compileWith_eq_ok_iff.mp compiled
    obtain ⟨p, readAnew, unplaced⟩ :=
      Program.exists_ofTokens (wellFormed_of_compile compiledOther).canonical same
    rw [read] at readAnew
    cases readAnew
    exact unplaced

/-- **The outline determines the tree.** At every indent, unbroken trees have the same outline exactly when they are the
same tree up to positions, and programs of texts have exactly when their texts have the same kinds and lexemes. So it is
with the outlines that are asked for, wherever there is one. -/
theorem outline_legible (indent : Int) :
    (∀ first second : Node, first.IsUnbroken → second.IsUnbroken →
      (first.outline indent = second.outline indent ↔ first.unplaced = second.unplaced) ∧
      ∀ text, first.outlineAt indent = .ok text →
        (second.outlineAt indent = .ok text ↔ first.unplaced = second.unplaced)) ∧
    (∀ source other first second, compile source = .ok first → compile other = .ok second →
      ((Node.program first.program).outline indent = (Node.program second.program).outline indent ↔
        first.tokens.map Token.word = second.tokens.map Token.word) ∧
      ∀ text, (Node.program first.program).outlineAt indent = .ok text →
        ((Node.program second.program).outlineAt indent = .ok text ↔
          first.tokens.map Token.word = second.tokens.map Token.word)) := by
  refine ⟨fun first second unbroken unbrokenSecond => ⟨?_, fun text shown => ?_⟩, ?_⟩
  · exact Node.outline_eq_iff unbroken unbrokenSecond indent
  · exact Node.outlineAt_eq_iff unbroken unbrokenSecond shown
  · intro source other first second compiled compiledOther
    have unbroken := (wellFormed_of_compile compiled).isUnbroken
    have unbrokenSecond := (wellFormed_of_compile compiledOther).isUnbroken
    have programs : (Node.program first.program).unplaced = (Node.program second.program).unplaced ↔
        first.program.unplaced = second.program.unplaced := Node.program.injEq _ _ ▸ Iff.rfl
    rw [← unplaced_eq_iff_map_word_eq compiled compiledOther, ← programs]
    exact ⟨Node.outline_eq_iff unbroken unbrokenSecond indent, fun text shown =>
      Node.outlineAt_eq_iff unbroken unbrokenSecond shown⟩

/-- Left of the margin nothing is indented, and still a sum shows which of its operands is a sum; an integer is not
taken for the real of the same value. -/
theorem outline_legible_left_of_margin :
    let sum (left right : Expr) : Expr := .binary left "+" right .start
    let a : Expr := .name "a" .start
    (Node.expr (sum (sum a a) a)).outlineAt (-9) ≠ (Node.expr (sum a (sum a a))).outlineAt (-9) ∧
      ∃ first second, compile "x := 1" = .ok first ∧ compile "x := 1.0" = .ok second ∧
        (Node.program first.program).outline (-9) ≠ (Node.program second.program).outline (-9) := by
  intro sum a
  obtain ⟨trees, programs⟩ := outline_legible (-9)
  refine ⟨fun same => ?_, ?_⟩
  · have unbroken : (Node.expr (sum (sum a a) a)).IsUnbroken := by decide
    have unbrokenOther : (Node.expr (sum a (sum a a))).IsUnbroken := by decide
    have shown : (Node.expr (sum (sum a a) a)).outlineAt (-9) = .ok _ := Node.outlineAt_eq_ok_iff.mpr ⟨by decide, rfl⟩
    have alike := ((trees _ _ unbroken unbrokenOther).2 _ shown).mp (same ▸ shown)
    exact absurd alike (by decide)
  · let integer : Program := ⟨[⟨"x", .number .integer "1" .start, .start⟩], .start⟩
    let real : Program := ⟨[⟨"x", .number .real "1.0" .start, .start⟩], .start⟩
    have name : IsName "x".toList := isName_cons_iff.mpr ⟨rfl, List.forall_mem_nil _⟩
    have one : IsNumeral "1".toList := isNumeral_cons_iff.mpr ⟨rfl, List.forall_mem_nil _⟩
    have zero : IsNumeral "0".toList := isNumeral_cons_iff.mpr ⟨rfl, List.forall_mem_nil _⟩
    have wellFormed : integer.WellFormed :=
      ⟨by decide, List.forall_mem_singleton.mpr name, List.forall_mem_singleton.mpr one⟩
    have wellFormedReal : real.WellFormed :=
      ⟨by decide, List.forall_mem_singleton.mpr name, List.forall_mem_singleton.mpr ⟨_, _, rfl, one, zero⟩⟩
    obtain ⟨first, compiled, sameInteger⟩ := compile_spelling wellFormed
    obtain ⟨second, compiledReal, sameReal⟩ := compile_spelling wellFormedReal
    have spelling : integer.spelling = "x := 1" := by decide
    have spellingReal : real.spelling = "x := 1.0" := by decide
    rw [spelling] at compiled
    rw [spellingReal] at compiledReal
    refine ⟨first, second, compiled, compiledReal, fun same => ?_⟩
    have words := (programs _ _ first second compiled compiledReal).1.mp same
    rw [← unplaced_eq_iff_map_word_eq compiled compiledReal, sameInteger, sameReal] at words
    exact absurd words (by decide)

/-- An indent that is no index has no outline: there a tree has no outline in common with itself, and different trees
are refused alike. -/
theorem outlineAt_beyond_index :
    let indent : Int := -9223372036854775809
    let empty : Node := .program ⟨[], .start⟩
    let name : Node := .expr (.name "x" .start)
    empty.IsUnbroken ∧ name.IsUnbroken ∧ empty.outlineAt indent = .error .notAnIndex ∧
      ¬ ((∃ text, empty.outlineAt indent = .ok text ∧ empty.outlineAt indent = .ok text) ↔
        empty.unplaced = empty.unplaced) ∧
      ¬ (empty.outlineAt indent = name.outlineAt indent ↔ empty.unplaced = name.unplaced) := by
  intro indent empty name
  have refused : ∀ n : Node, n.outlineAt indent = .error .notAnIndex := Node.outlineAt_eq_notAnIndex (by decide)
  refine ⟨by decide, by decide, refused empty, fun claimed => ?_, fun claimed => ?_⟩
  · obtain ⟨text, shown, _⟩ := claimed.mpr rfl
    rw [refused] at shown
    cases shown
  · have alike := claimed.mp ((refused empty).trans (refused name).symm)
    exact absurd alike (by decide)

end Mini
