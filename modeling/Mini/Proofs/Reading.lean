import Mini.Proofs.Level

/-!
# Reading is the grammar

`ofTokens_eq_ok_iff_canonical`: the tokens of a canonical program, and no others, are read as a program, and what
is read is that program. So a list of tokens has at most one tree, and the reading loops with their two ways of
grouping agree with the shapes of trees.

A level is a grouped chain of operands; `leftGrouped_*` and `rightGrouped_*` say which shapes these are, from
the powers up to whole expressions. Statements need no such step: the first token that cannot go on with an
expression can only begin the next statement, so the loop over statements stops where trees do.
-/

namespace Mini

/-! ## Where an operator may stand -/

section Joins

variable {left right : Expr} {operator : String}

theorem joins_sum (h : operator ∈ sumSigns) : joins left operator right = !right.rootIn sumSigns := by
  simp only [sumSigns, List.mem_cons, List.not_mem_nil, or_false] at h
  rcases h with rfl | rfl <;> simp [joins, sumSigns, productSigns, powerSigns]

theorem joins_product (h : operator ∈ productSigns) :
    joins left operator right = (!left.rootIn sumSigns && (right.isLeaf || right.rootIn powerSigns)) := by
  simp only [productSigns, List.mem_cons, List.not_mem_nil, or_false] at h
  rcases h with rfl | rfl <;> simp [joins, sumSigns, productSigns, powerSigns]

theorem joins_power (h : operator ∈ powerSigns) :
    joins left operator right = (left.isLeaf && (right.isLeaf || right.rootIn powerSigns)) := by
  simp only [powerSigns, List.mem_cons, List.not_mem_nil, or_false] at h
  rcases h with rfl
  simp [joins, sumSigns, productSigns, powerSigns]

theorem mem_of_joins (h : joins left operator right = true) :
    operator ∈ sumSigns ∨ operator ∈ productSigns ∨ operator ∈ powerSigns := by
  simp only [joins, Bool.or_eq_true, Bool.and_eq_true, List.contains_iff_mem] at h
  rcases h with (h | h) | h
  · exact .inl h.1
  · exact .inr (.inl h.1.1)
  · exact .inr (.inr h.1.1)

end Joins

theorem not_mem_sumSigns_of_product {s : String} (h : s ∈ productSigns) : s ∉ sumSigns := by
  revert s
  decide

theorem not_mem_sumSigns_of_power {s : String} (h : s ∈ powerSigns) : s ∉ sumSigns := by
  revert s
  decide

/-! ## Grouped operands -/

/-- Operands of a shape, grouped from the left by operators with one of the signs. -/
inductive LeftGrouped (shape : Expr → Prop) (signs : List String) : Expr → Prop
  | single {e : Expr} : shape e → LeftGrouped shape signs e
  | join {left right : Expr} {operator : String} {position : Position} :
    LeftGrouped shape signs left → operator ∈ signs → shape right →
      LeftGrouped shape signs (.binary left operator right position)

/-- Operands of a shape, grouped from the right by operators with one of the signs. -/
inductive RightGrouped (shape : Expr → Prop) (signs : List String) : Expr → Prop
  | single {e : Expr} : shape e → RightGrouped shape signs e
  | join {left right : Expr} {operator : String} {position : Position} :
    shape left → operator ∈ signs → RightGrouped shape signs right →
      RightGrouped shape signs (.binary left operator right position)

variable {shape : Expr → Prop} {signs : List String} {e : Expr}

theorem exists_groupLeft_iff :
    (∃ c : Chain, c.Of shape signs ∧ c.groupLeft = e) ↔ LeftGrouped shape signs e := by
  refine ⟨fun h => ?_, fun grouped => ?_⟩
  · obtain ⟨⟨first, links⟩, ⟨isFirst, operators⟩, rfl⟩ := h
    -- The fold starts from any grouped expression, not only from an operand.
    have fold : ∀ start, LeftGrouped shape signs start →
        LeftGrouped shape signs (links.foldl (fun left link => left.join link.1 link.2) start) := by
      clear isFirst
      induction links with
      | nil => exact fun start grouped => grouped
      | cons link links ih =>
        obtain ⟨here, others⟩ := List.forall_mem_cons.mp operators
        intro start grouped
        exact ih others _ (.join grouped (isOperator_iff.mp here.1).2 here.2)
    exact fold first (.single isFirst)
  · induction grouped with
    | single isShape => exact ⟨⟨_, []⟩, ⟨isShape, linksOf_nil shape signs⟩, rfl⟩
    | @join left right operator position _ sign isShape ih =>
      obtain ⟨⟨first, links⟩, ⟨isFirst, operators⟩, rfl⟩ := ih
      have isOperator : (⟨.operator, operator, position⟩ : Token).isOperator signs = true :=
        isOperator_iff.mpr ⟨rfl, sign⟩
      refine ⟨⟨first, links ++ [(⟨.operator, operator, position⟩, right)]⟩, ⟨isFirst, ?_⟩, ?_⟩
      · intro link mem
        rcases List.mem_append.mp mem with mem | mem
        · exact operators link mem
        · exact List.mem_singleton.mp mem ▸ ⟨isOperator, isShape⟩
      · exact List.foldl_append

theorem exists_groupRight_iff :
    (∃ c : Chain, c.Of shape signs ∧ c.groupRight = e) ↔ RightGrouped shape signs e := by
  refine ⟨fun h => ?_, fun grouped => ?_⟩
  · obtain ⟨⟨first, links⟩, ⟨isFirst, operators⟩, rfl⟩ := h
    show RightGrouped shape signs (groupRightFrom first links)
    induction links generalizing first with
    | nil => exact .single isFirst
    | cons link links ih =>
      obtain ⟨here, others⟩ := List.forall_mem_cons.mp operators
      exact .join isFirst (isOperator_iff.mp here.1).2 (ih link.2 here.2 others)
  · induction grouped with
    | single isShape => exact ⟨⟨_, []⟩, ⟨isShape, linksOf_nil shape signs⟩, rfl⟩
    | @join left right operator position isShape sign _ ih =>
      obtain ⟨⟨first, links⟩, ⟨isFirst, operators⟩, rfl⟩ := ih
      have isOperator : (⟨.operator, operator, position⟩ : Token).isOperator signs = true :=
        isOperator_iff.mpr ⟨rfl, sign⟩
      exact ⟨⟨left, (⟨.operator, operator, position⟩, first) :: links⟩,
        ⟨isShape, List.forall_mem_cons.mpr ⟨⟨isOperator, isFirst⟩, operators⟩⟩, rfl⟩

/-! ## The shapes of the levels -/

/-- What may be raised to a power. -/
def Expr.IsOperand (e : Expr) : Prop :=
  e.isLeaf = true

/-- What may be multiplied. -/
def Expr.IsPower (e : Expr) : Prop :=
  e.isCanonical = true ∧ (e.isLeaf || e.rootIn powerSigns) = true

/-- What may be added. -/
def Expr.IsTerm (e : Expr) : Prop :=
  e.isCanonical = true ∧ e.rootIn sumSigns = false

theorem Expr.IsOperand.isPower (h : e.IsOperand) : e.IsPower := by
  cases e with
  | number form lexeme position => exact ⟨rfl, rfl⟩
  | name text position => exact ⟨rfl, rfl⟩
  | binary left operator right position => cases h

theorem Expr.IsPower.isTerm (h : e.IsPower) : e.IsTerm := by
  cases e with
  | number form lexeme position => exact ⟨rfl, rfl⟩
  | name text position => exact ⟨rfl, rfl⟩
  | binary left operator right position =>
    refine ⟨h.1, Bool.eq_false_iff.mpr fun sum => ?_⟩
    have power : operator ∈ powerSigns := List.contains_iff_mem.mp h.2
    exact not_mem_sumSigns_of_power power (List.contains_iff_mem.mp sum)

theorem isCanonical_binary_iff {left right : Expr} {operator : String} {position : Position} :
    (Expr.binary left operator right position).isCanonical = true ↔
      left.isCanonical = true ∧ right.isCanonical = true ∧ joins left operator right = true := by
  simp only [Expr.isCanonical, Bool.and_eq_true, and_assoc]

/-- Leaves grouped from the right are the powers. -/
theorem rightGrouped_power_iff : RightGrouped Expr.IsOperand powerSigns e ↔ e.IsPower := by
  constructor
  · intro grouped
    induction grouped with
    | single isOperand => exact isOperand.isPower
    | @join left right operator position isOperand sign _ ih =>
      have leaf : left.isLeaf = true := isOperand
      have placed : joins left operator right = true := by rw [joins_power sign, leaf, ih.2]; rfl
      exact ⟨isCanonical_binary_iff.mpr ⟨isOperand.isPower.1, ih.1, placed⟩, List.contains_iff_mem.mpr sign⟩
  · induction e with
    | number form lexeme position => exact fun _ => .single rfl
    | name text position => exact fun _ => .single rfl
    | binary left operator right position ihl ihr =>
      rintro ⟨canonical, root⟩
      obtain ⟨_, canonicalRight, placed⟩ := isCanonical_binary_iff.mp canonical
      have sign : operator ∈ powerSigns := List.contains_iff_mem.mp root
      rw [joins_power sign, Bool.and_eq_true] at placed
      exact .join placed.1 sign (ihr ⟨canonicalRight, placed.2⟩)

/-- Powers grouped from the left are the terms. -/
theorem leftGrouped_term_iff : LeftGrouped Expr.IsPower productSigns e ↔ e.IsTerm := by
  constructor
  · intro grouped
    induction grouped with
    | single isPower => exact isPower.isTerm
    | @join left right operator position _ sign isPower ih =>
      have placed : joins left operator right = true := by rw [joins_product sign, ih.2, isPower.2]; rfl
      refine ⟨isCanonical_binary_iff.mpr ⟨ih.1, isPower.1, placed⟩, Bool.eq_false_iff.mpr fun sum => ?_⟩
      exact not_mem_sumSigns_of_product sign (List.contains_iff_mem.mp sum)
  · induction e with
    | number form lexeme position => exact fun _ => .single ⟨rfl, rfl⟩
    | name text position => exact fun _ => .single ⟨rfl, rfl⟩
    | binary left operator right position ihl ihr =>
      rintro ⟨canonical, root⟩
      obtain ⟨canonicalLeft, canonicalRight, placed⟩ := isCanonical_binary_iff.mp canonical
      rcases mem_of_joins placed with sign | sign | sign
      · exact absurd (List.contains_iff_mem.mpr sign) (Bool.eq_false_iff.mp root)
      · rw [joins_product sign, Bool.and_eq_true, Bool.not_eq_true'] at placed
        exact .join (ihl ⟨canonicalLeft, placed.1⟩) sign ⟨canonicalRight, placed.2⟩
      · exact .single ⟨canonical, List.contains_iff_mem.mpr sign⟩

/-- Terms grouped from the left are all canonical expressions. -/
theorem leftGrouped_canonical_iff : LeftGrouped Expr.IsTerm sumSigns e ↔ e.isCanonical = true := by
  constructor
  · intro grouped
    induction grouped with
    | single isTerm => exact isTerm.1
    | @join left right operator position _ sign isTerm ih =>
      have placed : joins left operator right = true := by rw [joins_sum sign, isTerm.2]; rfl
      exact isCanonical_binary_iff.mpr ⟨ih, isTerm.1, placed⟩
  · induction e with
    | number form lexeme position => exact fun _ => .single ⟨rfl, rfl⟩
    | name text position => exact fun _ => .single ⟨rfl, rfl⟩
    | binary left operator right position ihl ihr =>
      intro canonical
      obtain ⟨canonicalLeft, canonicalRight, placed⟩ := isCanonical_binary_iff.mp canonical
      by_cases sum : operator ∈ sumSigns
      · rw [joins_sum sum, Bool.not_eq_true'] at placed
        exact .join (ihl canonicalLeft) sum ⟨canonicalRight, placed⟩
      · have root : sumSigns.contains operator = false :=
          Bool.eq_false_iff.mpr fun mem => sum (List.contains_iff_mem.mp mem)
        exact .single ⟨canonical, root⟩

/-! ## The productions -/

namespace Grammar

/-- A token is an operand by itself exactly when it is all the tokens of a leaf. -/
theorem operand?_eq_some_iff {t : Token} : operand? t = some e ↔ e.IsOperand ∧ e.tokens = [t] := by
  obtain ⟨kind, lexeme, position⟩ := t
  refine ⟨fun h => ?_, fun h => ?_⟩
  · cases kind <;> cases h <;> exact ⟨rfl, rfl⟩
  · obtain ⟨leaf, tokens⟩ := h
    cases e with
    | number form text place => cases form <;> cases tokens <;> rfl
    | name text place => cases tokens; rfl
    | binary left operator right place => cases leaf

theorem operand_reads : operand.Reads Expr.IsOperand [] := by
  intro tokens e rest
  have stops : Stops [] rest := fun t _ => by simp [Token.isOperator]
  cases tokens with
  | nil =>
    refine ⟨fun h => ?_, fun h => ?_⟩
    · cases h
    · obtain ⟨leaf, eq, _⟩ := h
      cases e <;> cases leaf <;> cases eq
  | cons t more =>
    refine ⟨fun h => ?_, fun h => ?_⟩
    · cases found : operand? t with
      | none =>
        rw [read_operand_none found] at h
        cases h
      | some leaf =>
        rw [read_operand_some found] at h
        cases h
        obtain ⟨isOperand, tokens⟩ := operand?_eq_some_iff.mp found
        exact ⟨isOperand, by rw [tokens]; rfl, stops⟩
    · obtain ⟨leaf, eq, _⟩ := h
      have single : e.tokens = [t] ∧ more = rest := by
        cases e with
        | number form text place => cases eq; exact ⟨rfl, rfl⟩
        | name text place => cases eq; exact ⟨rfl, rfl⟩
        | binary left operator right place => cases leaf
      rw [read_operand_some (operand?_eq_some_iff.mpr ⟨leaf, single.1⟩), single.2]

theorem power_reads : power.Reads Expr.IsPower powerSigns := by
  intro tokens e rest
  rw [← rightGrouped_power_iff, ← exists_groupRight_iff]
  exact operand_reads.chain (fun _ _ => List.not_mem_nil) Chain.tokens_groupRight tokens e rest

theorem term_reads : term.Reads Expr.IsTerm (powerSigns ++ productSigns) := by
  intro tokens e rest
  rw [← leftGrouped_term_iff, ← exists_groupLeft_iff]
  exact power_reads.chain (by decide) Chain.tokens_groupLeft tokens e rest

/-- **An expression is read exactly when it is canonical and no operator follows its tokens.** -/
theorem expression_reads : expression.Reads (fun e => e.isCanonical = true) operatorSigns := by
  intro tokens e rest
  show _ ↔ e.isCanonical = true ∧ _
  rw [← leftGrouped_canonical_iff, ← exists_groupLeft_iff]
  exact term_reads.chain (by decide) Chain.tokens_groupLeft tokens e rest

/-- A statement is read exactly when it is a name, an assignment sign and a canonical expression, and no operator
follows. -/
theorem read_statement_eq_ok_iff {tokens rest : List Token} {a : Assignment} :
    statement.read tokens = .ok (a, rest) ↔
      a.value.isCanonical = true ∧ Stops operatorSigns rest ∧ ∃ sign : Token, sign.kind = .assignment ∧
        tokens = ⟨.identifier, a.name, a.position⟩ :: sign :: (a.value.tokens ++ rest) := by
  simp only [statement, Production.read_andThen_eq_ok_iff, Production.read_map_eq_ok_iff, Production.read_expect_eq_ok_iff]
  refine ⟨fun h => ?_, fun h => ?_⟩
  · obtain ⟨⟨kind, lexeme, position⟩, _, ⟨rfl, rfl⟩, sign, _, ⟨isSign, rfl⟩, value, read, rfl⟩ := h
    obtain ⟨canonical, rfl, stops⟩ := (expression_reads _ _ _).mp read
    exact ⟨canonical, stops, sign, isSign, rfl⟩
  · obtain ⟨canonical, stops, sign, isSign, rfl⟩ := h
    exact ⟨_, _, ⟨rfl, rfl⟩, sign, _, ⟨isSign, rfl⟩, a.value,
      (expression_reads _ _ _).mpr ⟨canonical, rfl, stops⟩, rfl⟩

/-- The tokens that are kept as those of an assignment and more begin with a name and an assignment sign. -/
theorem exists_of_map_kept_eq_append {tokens kept : List Token} {a : Assignment}
    (h : tokens.map Token.kept = a.tokens ++ kept) :
    ∃ sign rest, sign.kind = .assignment ∧ rest.map Token.kept = kept ∧
      tokens = ⟨.identifier, a.name, a.position⟩ :: sign :: (a.value.tokens ++ rest) := by
  obtain ⟨name, _, rfl, isName, h⟩ := List.map_eq_cons_iff.mp h
  obtain ⟨sign, _, rfl, isSign, h⟩ := List.map_eq_cons_iff.mp h
  obtain ⟨value, rest, rfl, isValue, isRest⟩ := List.map_eq_append_iff.mp h
  refine ⟨sign, rest, Token.kept_eq_sign_iff.mp isSign, isRest, ?_⟩
  rw [Token.eq_of_kept_eq isName Kind.noConfusion, eq_of_map_kept isValue Expr.kind_ne_of_mem_tokens]

/-- Only operators go on with an expression, and no statement begins with one. -/
theorem stops_of_map_kept_eq {rest : List Token} {statements : List Assignment}
    (h : rest.map Token.kept = statements.flatMap Assignment.tokens) : Stops operatorSigns rest := by
  cases statements with
  | nil =>
    rw [List.map_eq_nil_iff.mp h]
    exact stops_nil operatorSigns
  | cons a more =>
    rw [List.flatMap_cons] at h
    obtain ⟨sign, rest, _, _, rfl⟩ := exists_of_map_kept_eq_append h
    exact stops_of_kind_ne (t := ⟨.identifier, _, _⟩) Kind.noConfusion operatorSigns _

/-- **Statements are read exactly from the tokens of statements with canonical values.** -/
theorem statementsFrom_eq_ok_iff {found all : List Assignment} {tokens : List Token} :
    statementsFrom found tokens = .ok all ↔
      ∃ more : List Assignment, all = found.reverse ++ more ∧
        (∀ a ∈ more, a.value.isCanonical = true) ∧
        tokens.map Token.kept = more.flatMap Assignment.tokens := by
  refine ⟨fun h => ?_, fun h => ?_⟩
  · fun_induction statementsFrom found tokens with
    | case1 found =>
      cases h
      exact ⟨[], (List.append_nil _).symm, List.forall_mem_nil _, rfl⟩
    | case2 found token more failure read => cases h
    | case3 found token more next rest read ih =>
      obtain ⟨canonical, _, sign, isSign, eq⟩ := read_statement_eq_ok_iff.mp read
      obtain ⟨others, rfl, allCanonical, tokens⟩ := ih h
      refine ⟨next :: others, ?_, List.forall_mem_cons.mpr ⟨canonical, allCanonical⟩, ?_⟩
      · rw [List.reverse_cons, List.append_assoc, List.singleton_append]
      · rw [eq, List.map_cons, List.map_cons, List.map_append, Expr.map_kept_tokens, tokens,
          Token.kept_eq_sign_iff.mpr isSign]
        rfl
  · obtain ⟨more, rfl, canonical, kept⟩ := h
    induction more generalizing found tokens with
    | nil =>
      rw [List.map_eq_nil_iff.mp kept, statementsFrom_nil, List.append_nil]
    | cons a others ih =>
      obtain ⟨here, there⟩ := List.forall_mem_cons.mp canonical
      rw [List.flatMap_cons] at kept
      obtain ⟨sign, rest, isSign, keptRest, rfl⟩ := exists_of_map_kept_eq_append kept
      have read := read_statement_eq_ok_iff.mpr ⟨here, stops_of_map_kept_eq keptRest, sign, isSign, rfl⟩
      rw [statementsFrom_ok read found, ih there keptRest, List.reverse_cons, List.append_assoc,
        List.singleton_append]

end Grammar

/-- A list of tokens is a program when its statements can be read; the program stands where the tokens start. -/
theorem ofTokens_eq_ok_iff {tokens : List Token} {program : Program} :
    Program.ofTokens tokens = .ok program ↔
      Grammar.statements tokens = .ok program.statements ∧
        program.position = Cursor.programPosition tokens := by
  cases read : Grammar.statements tokens with
  | error failure =>
    have fails : (Cursor.start tokens).program = _ := Cursor.program_error read
    rw [Program.ofTokens, fails]
    refine ⟨fun h => ?_, fun h => ?_⟩
    · cases h
    · cases h.1
  | ok statements =>
    have succeeds : (Cursor.start tokens).program = _ := Cursor.program_ok read
    rw [Program.ofTokens, succeeds]
    refine ⟨fun h => ?_, fun h => ?_⟩
    · cases h
      exact ⟨rfl, rfl⟩
    · obtain ⟨same, position⟩ := h
      cases same
      exact congrArg Except.ok (congrArg (Program.mk program.statements) position.symm)

/-- A list of tokens is no program when its statements cannot be read; the error is the blame for that. -/
theorem ofTokens_eq_error_iff {tokens : List Token} {e : ParseError} :
    Program.ofTokens tokens = .error e ↔
      ∃ failure, Grammar.statements tokens = .error failure ∧ (Cursor.start tokens).blame failure = e := by
  cases read : Grammar.statements tokens with
  | error failure =>
    have fails : (Cursor.start tokens).program = _ := Cursor.program_error read
    rw [Program.ofTokens, fails]
    refine ⟨fun h => ?_, fun h => ?_⟩
    · cases h
      exact ⟨failure, rfl, rfl⟩
    · obtain ⟨_, same, rfl⟩ := h
      cases same
      rfl
  | ok statements =>
    have succeeds : (Cursor.start tokens).program = _ := Cursor.program_ok read
    rw [Program.ofTokens, succeeds]
    refine ⟨fun h => ?_, fun h => ?_⟩
    · cases h
    · obtain ⟨_, impossible, _⟩ := h
      cases impossible

/-- What tokens are read as is canonical, and they are its tokens. -/
theorem spells_of_ofTokens {tokens : List Token} {program : Program} (read : Program.ofTokens tokens = .ok program) :
    program.isCanonical = true ∧ program.Spells tokens := by
  obtain ⟨statements, _⟩ := ofTokens_eq_ok_iff.mp read
  obtain ⟨all, same, canonical, kept⟩ := Grammar.statementsFrom_eq_ok_iff.mp statements
  obtain rfl : program.statements = all := same
  exact ⟨List.all_eq_true.mpr canonical, kept.symm⟩

/-- **Reading is the grammar, and trees are unique.** A list of tokens is read as a program exactly when the
program is canonical, the tokens are its tokens, and it stands where the first of them does. So the lists that
can be read are those of the canonical programs, and no two of these have the same tokens. -/
theorem ofTokens_eq_ok_iff_canonical (tokens : List Token) :
    (∀ program : Program, Program.ofTokens tokens = .ok program ↔
      program.isCanonical = true ∧ program.Spells tokens ∧
        program.position = (tokens.head?.map Token.position).getD ⟨1, 1⟩) ∧
    ((∃ program, Program.ofTokens tokens = .ok program) ↔
      ∃ program : Program, program.isCanonical = true ∧ program.Spells tokens) ∧
    (∀ first second : Program, first.isCanonical = true → second.isCanonical = true →
      first.Spells tokens → second.Spells tokens → first.statements = second.statements) := by
  have read : ∀ statements : List Assignment, Grammar.statements tokens = .ok statements ↔
      (⟨statements, .start⟩ : Program).isCanonical = true ∧ (⟨statements, .start⟩ : Program).Spells tokens := by
    intro statements
    rw [Grammar.statements, Grammar.statementsFrom_eq_ok_iff, Program.isCanonical, List.all_eq_true]
    refine ⟨fun h => ?_, fun h => ?_⟩
    · obtain ⟨more, rfl, canonical, kept⟩ := h
      exact ⟨canonical, kept.symm⟩
    · obtain ⟨canonical, spells⟩ := h
      exact ⟨statements, rfl, canonical, spells.symm⟩
  refine ⟨fun program => ?_, ?_, ?_⟩
  · rw [ofTokens_eq_ok_iff, read, and_assoc]
    rfl
  · refine ⟨fun h => ?_, fun h => ?_⟩
    · obtain ⟨program, h⟩ := h
      exact ⟨_, (read _).mp (ofTokens_eq_ok_iff.mp h).1⟩
    · obtain ⟨program, h⟩ := h
      exact ⟨⟨program.statements, Cursor.programPosition tokens⟩,
        ofTokens_eq_ok_iff.mpr ⟨(read program.statements).mpr h, rfl⟩⟩
  · intro first second canonicalFirst canonicalSecond spellsFirst spellsSecond
    have readFirst := (read first.statements).mpr ⟨canonicalFirst, spellsFirst⟩
    rw [(read second.statements).mpr ⟨canonicalSecond, spellsSecond⟩] at readFirst
    exact (Except.ok.inj readFirst).symm

/-- Differences lean left and powers right, and there is no other way to read them. -/
theorem ofTokens_difference_of_powers :
    let tokens : List Token := [⟨.identifier, "x", ⟨2, 3⟩⟩, ⟨.assignment, "=", ⟨0, -7⟩⟩, ⟨.integer, "1", ⟨2, 8⟩⟩,
      ⟨.operator, "-", ⟨2, 10⟩⟩, ⟨.identifier, "y", ⟨2, 12⟩⟩, ⟨.operator, "-", ⟨2, 14⟩⟩, ⟨.real, "2.0", ⟨2, 16⟩⟩,
      ⟨.operator, "^", ⟨2, 20⟩⟩, ⟨.identifier, "z", ⟨2, 22⟩⟩, ⟨.operator, "^", ⟨2, 24⟩⟩, ⟨.integer, "3", ⟨2, 26⟩⟩]
    let value : Expr := .binary
      (.binary (.number .integer "1" ⟨2, 8⟩) "-" (.name "y" ⟨2, 12⟩) ⟨2, 10⟩) "-"
      (.binary (.number .real "2.0" ⟨2, 16⟩) "^"
        (.binary (.name "z" ⟨2, 22⟩) "^" (.number .integer "3" ⟨2, 26⟩) ⟨2, 24⟩) ⟨2, 20⟩) ⟨2, 14⟩
    Program.ofTokens tokens = .ok ⟨[⟨"x", value, ⟨2, 3⟩⟩], ⟨2, 3⟩⟩ ∧
      ∀ other : Program, other.isCanonical = true → other.Spells tokens →
        other.statements = [⟨"x", value, ⟨2, 3⟩⟩] := by
  intro tokens value
  obtain ⟨reads, _, unique⟩ := ofTokens_eq_ok_iff_canonical tokens
  have canonical : (⟨[⟨"x", value, ⟨2, 3⟩⟩], ⟨2, 3⟩⟩ : Program).isCanonical = true := by decide
  have spells : (⟨[⟨"x", value, ⟨2, 3⟩⟩], ⟨2, 3⟩⟩ : Program).Spells tokens := rfl
  refine ⟨(reads _).mpr ⟨canonical, spells, rfl⟩, ?_⟩
  intro other canonicalOther spellsOther
  exact unique other _ canonicalOther canonical spellsOther spells

end Mini
