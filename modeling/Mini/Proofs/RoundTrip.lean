import Mini.Compilation
import Mini.Proofs.StandardToken
import Mini.Proofs.Unplaced

/-!
# Source text and programs

`compile_round_trip`: up to positions, the programs that source texts compile to are exactly the well-formed ones.
Every well-formed program can be written down, its lexemes with single spaces between them, and this text compiles to
the program; and whatever compiles, the program is well formed.

Both ways go through tokens: a program is well formed when it is canonical and its tokens are words of their kinds
(`Program.wellFormed_iff`), words with white space between them are cut as they were written
(`wellCut_spaced`), and what is cut are words (`isWritten_of_tokenize`).
-/

namespace Mini

/-! ## Well-formed programs -/

/-- Whether the lexeme of a token is a word of its kind. -/
def Token.IsWritten (t : Token) : Prop :=
  t.kind.IsWord t.lexeme.toList

/-- Whether the numbers and names of an expression are written as numbers and names are. -/
def Expr.IsWritten : Expr → Prop
  | .number .integer lexeme _ => IsNumeral lexeme.toList
  | .number .real lexeme _ => IsDecimal lexeme.toList
  | .name text _ => IsName text.toList
  | .binary left _ right _ => left.IsWritten ∧ right.IsWritten

/-- Whether a program is canonical and its names and numbers are written as such. -/
structure Program.WellFormed (p : Program) : Prop where
  canonical : p.isCanonical = true
  names : ∀ a ∈ p.statements, IsName a.name.toList
  values : ∀ a ∈ p.statements, a.value.IsWritten

/-- The lexemes of a program with single spaces between them. -/
def Program.spelling (p : Program) : String :=
  " ".intercalate (p.tokens.map Token.lexeme)

/-! ## Well-formed programs by their tokens -/

theorem isWord_operator_of_mem {operator : String} (h : operator ∈ operatorSigns) :
    Kind.operator.IsWord operator.toList := by
  simp only [operatorSigns, powerSigns, productSigns, sumSigns, List.cons_append, List.nil_append, List.mem_cons,
    List.not_mem_nil, or_false] at h
  rcases h with rfl | rfl | rfl | rfl | rfl <;> exact ⟨_, rfl, rfl⟩

theorem Expr.isWritten_iff {e : Expr} (canonical : e.isCanonical = true) :
    e.IsWritten ↔ ∀ t ∈ e.tokens, t.IsWritten := by
  induction e with
  | number form lexeme position =>
    rw [tokens, List.forall_mem_singleton]
    cases form <;> rfl
  | name text position =>
    rw [tokens, List.forall_mem_singleton]
    rfl
  | binary left operator right position ihl ihr =>
    rw [isCanonical, Bool.and_eq_true, Bool.and_eq_true] at canonical
    obtain ⟨⟨canonicalLeft, canonicalRight⟩, placed⟩ := canonical
    have isSign : operator ∈ operatorSigns := by
      rw [operatorSigns, List.mem_append, List.mem_append]
      rcases mem_of_joins placed with sum | product | power
      · exact .inr sum
      · exact .inl (.inr product)
      · exact .inl (.inl power)
    have written : (⟨.operator, operator, position⟩ : Token).IsWritten := isWord_operator_of_mem isSign
    rw [IsWritten, tokens, List.forall_mem_append, List.forall_mem_cons, ihl canonicalLeft, ihr canonicalRight]
    refine ⟨fun h => ⟨h.1, written, h.2⟩, fun h => ⟨h.1, h.2.2⟩⟩

/-- **A program is well formed when it is canonical and its tokens are written as such.** -/
theorem Program.wellFormed_iff {p : Program} :
    p.WellFormed ↔ p.isCanonical = true ∧ ∀ t ∈ p.tokens, t.IsWritten := by
  have signWritten : assignmentSign.IsWritten := rfl
  have statement : p.isCanonical = true → ∀ a ∈ p.statements,
      ((∀ t ∈ a.tokens, t.IsWritten) ↔ IsName a.name.toList ∧ a.value.IsWritten) := by
    intro canonical a mem
    rw [Expr.isWritten_iff (List.all_eq_true.mp canonical a mem), Assignment.tokens, List.forall_mem_cons,
      List.forall_mem_cons]
    exact ⟨fun h => ⟨h.1, h.2.2⟩, fun h => ⟨h.1, signWritten, h.2⟩⟩
  refine ⟨fun h => ⟨h.canonical, fun t mem => ?_⟩, fun h => ?_⟩
  · obtain ⟨a, memStatement, mem⟩ := List.mem_flatMap.mp mem
    exact (statement h.canonical a memStatement).mpr ⟨h.names a memStatement, h.values a memStatement⟩ t mem
  · obtain ⟨canonical, written⟩ := h
    have parts : ∀ a ∈ p.statements, IsName a.name.toList ∧ a.value.IsWritten := fun a memStatement =>
      (statement canonical a memStatement).mp fun t mem => written t (List.mem_flatMap.mpr ⟨a, memStatement, mem⟩)
    exact ⟨canonical, fun a mem => (parts a mem).1, fun a mem => (parts a mem).2⟩

@[simp] theorem Expr.isWritten_unplaced (e : Expr) : e.unplaced.IsWritten ↔ e.IsWritten := by
  induction e with
  | number form lexeme position => cases form <;> rfl
  | name text position => rfl
  | binary left operator right position ihl ihr => rw [unplaced, IsWritten, IsWritten, ihl, ihr]

/-- Positions do not matter for well-formedness. -/
theorem Program.wellFormed_unplaced (p : Program) : p.unplaced.WellFormed ↔ p.WellFormed := by
  refine ⟨fun h => ⟨?_, fun a mem => ?_, fun a mem => ?_⟩, fun h => ⟨?_, fun a mem => ?_, fun a mem => ?_⟩⟩
  · exact p.isCanonical_unplaced ▸ h.canonical
  · exact h.names a.unplaced (List.mem_map_of_mem mem)
  · exact (Expr.isWritten_unplaced a.value).mp (h.values a.unplaced (List.mem_map_of_mem mem))
  · exact p.isCanonical_unplaced.trans h.canonical
  · obtain ⟨original, memStatement, rfl⟩ := List.mem_map.mp mem
    exact h.names original memStatement
  · obtain ⟨original, memStatement, rfl⟩ := List.mem_map.mp mem
    exact (Expr.isWritten_unplaced original.value).mpr (h.values original memStatement)

/-! ## Words with spaces between them -/

/-- The piece of a token behind a gap. -/
def Token.piece (gap : List Char) (t : Token) : Piece :=
  ⟨gap, t.kind, t.lexeme.toList⟩

/-- The pieces of tokens with single spaces between them. -/
def spaced : List Token → List Piece
  | [] => []
  | t :: rest => t.piece [] :: rest.map (Token.piece [' '])

theorem intercalate_lexemes (first : List Char) (rest : List Token) :
    [' '].intercalate (first :: rest.map fun t => t.lexeme.toList) =
      first ++ textOf (rest.map (Token.piece [' '])) := by
  induction rest generalizing first with
  | nil => simp [textOf, List.intercalate]
  | cons t rest ih =>
    rw [List.map_cons, List.intercalate_cons_cons, ih, List.map_cons, textOf_cons, List.append_assoc]
    rfl

theorem textOf_spaced (tokens : List Token) :
    textOf (spaced tokens) = (" ".intercalate (tokens.map Token.lexeme)).toList := by
  cases tokens with
  | nil => rfl
  | cons t rest =>
    rw [String.toList_intercalate, List.map_map]
    exact (textOf_cons _ _).trans (intercalate_lexemes _ rest).symm

theorem map_word_spaced (tokens : List Token) : (spaced tokens).map Piece.word = tokens.map Token.word := by
  have word : ∀ (gap : List Char) (t : Token), (t.piece gap).word = t.word := fun gap t =>
    congrArg (Prod.mk t.kind) String.ofList_toList
  cases tokens with
  | nil => rfl
  | cons t rest =>
    rw [spaced, List.map_cons, List.map_cons, word, List.map_map]
    exact congrArg (List.cons t.word) (List.map_congr_left fun u _ => word [' '] u)

/-- A word is the next token when white space follows it, or nothing. -/
theorem nextToken_of_isWord {kind : Kind} {lexeme after : List Char} (isWord : kind.IsWord lexeme)
    (blank : ∀ c ∈ after.head?, Text.isBlank c = true) : NextToken Rule.standard (lexeme ++ after) kind lexeme := by
  refine nextToken_standard_iff.mpr ⟨isWord, fun c mem => kind.growsBy_eq_false_of_isBlank (blank c mem), ?_⟩
  rintro _ ⟨d, more, rfl, _⟩
  cases blank '.' rfl

/-- A word behind blanks is cut as it is, if white space or nothing follows it. -/
theorem wellCut_piece_cons {t : Token} {gap : List Char} {pieces : List Piece} (written : t.IsWritten)
    (blankGap : AllBlank gap) (blank : ∀ c ∈ (textOf pieces ++ []).head?, Text.isBlank c = true)
    (others : WellCut Rule.standard pieces []) : WellCut Rule.standard (t.piece gap :: pieces) [] := by
  refine ⟨blankGap, fun c mem => ?_, nextToken_of_isWord written blank, others⟩
  obtain ⟨d, more, eq, starts⟩ := written.exists_starts
  have first : t.lexeme.toList.head? = some d := by rw [eq]; rfl
  obtain rfl : d = c := Option.some.inj (first.symm.trans mem)
  exact Kind.isBlank_eq_false_of_starts starts

theorem isBlank_of_mem_head?_textOf {tokens : List Token} {c : Char}
    (mem : c ∈ (textOf (tokens.map (Token.piece [' '])) ++ []).head?) : Text.isBlank c = true := by
  cases tokens with
  | nil => cases mem
  | cons t rest =>
    rw [List.map_cons, textOf_cons] at mem
    obtain rfl : ' ' = c := Option.some.inj mem
    rfl

theorem wellCut_map_piece {tokens : List Token} (written : ∀ t ∈ tokens, t.IsWritten) :
    WellCut Rule.standard (tokens.map (Token.piece [' '])) [] := by
  induction tokens with
  | nil => trivial
  | cons t rest ih =>
    obtain ⟨here, others⟩ := List.forall_mem_cons.mp written
    have space : AllBlank [' '] := List.forall_mem_singleton.mpr rfl
    exact wellCut_piece_cons here space (fun _ => isBlank_of_mem_head?_textOf) (ih others)

/-- **Words with spaces between them are cut as they were written.** -/
theorem wellCut_spaced {tokens : List Token} (written : ∀ t ∈ tokens, t.IsWritten) :
    WellCut Rule.standard (spaced tokens) [] := by
  cases tokens with
  | nil => trivial
  | cons t rest =>
    obtain ⟨here, others⟩ := List.forall_mem_cons.mp written
    have noGap : AllBlank [] := List.forall_mem_nil _
    exact wellCut_piece_cons here noGap (fun _ => isBlank_of_mem_head?_textOf) (wellCut_map_piece others)

/-! ## What is cut are words -/

/-- The tokens of a text are written as such. -/
theorem isWritten_of_tokenize {lexer : Lexer} (built : Lexer.ofRules Rule.standard = .ok lexer) {source : String}
    {tokens : List Token} (h : lexer.tokenize source = .ok tokens) : ∀ t ∈ tokens, t.IsWritten := by
  obtain ⟨pieces, final, _, cut, _, rfl⟩ := (Lexer.tokenize_eq_ok_iff built).mp h
  intro t mem
  have word : t.word ∈ pieces.map Piece.word := by
    rw [← map_word_tokensFrom .start pieces]
    exact List.mem_map_of_mem mem
  obtain ⟨p, memPieces, same⟩ := List.mem_map.mp word
  obtain ⟨kind, lexeme, position⟩ := t
  cases same
  obtain ⟨_, next⟩ := cut.exists_nextToken p memPieces
  show p.kind.IsWord (String.ofList p.lexeme).toList
  rw [String.toList_ofList]
  exact (nextToken_standard_iff.mp next).1

/-! ## Both ways -/

/-- A well-formed program compiles from its spelling, up to positions. -/
theorem compile_spelling {p : Program} (h : p.WellFormed) :
    ∃ compilation, compile p.spelling = .ok compilation ∧ compilation.program.unplaced = p.unplaced := by
  obtain ⟨canonical, written⟩ := Program.wellFormed_iff.mp h
  obtain ⟨lexer, built⟩ := Lexer.exists_standard
  have cut : lexer.tokenize p.spelling = .ok (tokensFrom .start (spaced p.tokens)) := by
    refine (Lexer.tokenize_eq_ok_iff built).mpr ⟨spaced p.tokens, [], ?_, wellCut_spaced written, ?_, rfl⟩
    · rw [List.append_nil, textOf_spaced, Program.spelling]
    · exact List.forall_mem_nil _
  obtain ⟨q, read, same⟩ := Program.exists_ofTokens canonical ((map_word_tokensFrom .start _).trans (map_word_spaced _))
  exact ⟨⟨_, q⟩, compileWith_eq_ok_iff.mpr ⟨lexer, built, cut, read⟩, same⟩

/-- What a text compiles to is well formed. -/
theorem wellFormed_of_compile {source : String} {compilation : Compilation}
    (h : compile source = .ok compilation) : compilation.program.WellFormed := by
  obtain ⟨lexer, built, cut, read⟩ := compileWith_eq_ok_iff.mp h
  have written := isWritten_of_tokenize built cut
  obtain ⟨canonical, kept⟩ := spells_of_ofTokens read
  refine Program.wellFormed_iff.mpr ⟨canonical, fun t mem => ?_⟩
  rw [kept] at mem
  obtain ⟨original, memTokens, rfl⟩ := List.mem_map.mp mem
  by_cases isSign : original.kind = .assignment
  · rw [Token.kept_eq_sign_iff.mpr isSign]
    rfl
  · rw [Token.kept_of_ne isSign]
    exact written original memTokens

/-- **The round trip of the whole language.** The spelling of every well-formed program compiles to this program, up
to positions; every program that a text compiles to is well formed. So the programs of texts are the well-formed
ones, up to positions. -/
theorem compile_round_trip :
    (∀ p : Program, p.WellFormed →
      ∃ compilation, compile p.spelling = .ok compilation ∧ compilation.program.unplaced = p.unplaced) ∧
    (∀ source compilation, compile source = .ok compilation → compilation.program.WellFormed) ∧
    (∀ p : Program, p.WellFormed ↔
      ∃ source compilation, compile source = .ok compilation ∧ compilation.program.unplaced = p.unplaced) := by
  refine ⟨fun p h => compile_spelling h, fun source compilation h => wellFormed_of_compile h, fun p => ⟨?_, ?_⟩⟩
  · exact fun h => ⟨p.spelling, compile_spelling h⟩
  · rintro ⟨source, compilation, compiled, same⟩
    rw [← p.wellFormed_unplaced, ← same, Program.wellFormed_unplaced]
    exact wellFormed_of_compile compiled

/-- A power of a decimal is well formed, and so is what its spelling compiles to. -/
theorem compile_round_trip_power :
    let p : Program := ⟨[⟨"x", .binary (.number .real "1.5" .start) "^" (.name "y_2" .start) .start, .start⟩], .start⟩
    p.WellFormed ∧ ∃ compilation, compile "x := 1.5 ^ y_2" = .ok compilation ∧
      compilation.program.unplaced = p ∧ compilation.program.WellFormed := by
  intro p
  have decimal : IsDecimal "1.5".toList :=
    ⟨['1'], ['5'], rfl, isNumeral_cons_iff.mpr ⟨rfl, List.forall_mem_nil _⟩,
      isNumeral_cons_iff.mpr ⟨rfl, List.forall_mem_nil _⟩⟩
  have name : IsName "y_2".toList := isName_cons_iff.mpr ⟨rfl, List.all_eq_true.mp rfl⟩
  have wellFormed : p.WellFormed := by
    refine ⟨by decide, List.forall_mem_singleton.mpr ?_, List.forall_mem_singleton.mpr ⟨decimal, name⟩⟩
    exact isName_cons_iff.mpr ⟨rfl, List.forall_mem_nil _⟩
  obtain ⟨trip, back, _⟩ := compile_round_trip
  obtain ⟨compilation, compiled, same⟩ := trip p wellFormed
  have spelling : p.spelling = "x := 1.5 ^ y_2" := by decide
  rw [spelling] at compiled
  exact ⟨wellFormed, compilation, compiled, same, back _ _ compiled⟩

end Mini
