import Mini.Proofs.Matching

/-!
# Cutting a text into lexemes

`tokenize_exact`: what a lexer makes of a text, said without scanning. The text is lexemes with white space
between them, every lexeme being the next token of the text from it on (`WellCut`), and what is left is white
space or begins, behind white space, with a character at which no rule matches. In the first case the kinds and
lexemes are those of the tokens, in the second the character is the illegal one. Every text is of exactly one
of the two kinds, and the pieces with what is left make up the whole text.

The rules are any for which a lexer can be built; their automata may read white space or accept the empty text.
-/

namespace Mini

/-! ## Pieces -/

/-- A lexeme with its kind, and what stands between it and the lexeme before. -/
structure Piece where
  gap : List Char
  kind : Kind
  lexeme : List Char
  deriving DecidableEq, Repr

/-- The text that pieces make up. -/
def textOf (pieces : List Piece) : List Char :=
  pieces.flatMap fun p => p.gap ++ p.lexeme

/-- The kind and the lexeme of a piece. -/
def Piece.word (p : Piece) : Kind × String :=
  (p.kind, String.ofList p.lexeme)

/-- The kind and the lexeme of a token. -/
def Token.word (t : Token) : Kind × String :=
  (t.kind, t.lexeme)

/-- Whether all characters are white space. -/
def AllBlank (text : List Char) : Prop :=
  ∀ c ∈ text, Text.isBlank c = true

instance (text : List Char) : Decidable (AllBlank text) :=
  List.decidableBAll _ text

/-- Whether pieces followed by a rest are cut as the rules ask for: white space between lexemes, none at the
beginning of a lexeme, and every lexeme the next token of all that follows. -/
def WellCut (rules : List Rule) : List Piece → List Char → Prop
  | [], _ => True
  | p :: pieces, rest =>
    AllBlank p.gap ∧ (∀ c ∈ p.lexeme.head?, Text.isBlank c = false) ∧
      NextToken rules (p.lexeme ++ (textOf pieces ++ rest)) p.kind p.lexeme ∧ WellCut rules pieces rest

/-- Whether no token can be cut from a text, although it begins with a character that is not white space. -/
def Illegal (rules : List Rule) (c : Char) (rest : List Char) : Prop :=
  Text.isBlank c = false ∧ ∀ rule ∈ rules, ¬ rule.Matches (c :: rest)

/-- The tokens of pieces that start at a position. -/
def tokensFrom (position : Position) : List Piece → List Token
  | [] => []
  | p :: pieces =>
    ⟨p.kind, String.ofList p.lexeme, position.advanceOver p.gap⟩ ::
      tokensFrom (position.advanceOver (p.gap ++ p.lexeme)) pieces

theorem textOf_cons (p : Piece) (pieces : List Piece) :
    textOf (p :: pieces) = p.gap ++ (p.lexeme ++ textOf pieces) := by
  rw [textOf, List.flatMap_cons, List.append_assoc]
  rfl

theorem textOf_cons_append (p : Piece) (pieces : List Piece) (rest : List Char) :
    textOf (p :: pieces) ++ rest = p.gap ++ (p.lexeme ++ (textOf pieces ++ rest)) := by
  rw [textOf_cons, List.append_assoc, List.append_assoc]

theorem map_word_tokensFrom (position : Position) (pieces : List Piece) :
    (tokensFrom position pieces).map Token.word = pieces.map Piece.word := by
  induction pieces generalizing position with
  | nil => rfl
  | cons p pieces ih =>
    rw [tokensFrom, List.map_cons, List.map_cons, ih]
    rfl

theorem NextToken.ne_nil {rules : List Rule} {text lexeme : List Char} {kind : Kind}
    (h : NextToken rules text kind lexeme) : lexeme ≠ [] := by
  obtain ⟨_, _, _, _, _, nonempty, _⟩ := h
  exact nonempty

theorem NextToken.isPrefix {rules : List Rule} {text lexeme : List Char} {kind : Kind}
    (h : NextToken rules text kind lexeme) : lexeme <+: text := by
  obtain ⟨_, _, _, _, _, _, front, _⟩ := h
  exact front

/-- Every lexeme of a cut is the next token where it starts. -/
theorem WellCut.exists_nextToken {rules : List Rule} {pieces : List Piece} {rest : List Char}
    (cut : WellCut rules pieces rest) : ∀ p ∈ pieces, ∃ after, NextToken rules (p.lexeme ++ after) p.kind p.lexeme := by
  induction pieces with
  | nil => exact List.forall_mem_nil _
  | cons p pieces ih =>
    obtain ⟨_, _, next, others⟩ := cut
    exact List.forall_mem_cons.mpr ⟨⟨_, next⟩, ih others⟩

/-- Every text begins with a run of characters of a class, which may be empty, and stops being one there. -/
theorem exists_run (p : Char → Bool) (text : List Char) :
    ∃ run rest, text = run ++ rest ∧ (∀ c ∈ run, p c = true) ∧ ∀ c ∈ rest.head?, p c = false := by
  induction text with
  | nil => exact ⟨[], [], rfl, List.forall_mem_nil _, fun c mem => nomatch mem⟩
  | cons c text ih =>
    cases h : p c with
    | false =>
      refine ⟨[], c :: text, rfl, List.forall_mem_nil _, ?_⟩
      intro first mem
      exact Option.some.inj mem ▸ h
    | true =>
      obtain ⟨run, rest, rfl, all, stops⟩ := ih
      exact ⟨c :: run, rest, rfl, List.forall_mem_cons.mpr ⟨h, all⟩, stops⟩

/-! ## A scan follows the cut -/

namespace Lexer

variable {rules : List Rule} {lexer : Lexer}

theorem scanFrom_gap {gap : List Char} (blank : AllBlank gap) (position : Position) (found : List Token)
    (rest : List Char) :
    lexer.scanFrom position found (gap ++ rest) = lexer.scanFrom (position.advanceOver gap) found rest := by
  induction gap generalizing position with
  | nil => rfl
  | cons c gap ih =>
    obtain ⟨here, others⟩ := List.forall_mem_cons.mp blank
    rw [List.cons_append, scanFrom_blank here, ih others, Position.advanceOver_cons]

/-- A scan that is left with white space has found all its tokens. -/
theorem scanFrom_allBlank {text : List Char} (blank : AllBlank text) (position : Position)
    (found : List Token) : lexer.scanFrom position found text = ⟨found.reverse, none⟩ := by
  rw [← List.append_nil text, scanFrom_gap blank, scanFrom_nil]

/-- The next token is found, and the scan goes on behind it. -/
theorem scanFrom_nextToken (built : ofRules rules = .ok lexer) {kind : Kind} {lexeme after : List Char}
    (starts : ∀ c ∈ lexeme.head?, Text.isBlank c = false)
    (next : NextToken rules (lexeme ++ after) kind lexeme) (position : Position) (found : List Token) :
    lexer.scanFrom position found (lexeme ++ after) =
      lexer.scanFrom (position.advanceOver lexeme) (⟨kind, String.ofList lexeme, position⟩ :: found) after := by
  obtain ⟨c, rest, rfl⟩ := List.exists_cons_of_ne_nil next.ne_nil
  have matched : lexer.match? (c :: rest ++ after) = some ⟨kind, (c :: rest).length⟩ :=
    (match?_eq_some_iff built).mpr ⟨c :: rest, next, rfl⟩
  have front : (c :: rest ++ after).take (c :: rest).length = c :: rest := List.take_left
  have behind : (c :: rest ++ after).drop (c :: rest).length = after := List.drop_left
  calc lexer.scanFrom position found (c :: rest ++ after)
      = lexer.scanFrom (position.advanceOver ((c :: rest ++ after).take (c :: rest).length))
          (⟨kind, String.ofList ((c :: rest ++ after).take (c :: rest).length), position⟩ :: found)
          ((c :: rest ++ after).drop (c :: rest).length) := scanFrom_match (starts c rfl) matched position found
    _ = _ := by rw [front, behind]

/-- **A scan goes through the pieces of a cut one by one**, and stands behind them with their tokens found. -/
theorem scanFrom_pieces (built : ofRules rules = .ok lexer) {pieces : List Piece} {rest : List Char}
    (cut : WellCut rules pieces rest) (position : Position) (found : List Token) :
    lexer.scanFrom position found (textOf pieces ++ rest) =
      lexer.scanFrom (position.advanceOver (textOf pieces)) ((tokensFrom position pieces).reverse ++ found)
        rest := by
  induction pieces generalizing position found with
  | nil => rfl
  | cons p pieces ih =>
    obtain ⟨blank, starts, next, others⟩ := cut
    rw [textOf_cons, List.append_assoc, List.append_assoc, scanFrom_gap blank,
      scanFrom_nextToken built starts next, ih others, ← Position.advanceOver_append,
      ← Position.advanceOver_append, tokensFrom, Position.advanceOver_append position p.gap p.lexeme,
      List.reverse_cons, List.append_assoc, List.singleton_append]

/-- A text that is cut up to white space has the tokens of its pieces. -/
theorem scan_of_cut (built : ofRules rules = .ok lexer) {source : String} {pieces : List Piece}
    {final : List Char} (whole : source.toList = textOf pieces ++ final) (cut : WellCut rules pieces final)
    (blank : AllBlank final) : lexer.scan source = ⟨tokensFrom .start pieces, none⟩ := by
  rw [scan, whole, scanFrom_pieces built cut, scanFrom_allBlank blank, List.append_nil, List.reverse_reverse]

theorem scan_of_illegal (built : ofRules rules = .ok lexer) {source : String} {pieces : List Piece}
    {gap rest : List Char} {c : Char} (whole : source.toList = textOf pieces ++ (gap ++ c :: rest))
    (cut : WellCut rules pieces (gap ++ c :: rest)) (blank : AllBlank gap) (illegal : Illegal rules c rest) :
    lexer.scan source =
      ⟨tokensFrom .start pieces, some ⟨c, Position.start.advanceOver (textOf pieces ++ gap)⟩⟩ := by
  have unmatched : lexer.match? (c :: rest) = none := (match?_eq_none_iff built).mpr illegal.2
  rw [scan, whole, scanFrom_pieces built cut, scanFrom_gap blank, scanFrom_illegal illegal.1 unmatched,
    List.append_nil, List.reverse_reverse, Position.advanceOver_append]

/-! ## Every text can be cut -/

/-- At a character that is not white space a lexeme starts, or the character is illegal. -/
theorem illegal_or_exists_nextToken (built : ofRules rules = .ok lexer) {c : Char} (notBlank : Text.isBlank c = false)
    (rest : List Char) :
    Illegal rules c rest ∨ ∃ kind lexeme after, lexeme ++ after = c :: rest ∧
      (∀ d ∈ lexeme.head?, Text.isBlank d = false) ∧ NextToken rules (lexeme ++ after) kind lexeme := by
  cases matched : lexer.match? (c :: rest) with
  | none => exact .inl ⟨notBlank, (match?_eq_none_iff built).mp matched⟩
  | some m =>
    obtain ⟨lexeme, next, _⟩ := (match?_eq_some_iff built).mp matched
    obtain ⟨after, begins⟩ := next.isPrefix
    refine .inr ⟨m.kind, lexeme, after, begins, fun d mem => ?_, begins.symm ▸ next⟩
    obtain ⟨others, rfl⟩ := List.head?_eq_some_iff.mp mem
    exact (List.cons.inj begins).1 ▸ notBlank

/-- **Every text is cut**, up to white space or up to an illegal character. -/
theorem exists_cut (built : ofRules rules = .ok lexer) (text : List Char) :
    ∃ pieces rest, text = textOf pieces ++ rest ∧ WellCut rules pieces rest ∧
      (AllBlank rest ∨ ∃ gap c more, rest = gap ++ c :: more ∧ AllBlank gap ∧ Illegal rules c more) := by
  induction length : text.length using Nat.strongRecOn generalizing text with
  | ind n ih =>
    obtain ⟨gap, rest, rfl, blank, starts⟩ := exists_run Text.isBlank text
    cases rest with
    | nil =>
      refine ⟨[], gap, (List.append_nil gap).symm ▸ rfl, trivial, .inl blank⟩
    | cons c rest =>
      rcases illegal_or_exists_nextToken built (starts c rfl) rest with
        illegal | ⟨kind, lexeme, after, begins, startsLexeme, next⟩
      · exact ⟨[], gap ++ c :: rest, rfl, trivial, .inr ⟨gap, c, rest, rfl, blank, illegal⟩⟩
      · rw [← begins] at length ⊢
        have shorter : after.length < n := by
          have := List.length_pos_iff.mpr next.ne_nil
          rw [← length, List.length_append, List.length_append]
          omega
        obtain ⟨pieces, rest, rfl, cut, ending⟩ := ih _ shorter after rfl
        refine ⟨⟨gap, kind, lexeme⟩ :: pieces, rest, ?_, ⟨blank, startsLexeme, next, cut⟩, ending⟩
        rw [textOf_cons, List.append_assoc, List.append_assoc]

/-- **The tokens of a text are those of the pieces that it is cut into.** -/
theorem tokenize_eq_ok_iff (built : ofRules rules = .ok lexer) {source : String} {tokens : List Token} :
    lexer.tokenize source = .ok tokens ↔
      ∃ pieces final, source.toList = textOf pieces ++ final ∧ WellCut rules pieces final ∧ AllBlank final ∧
        tokens = tokensFrom .start pieces := by
  refine ⟨fun h => ?_, fun h => ?_⟩
  · obtain ⟨pieces, rest, whole, cut, blank | ⟨gap, c, more, rfl, blank, illegal⟩⟩ :=
      exists_cut built source.toList
    · rw [tokenize, scan_of_cut built whole cut blank] at h
      exact ⟨pieces, rest, whole, cut, blank, (Except.ok.inj h).symm⟩
    · rw [tokenize, scan_of_illegal built whole cut blank illegal] at h
      cases h
  · obtain ⟨pieces, final, whole, cut, blank, rfl⟩ := h
    rw [tokenize, scan_of_cut built whole cut blank]

/-- **An illegal character is the one that a text is cut up to.** -/
theorem tokenize_eq_error_iff (built : ofRules rules = .ok lexer) {source : String} {e : LexicalError} :
    lexer.tokenize source = .error e ↔
      ∃ pieces gap rest, source.toList = textOf pieces ++ (gap ++ e.character :: rest) ∧
        WellCut rules pieces (gap ++ e.character :: rest) ∧ AllBlank gap ∧ Illegal rules e.character rest ∧
        e.position = Position.start.advanceOver (textOf pieces ++ gap) := by
  refine ⟨fun h => ?_, fun h => ?_⟩
  · obtain ⟨pieces, rest, whole, cut, blank | ⟨gap, c, more, rfl, blank, illegal⟩⟩ :=
      exists_cut built source.toList
    · rw [tokenize, scan_of_cut built whole cut blank] at h
      cases h
    · rw [tokenize, scan_of_illegal built whole cut blank illegal] at h
      cases h
      exact ⟨pieces, gap, more, whole, cut, blank, illegal, rfl⟩
  · obtain ⟨pieces, gap, rest, whole, cut, blank, illegal, place⟩ := h
    rw [tokenize, scan_of_illegal built whole cut blank illegal, ← place]

end Lexer

/-! ## What is tokenized -/

/-- Whether a text is cut up to white space into words. -/
def CutsInto (rules : List Rule) (text : List Char) (words : List (Kind × String)) : Prop :=
  ∃ pieces final, text = textOf pieces ++ final ∧ WellCut rules pieces final ∧ AllBlank final ∧
    pieces.map Piece.word = words

/-- Whether a text is cut up to an illegal character. -/
def CutsUpTo (rules : List Rule) (text : List Char) (c : Char) : Prop :=
  ∃ pieces gap rest, text = textOf pieces ++ (gap ++ c :: rest) ∧ WellCut rules pieces (gap ++ c :: rest) ∧
    AllBlank gap ∧ Illegal rules c rest

/-- **The exact meaning of tokenizing.** Tokens with these kinds and lexemes are the answer exactly when the text
is cut into them, an illegal character is the answer exactly when the text is cut up to it, and every text is
cut in exactly one of these ways. -/
theorem tokenize_exact {rules : List Rule} {lexer : Lexer} (built : Lexer.ofRules rules = .ok lexer)
    (source : String) :
    (∀ words, (∃ tokens, lexer.tokenize source = .ok tokens ∧ tokens.map Token.word = words) ↔
      CutsInto rules source.toList words) ∧
    (∀ c, (∃ e, lexer.tokenize source = .error e ∧ e.character = c) ↔ CutsUpTo rules source.toList c) ∧
    ((∃ words, CutsInto rules source.toList words) ↔ ¬ ∃ c, CutsUpTo rules source.toList c) := by
  have into : ∀ words, CutsInto rules source.toList words →
      ∃ tokens, lexer.tokenize source = .ok tokens ∧ tokens.map Token.word = words := by
    rintro words ⟨pieces, final, whole, cut, blank, rfl⟩
    refine ⟨tokensFrom .start pieces, ?_, map_word_tokensFrom _ _⟩
    rw [Lexer.tokenize, Lexer.scan_of_cut built whole cut blank]
  have upTo : ∀ c, CutsUpTo rules source.toList c → ∃ e, lexer.tokenize source = .error e ∧ e.character = c := by
    rintro c ⟨pieces, gap, rest, whole, cut, blank, illegal⟩
    refine ⟨⟨c, Position.start.advanceOver (textOf pieces ++ gap)⟩, ?_, rfl⟩
    rw [Lexer.tokenize, Lexer.scan_of_illegal built whole cut blank illegal]
  have oneOf : (∃ words, CutsInto rules source.toList words) ∨ ∃ c, CutsUpTo rules source.toList c := by
    obtain ⟨pieces, rest, whole, cut, blank | ⟨gap, c, more, rfl, blank, illegal⟩⟩ :=
      Lexer.exists_cut built source.toList
    · exact .inl ⟨_, pieces, rest, whole, cut, blank, rfl⟩
    · exact .inr ⟨c, pieces, gap, more, whole, cut, blank, illegal⟩
  refine ⟨fun words => ⟨?_, into words⟩, fun c => ⟨?_, upTo c⟩, ?_, ?_⟩
  · rintro ⟨tokens, answer, rfl⟩
    rcases oneOf with ⟨words, cut⟩ | ⟨c, cut⟩
    · obtain ⟨same, answer', rfl⟩ := into words cut
      rw [answer] at answer'
      cases answer'
      exact cut
    · obtain ⟨e, answer', _⟩ := upTo c cut
      rw [answer] at answer'
      cases answer'
  · rintro ⟨e, answer, rfl⟩
    rcases oneOf with ⟨words, cut⟩ | ⟨c, cut⟩
    · obtain ⟨tokens, answer', _⟩ := into words cut
      rw [answer] at answer'
      cases answer'
    · obtain ⟨same, answer', rfl⟩ := upTo c cut
      rw [answer] at answer'
      cases answer'
      exact cut
  · rintro ⟨words, cutInto⟩ ⟨c, cutUpTo⟩
    obtain ⟨tokens, answer, _⟩ := into words cutInto
    obtain ⟨e, answer', _⟩ := upTo c cutUpTo
    rw [answer] at answer'
    cases answer'
  · exact oneOf.resolve_right

/-- A lexeme with white space in it, and an automaton that runs on behind its match. -/
theorem tokenize_exact_overrun :
    let spaced : Automaton :=
      .ofEdges "s" ["s", "t"] [(("s", "a"), "m"), (("m", " "), "n"), (("n", "a"), "t")]
    let longer : Automaton :=
      .ofEdges "s" ["t"] [(("s", "b"), "t"), (("t", "c"), "u"), (("u", "d"), "t")]
    let rules : List Rule := [⟨.operator, .ok longer, 1⟩, ⟨.keyword, .ok spaced, 2⟩]
    CutsInto rules " a ab\nb".toList [(.keyword, "a a"), (.operator, "b"), (.operator, "b")] ∧
      CutsUpTo rules " a abc".toList 'c' := by
  intro spaced longer rules
  have built : Lexer.ofRules rules = .ok ⟨[⟨.keyword, spaced⟩, ⟨.operator, longer⟩]⟩ := rfl
  have scanned : (⟨[⟨.keyword, spaced⟩, ⟨.operator, longer⟩]⟩ : Lexer).scan " a ab\nb" =
      ⟨[⟨.keyword, "a a", ⟨1, 2⟩⟩, ⟨.operator, "b", ⟨1, 5⟩⟩, ⟨.operator, "b", ⟨2, 1⟩⟩], none⟩ := by decide +kernel
  have stopped : (⟨[⟨.keyword, spaced⟩, ⟨.operator, longer⟩]⟩ : Lexer).scan " a abc" =
      ⟨[⟨.keyword, "a a", ⟨1, 2⟩⟩, ⟨.operator, "b", ⟨1, 5⟩⟩], some ⟨'c', ⟨1, 6⟩⟩⟩ := by decide +kernel
  refine ⟨((tokenize_exact built " a ab\nb").1 _).mp ?_, ((tokenize_exact built " a abc").2.1 _).mp ?_⟩
  · exact ⟨_, by rw [Lexer.tokenize, scanned], rfl⟩
  · exact ⟨_, by rw [Lexer.tokenize, stopped], rfl⟩

end Mini
