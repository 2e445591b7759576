import Mathlib.Data.List.Forall2
import Mini.Compilation
import Mini.Proofs.Cut
import Mini.Proofs.StandardToken

/-!
# Layout

`tokenize_relaid`: when no automaton reads white space, the layout of a text is free. The tokens of a text keep their
kinds and lexemes under every change of the white space around its lexemes that leaves some between two of them where
there was some. White space may also be put where there was none.

The reason is that such automata see no further than the next white space (`visible`), and a changed layout shows a
lexeme less of what follows it, never more: what could be matched then could be matched before, so the rule that was
chosen still is, and its longest match stays the longest (`NextToken.of_visible`).

The standard rules leave white space alone, and so do the rules of keywords that have none in them
(`Rule.leavesBlanks_of_mem_standard`, `Rule.leavesBlanks_of_keyword`).
-/

namespace Mini

/-! ## Automata that read no white space -/

/-- Whether no edge of an automaton is labelled with white space. -/
def Automaton.LeavesBlanks (a : Automaton) : Prop :=
  ∀ state c, Text.isBlank c = true → a.read state c = none

/-- Whether the automaton of a rule, if it could be built, has no edge labelled with white space. -/
def Rule.LeavesBlanks (rule : Rule) : Prop :=
  ∀ a, rule.automaton = .ok a → a.LeavesBlanks

theorem Automaton.LeavesBlanks.isBlank_eq_false {a : Automaton} (h : a.LeavesBlanks) {state : State}
    {text : List Char} (accepted : a.acceptsFrom state text = true) : ∀ c ∈ text, Text.isBlank c = false := by
  induction text generalizing state with
  | nil => exact List.forall_mem_nil _
  | cons c rest ih =>
    cases read : a.read state c with
    | none =>
      rw [acceptsFrom_cons_none read] at accepted
      cases accepted
    | some next =>
      rw [acceptsFrom_cons_some read] at accepted
      refine List.forall_mem_cons.mpr ⟨Bool.eq_false_iff.mpr fun blank => ?_, ih accepted⟩
      rw [h state c blank] at read
      cases read

/-- The beginning of a text up to its first white space. -/
def visible (text : List Char) : List Char :=
  text.takeWhile fun c => !Text.isBlank c

theorem visible_append {front : List Char} (plain : ∀ c ∈ front, Text.isBlank c = false) (text : List Char) :
    visible (front ++ text) = front ++ visible text :=
  List.takeWhile_append_of_pos fun c mem => by rw [plain c mem]; rfl

theorem visible_eq_nil {text : List Char} (h : ∀ c ∈ text.head?, Text.isBlank c = true) : visible text = [] := by
  cases text with
  | nil => rfl
  | cons c rest => exact List.takeWhile_cons_of_neg (by simp [h c rfl])

/-- A beginning without white space is there in every text that shows as much. -/
theorem prefix_of_visible {word text other : List Char} (front : word <+: text)
    (plain : ∀ c ∈ word, Text.isBlank c = false) (less : visible text <+: visible other) : word <+: other := by
  obtain ⟨rest, rfl⟩ := front
  rw [visible_append plain] at less
  exact (List.prefix_append word _).trans (less.trans (List.takeWhile_prefix _))

variable {rules : List Rule}

/-- A rule that leaves white space alone matches a text as soon as it matches one that shows less. -/
theorem Rule.Matches.of_visible {rule : Rule} (leaves : rule.LeavesBlanks) {text other : List Char}
    (less : visible text <+: visible other) (h : rule.Matches text) : rule.Matches other := by
  obtain ⟨a, word, built, nonempty, front, accepted⟩ := h
  exact ⟨a, word, built, nonempty, prefix_of_visible front ((leaves a built).isBlank_eq_false accepted) less, accepted⟩

/-- **A token stays the next one when less of what follows it is shown.** -/
theorem NextToken.of_visible (leaves : ∀ rule ∈ rules, rule.LeavesBlanks) {text other lexeme : List Char} {kind : Kind}
    (next : NextToken rules other kind lexeme) (has : lexeme <+: text) (less : visible text <+: visible other) :
    NextToken rules text kind lexeme := by
  obtain ⟨rule, ⟨before, after, rfl, _, earlier, later⟩, sameKind, a, built, nonempty, _, accepted, last⟩ := next
  obtain ⟨leavesBefore, leavesRule, leavesAfter⟩ :
      (∀ r ∈ before, r.LeavesBlanks) ∧ rule.LeavesBlanks ∧ ∀ r ∈ after, r.LeavesBlanks := by
    rwa [List.forall_mem_append, List.forall_mem_cons] at leaves
  refine ⟨rule, ⟨before, after, rfl, ⟨a, lexeme, built, nonempty, has, accepted⟩, ?_, ?_⟩, sameKind, a, built, nonempty,
    has, accepted, ?_⟩
  · intro r mem isMatch
    exact earlier r mem (isMatch.of_visible (leavesBefore r mem) less)
  · intro r mem isMatch
    exact later r mem (isMatch.of_visible (leavesAfter r mem) less)
  · intro word front acceptedWord
    exact last word (prefix_of_visible front ((leavesRule a built).isBlank_eq_false acceptedWord) less) acceptedWord

theorem NextToken.isBlank_eq_false (leaves : ∀ rule ∈ rules, rule.LeavesBlanks) {text lexeme : List Char} {kind : Kind}
    (next : NextToken rules text kind lexeme) : ∀ c ∈ lexeme, Text.isBlank c = false := by
  obtain ⟨rule, ⟨before, after, rfl, _⟩, _, a, built, _, _, accepted, _⟩ := next
  exact (leaves rule (by simp) a built).isBlank_eq_false accepted

/-! ## Changing the layout -/

/-- Whether a text is words with white space around them, taken apart as pieces and what is left behind them. -/
structure LaidOut (text : List Char) (words : List (Kind × String)) (pieces : List Piece) (final : List Char) :
    Prop where
  whole : text = textOf pieces ++ final
  words : pieces.map Piece.word = words
  gaps : ∀ p ∈ pieces, AllBlank p.gap
  final : AllBlank final

/-- Whether there is a gap before a piece if there is one before another. -/
def KeepsApart (p q : Piece) : Prop :=
  p.gap ≠ [] → q.gap ≠ []

/-- Whether a piece has the word of another one, behind white space. -/
def Rewords (p q : Piece) : Prop :=
  q.word = p.word ∧ AllBlank q.gap

theorem Piece.eq_of_word_eq {p q : Piece} (h : q.word = p.word) : q.kind = p.kind ∧ q.lexeme = p.lexeme := by
  obtain ⟨kind, lexeme⟩ := Prod.mk.inj h
  exact ⟨kind, String.ofList_injective lexeme⟩

variable {pieces others : List Piece} {final last : List Char}

/-- A new layout shows less of what follows a lexeme. -/
theorem visible_relaid (leaves : ∀ rule ∈ rules, rule.LeavesBlanks) (cut : WellCut rules pieces final)
    (rewords : List.Forall₂ Rewords pieces others) (apart : List.Forall₂ KeepsApart pieces others)
    (blank : AllBlank last) : visible (textOf others ++ last) <+: visible (textOf pieces ++ final) := by
  induction rewords with
  | nil =>
    show visible last <+: _
    rw [visible_eq_nil fun c mem => blank c (List.mem_of_mem_head? mem)]
    exact List.nil_prefix
  | @cons p q pieces others same _ ih =>
    obtain ⟨_, _, next, cutOthers⟩ := cut
    obtain ⟨keeps, apartOthers⟩ := List.forall₂_cons.mp apart
    obtain ⟨_, lexeme⟩ := Piece.eq_of_word_eq same.1
    rw [textOf_cons_append, textOf_cons_append, lexeme]
    cases gap : q.gap with
    | nil =>
      have noGap : p.gap = [] := Decidable.byContradiction fun h => keeps h gap
      have plain := next.isBlank_eq_false leaves
      rw [noGap, List.nil_append, List.nil_append, visible_append plain, visible_append plain]
      exact (List.prefix_append_right_inj _).mpr (ih cutOthers apartOthers)
    | cons c rest =>
      have startsBlank : ∀ d ∈ (c :: rest ++ (p.lexeme ++ (textOf others ++ last))).head?, Text.isBlank d = true := by
        intro d mem
        obtain rfl : c = d := Option.some.inj mem
        exact same.2 c (by rw [gap]; exact List.mem_cons_self)
      rw [visible_eq_nil startsBlank]
      exact List.nil_prefix

/-- **A text that is cut stays cut in every new layout.** What stands before the first word is free. -/
theorem WellCut.relaid (leaves : ∀ rule ∈ rules, rule.LeavesBlanks) (cut : WellCut rules pieces final)
    (rewords : List.Forall₂ Rewords pieces others) (apart : List.Forall₂ KeepsApart pieces.tail others.tail)
    (blank : AllBlank last) : WellCut rules others last := by
  induction rewords with
  | nil => trivial
  | @cons p q pieces others same rewordsOthers ih =>
    obtain ⟨_, starts, next, cutOthers⟩ := cut
    obtain ⟨kind, lexeme⟩ := Piece.eq_of_word_eq same.1
    have shown := visible_relaid leaves cutOthers rewordsOthers apart blank
    have plain := next.isBlank_eq_false leaves
    refine ⟨same.2, lexeme ▸ starts, ?_, ih cutOthers ?_⟩
    · rw [kind, lexeme]
      refine next.of_visible leaves (List.prefix_append _ _) ?_
      rw [visible_append plain, visible_append plain]
      exact (List.prefix_append_right_inj _).mpr shown
    · cases (apart : List.Forall₂ KeepsApart pieces others) with
      | nil => exact .nil
      | cons _ rest => exact rest

theorem rewords_of_map_word_eq (words : others.map Piece.word = pieces.map Piece.word)
    (gaps : ∀ q ∈ others, AllBlank q.gap) : List.Forall₂ Rewords pieces others := by
  induction pieces generalizing others with
  | nil =>
    obtain rfl := List.map_eq_nil_iff.mp words
    exact .nil
  | cons p pieces ih =>
    obtain ⟨q, more, rfl, word, wordsMore⟩ := List.map_eq_cons_iff.mp words
    obtain ⟨blank, gapsMore⟩ := List.forall_mem_cons.mp gaps
    exact .cons ⟨word, blank⟩ (ih wordsMore gapsMore)

/-- **A cut is the only way to take a text apart into its words.** -/
theorem WellCut.unique (cut : WellCut rules pieces final) (rewords : List.Forall₂ Rewords pieces others)
    (same : textOf others ++ last = textOf pieces ++ final) : others = pieces ∧ last = final := by
  induction rewords with
  | nil => exact ⟨rfl, same⟩
  | @cons p q pieces others reword _ ih =>
    obtain ⟨blank, starts, next, cutOthers⟩ := cut
    obtain ⟨kind, lexeme⟩ := Piece.eq_of_word_eq reword.1
    have begins : ∀ rest : List Char, ∀ c ∈ (p.lexeme ++ rest).head?, Text.isBlank c = false := by
      intro rest c mem
      obtain ⟨d, more, eq⟩ := List.exists_cons_of_ne_nil next.ne_nil
      rw [eq] at mem starts
      exact starts c mem
    rw [textOf_cons_append, textOf_cons_append, lexeme] at same
    obtain ⟨gap, behind⟩ := run_unique reword.2 blank (begins _) (begins _) same
    obtain ⟨rfl, rfl⟩ := ih cutOthers (List.append_cancel_left behind)
    refine ⟨?_, rfl⟩
    obtain ⟨gapQ, kindQ, lexemeQ⟩ := q
    cases gap
    cases kind
    cases lexeme
    rfl

/-! ## The rules of the Mini language -/

/-- An automaton that reads by a function which leaves white space alone. -/
theorem Rule.leavesBlanks_of_follows {rule : Rule} {start : State} {accepting : List State}
    {graph : State → Char → Option State} (h : ∃ a, rule.automaton = .ok a ∧ a.Follows start accepting graph)
    (leaves : ∀ state c, Text.isBlank c = true → graph state c = none) : rule.LeavesBlanks := by
  obtain ⟨a, built, follows⟩ := h
  intro b builtToo state c blank
  obtain rfl : a = b := Except.ok.inj (built.symm.trans builtToo)
  rw [follows.read, leaves state c blank]

/-- **The standard rules leave white space alone.** -/
theorem Rule.leavesBlanks_of_mem_standard : ∀ rule ∈ standard, rule.LeavesBlanks := by
  have part : ∀ c, Text.isBlank c = true → isNamePart c = false := fun c blank =>
    Kind.growsBy_eq_false_of_isBlank blank .identifier
  have start : ∀ c, Text.isBlank c = true → isNameStart c = false := fun c blank =>
    (Bool.or_eq_false_iff.mp (part c blank)).1
  have digit : ∀ c, Text.isBlank c = true → c.isDigit = false := fun c blank =>
    (Bool.or_eq_false_iff.mp (part c blank)).2
  have other : ∀ c d, Text.isBlank c = true → Text.isBlank d = false → c ≠ d := by
    rintro c _ blank notBlank rfl
    rw [blank] at notBlank
    cases notBlank
  rw [standard, List.forall_mem_cons, List.forall_mem_cons, List.forall_mem_cons, List.forall_mem_cons,
    List.forall_mem_singleton]
  refine ⟨leavesBlanks_of_follows Automaton.exists_identifier fun state c blank => ?_,
    leavesBlanks_of_follows Automaton.exists_real fun state c blank => ?_,
    leavesBlanks_of_follows Automaton.exists_integer fun state c blank => ?_,
    leavesBlanks_of_follows Automaton.exists_assignment fun state c blank => ?_,
    leavesBlanks_of_follows Automaton.exists_operator fun state c blank => ?_⟩
  · simp [Automaton.readName, start c blank, part c blank]
  · simp [Automaton.readDecimal, digit c blank, other c '.' blank rfl]
  · simp [Automaton.readNumeral, digit c blank]
  · simp [Automaton.readAssignment, other c ':' blank rfl, other c '=' blank rfl]
  · have sign : isSign c = false := by
      refine Bool.eq_false_iff.mpr fun sign => ?_
      have starts : Kind.operator.starts c = true := sign
      rw [Kind.isBlank_eq_false_of_starts starts] at blank
      cases blank
    simp [Automaton.readSign, sign]

/-- The edges of a keyword are labelled with its characters. -/
theorem Automaton.mem_of_asks_keywordEdges {source state target : State} {number : Nat} {word : List Char} {c : Char}
    {r : Registration} (mem : r ∈ keywordEdges source number word)
    (asks : r.Asks (state, String.singleton c) target) : c ∈ word := by
  induction word generalizing source number with
  | nil => cases mem
  | cons d rest ih =>
    cases rest with
    | nil =>
      obtain rfl := List.mem_singleton.mp mem
      exact List.mem_singleton.mpr ((Registration.asks_edge_iff _ d rfl).mp asks).2.1
    | cons e rest =>
      rw [keywordEdges_cons_cons] at mem
      rcases List.mem_cons.mp mem with rfl | mem
      · exact List.mem_cons.mpr (.inl ((Registration.asks_edge_iff _ d rfl).mp asks).2.1)
      · exact List.mem_cons_of_mem d (ih mem)

/-- **The rule of a keyword without white space leaves white space alone.** -/
theorem Rule.leavesBlanks_of_keyword {rule : Rule} {word : String} (isKeyword : rule.automaton = Automaton.keyword word)
    (plain : ∀ c ∈ word.toList, Text.isBlank c = false) : rule.LeavesBlanks := by
  intro a built state c blank
  rw [isKeyword] at built
  cases letters : word.toList with
  | nil =>
    rw [Automaton.keyword_of_toList_eq_nil letters] at built
    cases built
  | cons d rest =>
    rw [Automaton.keyword_of_toList_eq_cons letters] at built
    refine Option.eq_none_iff_forall_ne_some.mpr fun target read => ?_
    obtain ⟨r, mem, asks⟩ := (Automaton.step_of_ofRegistrations built).mp read
    rw [← letters] at mem
    have := plain c (Automaton.mem_of_asks_keywordEdges mem asks)
    rw [blank] at this
    cases this

/-! ## Layout is free -/

/-- **Independence of layout.** If no rule reads white space, a text and another one that consists of its words,
with white space around them and some wherever there is some between two words of the first, have the same kinds
and lexemes. The standard rules are such rules, and those of keywords without white space. -/
theorem tokenize_relaid :
    (∀ {rules : List Rule} {lexer : Lexer} {source other : String} {tokens : List Token} {pieces others : List Piece}
      {final last : List Char}, Lexer.ofRules rules = .ok lexer → (∀ rule ∈ rules, rule.LeavesBlanks) →
      lexer.tokenize source = .ok tokens → LaidOut source.toList (tokens.map Token.word) pieces final →
      LaidOut other.toList (tokens.map Token.word) others last →
      List.Forall₂ KeepsApart pieces.tail others.tail →
      ∃ relaid, lexer.tokenize other = .ok relaid ∧ relaid.map Token.word = tokens.map Token.word) ∧
    ∀ rule : Rule, (rule ∈ Rule.standard ∨
      ∃ word, rule.automaton = Automaton.keyword word ∧ ∀ c ∈ word.toList, Text.isBlank c = false) →
      rule.LeavesBlanks := by
  refine ⟨?_, ?_⟩
  · intro rules lexer source other tokens pieces others final last built leaves answer laidOut laidAnew apart
    obtain ⟨cutPieces, cutFinal, whole, cut, blankFinal, rfl⟩ := (Lexer.tokenize_eq_ok_iff built).mp answer
    rw [map_word_tokensFrom] at laidOut laidAnew
    -- What the text is taken apart into is its cut.
    obtain ⟨rfl, rfl⟩ := cut.unique (rewords_of_map_word_eq laidOut.words laidOut.gaps)
      (laidOut.whole.symm.trans whole)
    have relaid := cut.relaid leaves (rewords_of_map_word_eq laidAnew.words laidAnew.gaps) apart laidAnew.final
    refine ⟨tokensFrom .start others, ?_, ?_⟩
    · exact (Lexer.tokenize_eq_ok_iff built).mpr ⟨others, last, laidAnew.whole, relaid, laidAnew.final, rfl⟩
    · rw [map_word_tokensFrom, map_word_tokensFrom, laidAnew.words]
  · rintro rule (mem | ⟨word, isKeyword, plain⟩)
    · exact Rule.leavesBlanks_of_mem_standard rule mem
    · exact Rule.leavesBlanks_of_keyword isKeyword plain

/-- Two keywords, one the beginning of the other: pulled apart and put on two lines they stay what they were. -/
theorem tokenize_relaid_keywords :
    let rules : List Rule := [⟨.keyword, Automaton.keyword "let", 2⟩, ⟨.operator, Automaton.keyword "le", 1⟩]
    ∃ lexer relaid, Lexer.ofRules rules = .ok lexer ∧ lexer.tokenize " le let\n\tlet" = .ok relaid ∧
      relaid.map Token.word = [(.operator, "le"), (.keyword, "let"), (.keyword, "let")] := by
  intro rules
  let tokens : List Token := [⟨.operator, "le", ⟨1, 1⟩⟩, ⟨.keyword, "let", ⟨1, 3⟩⟩, ⟨.keyword, "let", ⟨1, 7⟩⟩]
  have plain : ∀ rule ∈ rules, ∃ word, rule.automaton = Automaton.keyword word ∧
      ∀ c ∈ word.toList, Text.isBlank c = false := by
    refine List.forall_mem_cons.mpr ⟨⟨"let", rfl, ?_⟩, List.forall_mem_singleton.mpr ⟨"le", rfl, ?_⟩⟩
    · exact List.forall_mem_cons.mpr ⟨rfl, List.forall_mem_cons.mpr ⟨rfl, List.forall_mem_singleton.mpr rfl⟩⟩
    · exact List.forall_mem_cons.mpr ⟨rfl, List.forall_mem_singleton.mpr rfl⟩
  have scanned : tokenizeWith rules "lelet let " = .ok tokens := by decide +kernel
  obtain ⟨lexer, built, answer⟩ := tokenizeWith_eq_ok_iff.mp scanned
  let pieces (first second third : List Char) : List Piece := [⟨first, .operator, "le".toList⟩,
    ⟨second, .keyword, "let".toList⟩, ⟨third, .keyword, "let".toList⟩]
  have laidOut : LaidOut "lelet let ".toList (tokens.map Token.word) (pieces [] [] [' ']) [' '] := by
    refine ⟨?_, ?_, ?_, ?_⟩ <;> decide
  have laidAnew : LaidOut " le let\n\tlet".toList (tokens.map Token.word) (pieces [' '] [' '] ['\n', '\t']) [] := by
    refine ⟨?_, ?_, ?_, ?_⟩ <;> decide
  have apart : List.Forall₂ KeepsApart (pieces [] [] [' ']).tail (pieces [' '] [' '] ['\n', '\t']).tail :=
    .cons (fun h => absurd rfl h) (.cons (fun _ => List.cons_ne_nil _ _) .nil)
  obtain ⟨layoutIsFree, leaves⟩ := tokenize_relaid
  obtain ⟨relaid, answer, words⟩ :=
    layoutIsFree built (fun rule mem => leaves rule (.inr (plain rule mem))) answer laidOut laidAnew apart
  exact ⟨lexer, relaid, built, answer, words⟩

end Mini
