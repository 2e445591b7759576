import Mini.Proofs.Layout

/-!
# Texts joined by white space

`tokenize_joined`: when no automaton reads white space, two texts with a white-space character between them are tokenized
one after the other. The first text has its tokens or its error where it had them by itself; if it has tokens, those of
the second text follow, or its error, at positions counted from where the first text and the white space end
(`Position.within`).

Two facts carry this. A cut of the first text stays one when white space follows it, whatever comes behind
(`WellCut.blank_behind`), because such automata see no further than the next white space. And where a text starts makes
no difference to its tokens but for their positions (`tokensFrom_eq_within`), which holds of any rules.
-/

namespace Mini

/-! ## Positions in a longer text -/

namespace Position

/-- The position, in a longer text, of what stands at a position of a text that starts at `base` there. The first line
goes on in the line of `base`; the other lines keep their columns. -/
def within (base p : Position) : Position :=
  if p.line = 1 then ⟨p.line + base.line - 1, p.column + base.column - 1⟩ else ⟨p.line + base.line - 1, p.column⟩

theorem within_start (base : Position) : base.within start = base := by
  obtain ⟨line, column⟩ := base
  simp [within, start, Int.add_comm 1]

theorem line_within (base p : Position) : (base.within p).line = p.line + base.line - 1 := by
  unfold within
  split <;> rfl

theorem one_le_line_advance {p : Position} (h : 1 ≤ p.line) (c : Char) : 1 ≤ (p.advance c).line := by
  unfold advance
  split
  · exact Int.le_add_one h
  · exact h

theorem one_le_line_advanceOver {p : Position} (h : 1 ≤ p.line) (text : List Char) :
    1 ≤ (p.advanceOver text).line := by
  induction text generalizing p with
  | nil => exact h
  | cons c rest ih => exact ih (one_le_line_advance h c)

/-- From the first line on, one character moves a position alike in both texts. -/
theorem within_advance (base : Position) {p : Position} (h : 1 ≤ p.line) (c : Char) :
    base.within (p.advance c) = (base.within p).advance c := by
  by_cases newline : c = '\n'
  · -- The line behind a line feed is never the first.
    have next : p.line + 1 ≠ 1 := by omega
    have line : p.line + 1 + base.line - 1 = p.line + base.line - 1 + 1 := by omega
    rw [advance, if_pos newline, advance, if_pos newline, line_within, within, if_neg next, line]
  · rw [advance, if_neg newline, advance, if_neg newline, within, within]
    by_cases first : p.line = 1
    · have column : p.column + 1 + base.column - 1 = p.column + base.column - 1 + 1 := by omega
      rw [if_pos first, if_pos first, column]
    · rw [if_neg first, if_neg first]

theorem within_advanceOver (base : Position) {p : Position} (h : 1 ≤ p.line) (text : List Char) :
    base.within (p.advanceOver text) = (base.within p).advanceOver text := by
  induction text generalizing p with
  | nil => rfl
  | cons c rest ih =>
    rw [advanceOver_cons, advanceOver_cons, ih (one_le_line_advance h c), within_advance base h c]

/-- **Reading on from a position is reading from the start, counted from there.** -/
theorem advanceOver_eq_within (base : Position) (text : List Char) :
    base.advanceOver text = base.within (start.advanceOver text) := by
  rw [within_advanceOver base (Int.le_refl 1), within_start]

end Position

/-- A token of a text that starts at `base` in a longer text. -/
def Token.within (base : Position) (t : Token) : Token :=
  { t with position := base.within t.position }

/-- An error of a text that starts at `base` in a longer text. -/
def LexicalError.within (base : Position) (e : LexicalError) : LexicalError :=
  { e with position := base.within e.position }

/-- **Where pieces start shows in the positions of their tokens only.** -/
theorem tokensFrom_eq_within (base : Position) (pieces : List Piece) :
    tokensFrom base pieces = (tokensFrom .start pieces).map (Token.within base) := by
  -- The induction comes to pieces that start anywhere from the first line on.
  suffices h : ∀ p : Position, 1 ≤ p.line →
      tokensFrom (base.within p) pieces = (tokensFrom p pieces).map (Token.within base) by
    have := h .start (Int.le_refl 1)
    rwa [Position.within_start] at this
  intro p inside
  induction pieces generalizing p with
  | nil => rfl
  | cons q pieces ih =>
    rw [tokensFrom, tokensFrom, List.map_cons, ← Position.within_advanceOver base inside,
      ← Position.within_advanceOver base inside, ih _ (Position.one_le_line_advanceOver inside _)]
    rfl

/-! ## White space behind a text -/

section Behind

variable {rules : List Rule} {blank : Char}

/-- What white space hides does not show. -/
theorem visible_blank_behind (isBlank : Text.isBlank blank = true) (text more : List Char) :
    visible (text ++ blank :: more) = visible text := by
  induction text with
  | nil => exact List.takeWhile_cons_of_neg (by simp [isBlank])
  | cons c rest ih =>
    unfold visible at ih ⊢
    rw [List.cons_append, List.takeWhile_cons, List.takeWhile_cons, ih]

/-- **A cut stays one when white space follows, whatever comes behind.** -/
theorem WellCut.blank_behind (leaves : ∀ rule ∈ rules, rule.LeavesBlanks) (isBlank : Text.isBlank blank = true)
    {pieces : List Piece} {rest : List Char} (cut : WellCut rules pieces rest) (more : List Char) :
    WellCut rules pieces (rest ++ blank :: more) := by
  induction pieces with
  | nil => trivial
  | cons p pieces ih =>
    obtain ⟨gap, starts, next, others⟩ := cut
    have shown : visible (p.lexeme ++ (textOf pieces ++ (rest ++ blank :: more))) =
        visible (p.lexeme ++ (textOf pieces ++ rest)) := by
      rw [← List.append_assoc, ← List.append_assoc, visible_blank_behind isBlank, List.append_assoc]
    exact ⟨gap, starts, next.of_visible leaves (List.prefix_append _ _) (shown ▸ List.prefix_refl _), ih others⟩

/-- An illegal character stays one when white space follows. -/
theorem Illegal.blank_behind (leaves : ∀ rule ∈ rules, rule.LeavesBlanks) (isBlank : Text.isBlank blank = true)
    {c : Char} {rest : List Char} (illegal : Illegal rules c rest) (more : List Char) :
    Illegal rules c (rest ++ blank :: more) := by
  have shown : visible (c :: (rest ++ blank :: more)) = visible (c :: rest) :=
    visible_blank_behind isBlank (c :: rest) more
  refine ⟨illegal.1, fun rule mem isMatch => illegal.2 rule mem (isMatch.of_visible (leaves rule mem) ?_)⟩
  exact shown ▸ List.prefix_refl _

end Behind

/-! ## One text after the other -/

namespace Lexer

variable {rules : List Rule} {lexer : Lexer}

/-- A scan that starts anywhere finds the tokens of the text by itself, counted from there. -/
theorem scanFrom_of_tokenize_ok (built : ofRules rules = .ok lexer) {source : String} {tokens : List Token}
    (answer : lexer.tokenize source = .ok tokens) (base : Position) (found : List Token) :
    lexer.scanFrom base found source.toList = ⟨found.reverse ++ tokens.map (Token.within base), none⟩ := by
  obtain ⟨pieces, final, whole, cut, blank, rfl⟩ := (tokenize_eq_ok_iff built).mp answer
  rw [whole, scanFrom_pieces built cut, scanFrom_allBlank blank, tokensFrom_eq_within, List.reverse_append,
    List.reverse_reverse]

/-- A scan that starts anywhere ends at the error of the text by itself, counted from there. -/
theorem illegal_scanFrom_of_tokenize_error (built : ofRules rules = .ok lexer) {source : String} {e : LexicalError}
    (answer : lexer.tokenize source = .error e) (base : Position) (found : List Token) :
    (lexer.scanFrom base found source.toList).illegal = some (e.within base) := by
  obtain ⟨pieces, gap, rest, whole, cut, blank, illegal, place⟩ := (tokenize_eq_error_iff built).mp answer
  have unmatched : lexer.match? (e.character :: rest) = none := (match?_eq_none_iff built).mpr illegal.2
  rw [whole, scanFrom_pieces built cut, scanFrom_gap blank, scanFrom_illegal illegal.1 unmatched,
    ← Position.advanceOver_append, Position.advanceOver_eq_within, ← place]
  rfl

theorem tokenize_eq_ok_of_scan {source : String} {tokens : List Token} (h : lexer.scan source = ⟨tokens, none⟩) :
    lexer.tokenize source = .ok tokens := by
  rw [tokenize, h]

theorem tokenize_eq_error_of_scan {source : String} {e : LexicalError} (h : (lexer.scan source).illegal = some e) :
    lexer.tokenize source = .error e := by
  cases scanned : lexer.scan source with
  | mk tokens illegal =>
    rw [scanned] at h
    cases h
    rw [tokenize, scanned]

/-- **A scan of joined texts comes to the second with the tokens of the first.** -/
theorem scan_joined (built : ofRules rules = .ok lexer) (leaves : ∀ rule ∈ rules, rule.LeavesBlanks) {blank : Char}
    (isBlank : Text.isBlank blank = true) {first : String} {tokens : List Token}
    (answer : lexer.tokenize first = .ok tokens) (second : String) :
    lexer.scan (first ++ String.singleton blank ++ second) =
      lexer.scanFrom (Position.start.advanceOver (first.toList ++ [blank])) tokens.reverse second.toList := by
  obtain ⟨pieces, final, whole, cut, blankFinal, rfl⟩ := (tokenize_eq_ok_iff built).mp answer
  have gap : AllBlank (final ++ [blank]) :=
    List.forall_mem_append.mpr ⟨blankFinal, List.forall_mem_singleton.mpr isBlank⟩
  have joined : (first ++ String.singleton blank ++ second).toList =
      textOf pieces ++ (final ++ blank :: second.toList) := by
    simp [whole]
  have split : final ++ blank :: second.toList = (final ++ [blank]) ++ second.toList := by simp
  rw [scan, joined, scanFrom_pieces built (cut.blank_behind leaves isBlank second.toList), split, scanFrom_gap gap,
    ← Position.advanceOver_append, List.append_nil, whole, List.append_assoc]

end Lexer

/-- **Tokenizing is compositional at white space.** If no rule reads white space, joining two texts by a white-space
character keeps the error of the first text, and otherwise its tokens, and these are followed by the tokens or the
error of the second text, at positions counted from where the first text and the white space end. -/
theorem tokenize_joined {rules : List Rule} {lexer : Lexer} (built : Lexer.ofRules rules = .ok lexer)
    (leaves : ∀ rule ∈ rules, rule.LeavesBlanks) {blank : Char} (isBlank : Text.isBlank blank = true)
    (first second : String) :
    let joined := first ++ String.singleton blank ++ second
    let base := Position.start.advanceOver (first.toList ++ [blank])
    (∀ e, lexer.tokenize first = .error e → lexer.tokenize joined = .error e) ∧
    ∀ tokens, lexer.tokenize first = .ok tokens →
      (∀ more, lexer.tokenize second = .ok more →
        lexer.tokenize joined = .ok (tokens ++ more.map (Token.within base))) ∧
      (∀ e, lexer.tokenize second = .error e → lexer.tokenize joined = .error (e.within base)) := by
  intro joined base
  refine ⟨fun e answer => ?_, fun tokens answer => ⟨fun more answerSecond => ?_, fun e answerSecond => ?_⟩⟩
  · obtain ⟨pieces, gap, rest, whole, cut, blankGap, illegal, place⟩ := (Lexer.tokenize_eq_error_iff built).mp answer
    have longer : gap ++ e.character :: (rest ++ blank :: second.toList) =
        (gap ++ e.character :: rest) ++ blank :: second.toList := by simp
    refine (Lexer.tokenize_eq_error_iff built).mpr
      ⟨pieces, gap, rest ++ blank :: second.toList, ?_, ?_, blankGap, illegal.blank_behind leaves isBlank _, place⟩
    · simp [joined, whole]
    · rw [longer]
      exact cut.blank_behind leaves isBlank second.toList
  · have scanned := Lexer.scan_joined built leaves isBlank answer second
    rw [Lexer.scanFrom_of_tokenize_ok built answerSecond, List.reverse_reverse] at scanned
    exact Lexer.tokenize_eq_ok_of_scan scanned
  · have scanned := Lexer.scan_joined built leaves isBlank answer second
    refine Lexer.tokenize_eq_error_of_scan ?_
    rw [scanned, Lexer.illegal_scanFrom_of_tokenize_error built answerSecond]

/-- Two texts of two lines each: the first line of the second goes on in the last line of the first. -/
theorem tokenize_joined_lines :
    let rules : List Rule := [⟨.keyword, Automaton.keyword "let", 0⟩]
    ∃ lexer, Lexer.ofRules rules = .ok lexer ∧
      lexer.tokenize "let\n let let\n let" =
        .ok [⟨.keyword, "let", ⟨1, 1⟩⟩, ⟨.keyword, "let", ⟨2, 2⟩⟩, ⟨.keyword, "let", ⟨2, 6⟩⟩, ⟨.keyword, "let", ⟨3, 2⟩⟩] := by
  intro rules
  have plain : ∀ c ∈ "let".toList, Text.isBlank c = false :=
    List.forall_mem_cons.mpr ⟨rfl, List.forall_mem_cons.mpr ⟨rfl, List.forall_mem_singleton.mpr rfl⟩⟩
  have leaves : ∀ rule ∈ rules, rule.LeavesBlanks :=
    List.forall_mem_singleton.mpr (Rule.leavesBlanks_of_keyword rfl plain)
  have scanned : tokenizeWith rules "let\n let" =
      .ok [⟨.keyword, "let", ⟨1, 1⟩⟩, ⟨.keyword, "let", ⟨2, 2⟩⟩] := by decide +kernel
  obtain ⟨lexer, built, answer⟩ := tokenizeWith_eq_ok_iff.mp scanned
  have space : Text.isBlank ' ' = true := rfl
  obtain ⟨_, joins⟩ := tokenize_joined built leaves space "let\n let" "let\n let"
  exact ⟨lexer, built, (joins _ answer).1 _ answer⟩

end Mini
