import Mini.Proofs.Joined
import Mini.Proofs.Keyword
import Mini.Proofs.RoundTrip

/-!
# A keyword among names

`tokenize_recut`: when a rule for a keyword is added above the standard rules, every text that had tokens still has some,
and they are the same but for the names. Each name is cut anew, and as it would be cut by itself.

What is left of a name behind a keyword need not be a name: it may begin with digits, which then are an integer. But it
consists of the characters of names, and so does every rest of it (`exists_nextToken_of_nameParts`). No token that is
cut from such characters grows beyond them if neither another one nor a point follows (`EndsName`), and behind a name
there is never either. So a name is cut inside its bounds, whatever follows it (`exists_cut_of_nameParts`). The
tokens that are not names begin with no letter, and there the keyword plays no part.
-/

namespace Mini

/-! ## The ends of names -/

/-- Whether neither a name nor the fraction of a number goes on with a text. -/
def EndsName (after : List Char) : Prop :=
  ∀ c ∈ after.head?, isNamePart c = false ∧ c ≠ '.'

theorem isBlank_eq_false_of_isNamePart {c : Char} (h : isNamePart c = true) : Text.isBlank c = false := by
  refine Bool.eq_false_iff.mpr fun blank => ?_
  exact Bool.noConfusion (h.symm.trans (Kind.growsBy_eq_false_of_isBlank blank .identifier))

/-- Where the text ends, a name does. -/
theorem endsName_nil : EndsName [] := by
  intro c mem
  cases mem

/-- A word of name characters at the beginning of a name does not reach beyond its end. -/
theorem prefix_of_endsName {word text after : List Char} (parts : ∀ c ∈ word, isNamePart c = true)
    (ends : EndsName after) (begins : word <+: text ++ after) : word <+: text := by
  rcases List.prefix_or_prefix_of_prefix begins (List.prefix_append text after) with inside | ⟨more, rfl⟩
  · exact inside
  · cases more with
    | nil => simp
    | cons c more =>
      obtain ⟨rest, rfl⟩ := (List.prefix_append_right_inj text).mp begins
      have part := parts c (by simp)
      rw [(ends c rfl).1] at part
      cases part

/-- No token of the Mini language begins with a point, and no white space is one. -/
theorem WellCut.head?_ne_point {pieces : List Piece} {final : List Char} (cut : WellCut Rule.standard pieces final)
    (blank : AllBlank final) : ∀ c ∈ (textOf pieces ++ final).head?, c ≠ '.' := by
  rintro _ mem rfl
  have notBlank : ∀ {gap : List Char}, AllBlank gap → '.' ∉ gap := fun blank mem => Bool.noConfusion (blank '.' mem)
  cases pieces with
  | nil => exact notBlank blank (List.mem_of_mem_head? mem)
  | cons p pieces =>
    obtain ⟨blankGap, _, next, _⟩ := cut
    rw [textOf_cons_append] at mem
    cases gap : p.gap with
    | cons d gap =>
      rw [gap] at mem blankGap
      exact notBlank blankGap (Option.some.inj mem ▸ List.mem_cons_self)
    | nil =>
      obtain ⟨c, rest, lexeme, starts⟩ := (nextToken_standard_iff.mp next).1.exists_starts
      rw [gap, lexeme] at mem
      obtain rfl : c = '.' := Option.some.inj mem
      cases kind : p.kind <;> rw [kind] at starts <;> cases starts

/-! ## Tokens in one line -/

/-- A token moved to a line, its column counted from where it is moved to. -/
def Token.shifted (base : Position) (t : Token) : Token :=
  { t with position := ⟨base.line, t.position.column + (base.column - 1)⟩ }

theorem Position.line_advanceOver {text : List Char} (noFeed : '\n' ∉ text) (p : Position) :
    (p.advanceOver text).line = p.line := by
  induction text generalizing p with
  | nil => rfl
  | cons c rest ih =>
    rw [List.mem_cons, not_or] at noFeed
    rw [advanceOver_cons, ih noFeed.2, advance, if_neg (Ne.symm noFeed.1)]

/-- Where a text has no line feed, all its tokens are in one line. -/
theorem line_of_mem_tokensFrom {pieces : List Piece} (noFeed : '\n' ∉ textOf pieces) (p : Position) :
    ∀ t ∈ tokensFrom p pieces, t.position.line = p.line := by
  induction pieces generalizing p with
  | nil => exact List.forall_mem_nil _
  | cons q pieces ih =>
    rw [textOf_cons, ← List.append_assoc, List.mem_append, not_or] at noFeed
    have noFeedGap : '\n' ∉ q.gap := fun mem => noFeed.1 (List.mem_append_left _ mem)
    rw [tokensFrom, List.forall_mem_cons]
    refine ⟨Position.line_advanceOver noFeedGap p, fun t mem => ?_⟩
    rw [ih noFeed.2 _ t mem, Position.line_advanceOver noFeed.1]

theorem Token.within_eq_shifted {t : Token} (first : t.position.line = 1) (base : Position) :
    t.within base = t.shifted base := by
  rw [within, shifted, Position.within, if_pos first, first]
  congr 2 <;> omega

/-- What a lexer makes of a token that was cut by other rules: the tokens of its lexeme, moved to where the token is, if
it is a name, and else the token. -/
def Lexer.recut (lexer : Lexer) (t : Token) : List Token :=
  if t.kind = .identifier then (lexer.scan t.lexeme).tokens.map (Token.shifted t.position) else [t]

/-! ## Names are cut inside their bounds -/

/-- **Under the standard rules, the next token of name characters** is the name that they are, or the digits that they
begin with. -/
theorem exists_nextToken_standard_of_nameParts {text : List Char} (parts : ∀ c ∈ text, isNamePart c = true)
    (nonempty : text ≠ []) :
    ∃ kind lexeme rest, text = lexeme ++ rest ∧
      ∀ after, EndsName after → NextToken Rule.standard (lexeme ++ (rest ++ after)) kind lexeme := by
  obtain ⟨c, more, rfl⟩ := List.exists_cons_of_ne_nil nonempty
  obtain ⟨part, partsMore⟩ := List.forall_mem_cons.mp parts
  rcases (Bool.or_eq_true _ _).mp part with start | digit
  · refine ⟨.identifier, c :: more, [], (List.append_nil _).symm, fun after ends => nextToken_standard_iff.mpr ?_⟩
    exact ⟨isName_cons_iff.mpr ⟨start, partsMore⟩, fun d mem => (ends d mem).1, fun impossible => Kind.noConfusion impossible⟩
  · obtain ⟨digits, rest, rfl, all, stops⟩ := exists_run Char.isDigit more
    have partsRest := (List.forall_mem_append.mp partsMore).2
    refine ⟨.integer, c :: digits, rest, rfl, fun after ends => nextToken_standard_iff.mpr ?_⟩
    refine ⟨isNumeral_cons_iff.mpr ⟨digit, all⟩, fun d mem => ?_, fun _ => ?_⟩
    · cases rest with
      | nil => exact (Bool.or_eq_false_iff.mp (ends d mem).1).2
      | cons e rest => exact stops d mem
    · rintro ⟨d, behind, eq, _⟩
      cases rest with
      | nil =>
        subst eq
        exact (ends '.' rfl).2 rfl
      | cons e rest =>
        obtain rfl := (List.cons.inj eq).1
        exact Bool.noConfusion (partsRest '.' List.mem_cons_self)

section Added

variable {word : String} {priority : Int} {front back : List Rule} (isName : IsName word.toList)
  (above : 50 < priority) (standard : front ++ back = Rule.standard)

include isName above standard

/-- The same with a rule for a keyword: the next token may be the keyword. -/
theorem exists_nextToken_of_nameParts {text : List Char} (parts : ∀ c ∈ text, isNamePart c = true)
    (nonempty : text ≠ []) :
    ∃ kind lexeme rest, text = lexeme ++ rest ∧ ∀ after, EndsName after →
      NextToken (front ++ Rule.forKeyword word priority :: back) (lexeme ++ (rest ++ after)) kind lexeme := by
  by_cases begins : word.toList <+: text
  · obtain ⟨rest, rfl⟩ := begins
    refine ⟨.keyword, word.toList, rest, rfl, fun after _ => ?_⟩
    exact (nextToken_keyword_iff isName.ne_nil above standard).mpr (.inl ⟨List.prefix_append _ _, rfl, rfl⟩)
  · obtain ⟨kind, lexeme, rest, rfl, next⟩ := exists_nextToken_standard_of_nameParts parts nonempty
    refine ⟨kind, lexeme, rest, rfl, fun after ends => ?_⟩
    refine (nextToken_keyword_iff isName.ne_nil above standard).mpr (.inr ⟨fun beginsAll => begins ?_, next after ends⟩)
    rw [← List.append_assoc] at beginsAll
    exact prefix_of_endsName isName.parts ends beginsAll

/-- **Name characters are cut to their end, and in one way whatever follows them.** -/
theorem exists_cut_of_nameParts {text : List Char} (parts : ∀ c ∈ text, isNamePart c = true) :
    ∃ pieces, textOf pieces = text ∧ ∀ after, EndsName after →
      WellCut (front ++ Rule.forKeyword word priority :: back) pieces after := by
  -- What is left behind a token need not be a name, so the induction is over all texts of name characters.
  induction length : text.length using Nat.strongRecOn generalizing text with
  | ind n ih =>
    by_cases nothing : text = []
    · exact ⟨[], nothing.symm, fun _ _ => trivial⟩
    · obtain ⟨kind, lexeme, rest, rfl, next⟩ := exists_nextToken_of_nameParts isName above standard parts nothing
      obtain ⟨partsLexeme, partsRest⟩ := List.forall_mem_append.mp parts
      have shorter : rest.length < n := by
        have := List.length_pos_iff.mpr (next [] endsName_nil).ne_nil
        rw [← length, List.length_append]
        omega
      obtain ⟨pieces, rfl, cut⟩ := ih _ shorter partsRest rfl
      refine ⟨⟨[], kind, lexeme⟩ :: pieces, textOf_cons _ _, fun after ends => ?_⟩
      refine ⟨List.forall_mem_nil _, fun c mem => ?_, next after ends, cut after ends⟩
      exact isBlank_eq_false_of_isNamePart (partsLexeme c (List.mem_of_mem_head? mem))

/-- A token that is not a name stays the next one. -/
theorem keeps_nextToken_of_ne_identifier {kind : Kind} {lexeme after : List Char}
    (next : NextToken Rule.standard (lexeme ++ after) kind lexeme) (other : kind ≠ .identifier) :
    NextToken (front ++ Rule.forKeyword word priority :: back) (lexeme ++ after) kind lexeme := by
  refine (nextToken_keyword_iff isName.ne_nil above standard).mpr (.inr ⟨fun begins => ?_, next⟩)
  obtain ⟨c, rest, wordEq, start, _⟩ := isName
  obtain ⟨d, more, rfl, starts⟩ := (nextToken_standard_iff.mp next).1.exists_starts
  rw [wordEq] at begins
  obtain rfl : c = d := (List.cons_prefix_cons.mp begins).1
  have startName : Kind.identifier.starts c = true := start
  rcases Kind.eq_or_number startName starts with same | ⟨impossible, _⟩
  · exact other same.symm
  · cases impossible

/-! ## Names cut anew -/

namespace Lexer

variable {lexer : Lexer} (built : ofRules (front ++ Rule.forKeyword word priority :: back) = .ok lexer)

include built

/-- Name characters have tokens. -/
theorem tokenize_nameParts {name : String}
    (parts : ∀ c ∈ name.toList, isNamePart c = true) : lexer.tokenize name = .ok (lexer.scan name).tokens := by
  obtain ⟨pieces, whole, cut⟩ := exists_cut_of_nameParts isName above standard parts
  have scanned : lexer.scan name = ⟨tokensFrom .start pieces, none⟩ :=
    scan_of_cut built (by rw [whole, List.append_nil]) (cut [] endsName_nil) (List.forall_mem_nil _)
  rw [tokenize, scanned]

/-- **A name is cut as by itself, wherever it stands.** -/
theorem scanFrom_name {name after : List Char}
    (parts : ∀ c ∈ name, isNamePart c = true) (ends : EndsName after) (base : Position) (found : List Token) :
    lexer.scanFrom base found (name ++ after) =
      lexer.scanFrom (base.advanceOver name)
        (((lexer.scan (String.ofList name)).tokens.map (Token.shifted base)).reverse ++ found) after := by
  obtain ⟨pieces, rfl, cut⟩ := exists_cut_of_nameParts isName above standard parts
  have alone : lexer.scan (String.ofList (textOf pieces)) = ⟨tokensFrom .start pieces, none⟩ :=
    scan_of_cut built (by simp) (cut [] endsName_nil) (List.forall_mem_nil _)
  have noFeed : '\n' ∉ textOf pieces := fun mem =>
    Bool.noConfusion (isBlank_eq_false_of_isNamePart (parts '\n' mem))
  have moved : tokensFrom base pieces = (tokensFrom .start pieces).map (Token.shifted base) := by
    rw [tokensFrom_eq_within]
    exact List.map_congr_left fun t mem => Token.within_eq_shifted (line_of_mem_tokensFrom noFeed .start t mem) base
  rw [scanFrom_pieces built (cut after ends), alone, moved]

/-- **A text that was cut by the standard rules is cut by those and a keyword as it was, its names cut anew.** -/
theorem scanFrom_recut {pieces : List Piece}
    {final : List Char} (cut : WellCut Rule.standard pieces final) (blank : AllBlank final) (position : Position)
    (found : List Token) :
    lexer.scanFrom position found (textOf pieces ++ final) =
      ⟨found.reverse ++ (tokensFrom position pieces).flatMap lexer.recut, none⟩ := by
  induction pieces generalizing position found with
  | nil =>
    rw [tokensFrom, List.flatMap_nil, List.append_nil]
    exact scanFrom_allBlank blank position found
  | cons p pieces ih =>
    obtain ⟨blankGap, starts, next, others⟩ := cut
    rw [textOf_cons_append, scanFrom_gap blankGap, tokensFrom, List.flatMap_cons, Position.advanceOver_append]
    by_cases isIdentifier : p.kind = .identifier
    · rw [isIdentifier] at next
      obtain ⟨isNamePiece, stops, _⟩ := nextToken_standard_iff.mp next
      have ends : EndsName (textOf pieces ++ final) := fun c mem => ⟨stops c mem, others.head?_ne_point blank c mem⟩
      rw [scanFrom_name isName above standard built (IsName.parts isNamePiece) ends, ih others, recut, if_pos isIdentifier]
      simp
    · have stays := keeps_nextToken_of_ne_identifier isName above standard next isIdentifier
      rw [scanFrom_nextToken built starts stays, ih others, recut, if_neg isIdentifier]
      simp

end Lexer

end Added

/-- **Adding a keyword only cuts names anew.** If a text has tokens, it also has some when a rule for a keyword is added
to the standard rules, at any place and with a priority above theirs. The lexeme of every name then has tokens of
its own; these take the place of the name, moved to where it stands, and the other tokens stay what they are. -/
theorem tokenize_recut {word : String} (isName : IsName word.toList) {priority : Int} (above : 50 < priority)
    {front back : List Rule} (standard : front ++ back = Rule.standard) {source : String} {tokens : List Token}
    (answer : tokenize source = .ok tokens) :
    let rules := front ++ Rule.forKeyword word priority :: back
    ∃ parts : Token → List Token,
      (∀ t ∈ tokens, t.kind = .identifier → tokenizeWith rules t.lexeme = .ok (parts t)) ∧
      tokenizeWith rules source = .ok (tokens.flatMap fun t =>
        if t.kind = .identifier then (parts t).map (Token.shifted t.position) else [t]) := by
  intro rules
  have recognizers : ∀ rule ∈ rules, ∃ a, rule.automaton = .ok a := by
    intro rule mem
    rcases (Rule.mem_added_iff standard).mp mem with rfl | mem
    · obtain ⟨a, built, _⟩ := Automaton.keyword_recognizes isName.ne_nil
      exact ⟨a, built⟩
    · obtain ⟨a, built, _⟩ := Rule.standard_recognizes rule mem
      exact ⟨a, built⟩
  obtain ⟨lexer, built⟩ := Lexer.exists_ofRules recognizers
  obtain ⟨standardLexer, builtStandard, answer⟩ := tokenizeWith_eq_ok_iff.mp answer
  refine ⟨fun t => (lexer.scan t.lexeme).tokens, fun t mem isIdentifier => ?_, ?_⟩
  · have written : t.kind.IsWord t.lexeme.toList := isWritten_of_tokenize builtStandard answer t mem
    rw [isIdentifier] at written
    exact tokenizeWith_eq_ok_iff.mpr ⟨lexer, built, Lexer.tokenize_nameParts isName above standard built written.parts⟩
  · obtain ⟨pieces, final, whole, cut, blank, rfl⟩ := (Lexer.tokenize_eq_ok_iff builtStandard).mp answer
    have scanned := Lexer.scanFrom_recut isName above standard built cut blank .start []
    rw [← whole] at scanned
    exact tokenizeWith_eq_ok_iff.mpr ⟨lexer, built, Lexer.tokenize_eq_ok_of_scan scanned⟩

/-- The keyword takes the beginning of a name and leaves its digits, wherever the name stands. -/
theorem tokenize_recut_twice :
    let rules : List Rule := Rule.forKeyword "let" 51 :: Rule.standard
    ∃ parts, tokenizeWith rules "let12" = .ok parts ∧
      tokenizeWith rules "let12 := let12" =
        .ok (parts.map (Token.shifted ⟨1, 1⟩) ++ ⟨.assignment, ":=", ⟨1, 7⟩⟩ :: parts.map (Token.shifted ⟨1, 10⟩)) := by
  intro rules
  let first : Token := ⟨.identifier, "let12", ⟨1, 1⟩⟩
  let sign : Token := ⟨.assignment, ":=", ⟨1, 7⟩⟩
  let second : Token := ⟨.identifier, "let12", ⟨1, 10⟩⟩
  have name : IsName "let12".toList := isName_cons_iff.mpr ⟨rfl, List.all_eq_true.mp rfl⟩
  have signWritten : sign.IsWritten := (rfl : ":=".toList = [':', '='])
  have written : ∀ t ∈ [first, sign, second], t.IsWritten :=
    List.forall_mem_cons.mpr ⟨name, List.forall_mem_cons.mpr ⟨signWritten, List.forall_mem_singleton.mpr name⟩⟩
  have answer : tokenize "let12 := let12" = .ok [first, sign, second] := by
    obtain ⟨lexer, built⟩ := Lexer.exists_standard
    refine tokenizeWith_eq_ok_iff.mpr ⟨lexer, built, (Lexer.tokenize_eq_ok_iff built).mpr ?_⟩
    exact ⟨spaced [first, sign, second], [], by decide, wellCut_spaced written, List.forall_mem_nil _, by decide⟩
  have keyword : IsName "let".toList := isName_cons_iff.mpr ⟨rfl, List.all_eq_true.mp rfl⟩
  have above : (50 : Int) < 51 := by decide
  have standard : [] ++ Rule.standard = Rule.standard := rfl
  obtain ⟨parts, alone, whole⟩ := tokenize_recut keyword above standard answer
  have aloneFirst := alone first (by simp) rfl
  have same : parts second = parts first := Except.ok.inj ((alone second (by simp) rfl).symm.trans aloneFirst)
  refine ⟨parts first, aloneFirst, whole.trans ?_⟩
  simp [first, sign, second, same]

end Mini
