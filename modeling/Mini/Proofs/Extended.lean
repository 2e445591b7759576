import Mini.Proofs.Place
import Mini.Proofs.StandardToken

/-!
# Rules added behind

`tokenize_extended`: rules that are listed behind others and have no higher priority are heard only where the others have
nothing to say. A text that has tokens keeps them. A text with an illegal character keeps the tokens before it; the
character stays illegal, or one of the added rules gives a token there, and then whatever is illegal comes later.

Whether a rule comes first is decided among the rules that match (`FirstByPriority`), so one that comes first still does
when rules are added behind it (`FirstByPriority.append`), also those of its own priority. Hence every cut by the rules is a
cut by all of them (`WellCut.append_rules`): the two scans go in step up to the first character that the rules cannot read,
and from there on the longer list cuts by itself (`Lexer.scan_past`).
-/

namespace Mini

/-! ## Cuts one behind the other -/

theorem textOf_append (pieces others : List Piece) : textOf (pieces ++ others) = textOf pieces ++ textOf others :=
  List.flatMap_append

theorem tokensFrom_append (position : Position) (pieces others : List Piece) :
    tokensFrom position (pieces ++ others) =
      tokensFrom position pieces ++ tokensFrom (position.advanceOver (textOf pieces)) others := by
  induction pieces generalizing position with
  | nil => rfl
  | cons p pieces ih =>
    rw [List.cons_append, tokensFrom, tokensFrom, ih, List.cons_append, textOf_cons, ← List.append_assoc,
      ← Position.advanceOver_append]

theorem WellCut.append {rules : List Rule} {pieces others : List Piece} {rest : List Char}
    (cut : WellCut rules pieces (textOf others ++ rest)) (behind : WellCut rules others rest) :
    WellCut rules (pieces ++ others) rest := by
  induction pieces with
  | nil => exact behind
  | cons p pieces ih =>
    obtain ⟨blank, starts, next, cut⟩ := cut
    rw [← List.append_assoc (textOf pieces), ← textOf_append] at next
    exact ⟨blank, starts, next, ih cut⟩

/-! ## Rules behind rules -/

section Added

variable {rules more : List Rule} {text lexeme : List Char} {kind : Kind}

/-- What comes first by priority still does with others behind it that are no higher. -/
theorem FirstByPriority.append {property : Rule → Prop} {rule : Rule} (first : FirstByPriority property rules rule)
    (low : ∀ added ∈ more, ∀ rule ∈ rules, added.priority ≤ rule.priority) :
    FirstByPriority property (rules ++ more) rule := by
  obtain ⟨before, after, rfl, has, earlier, later⟩ := first
  have split : before ++ rule :: after ++ more = before ++ rule :: (after ++ more) := by
    rw [List.append_assoc, List.cons_append]
  refine ⟨before, after ++ more, split, has, earlier, fun other mem hasOther => ?_⟩
  rcases List.mem_append.mp mem with mem | mem
  · exact later other mem hasOther
  · exact low other mem rule (List.mem_append_right before List.mem_cons_self)

theorem NextToken.append_rules (next : NextToken rules text kind lexeme)
    (low : ∀ added ∈ more, ∀ rule ∈ rules, added.priority ≤ rule.priority) :
    NextToken (rules ++ more) text kind lexeme := by
  obtain ⟨rule, chosen, isKind, longest⟩ := next
  exact ⟨rule, chosen.append low, isKind, longest⟩

/-- **A cut stays one with rules behind.** -/
theorem WellCut.append_rules {pieces : List Piece} {rest : List Char} (cut : WellCut rules pieces rest)
    (low : ∀ added ∈ more, ∀ rule ∈ rules, added.priority ≤ rule.priority) : WellCut (rules ++ more) pieces rest := by
  induction pieces with
  | nil => trivial
  | cons p pieces ih =>
    obtain ⟨blank, starts, next, cut⟩ := cut
    exact ⟨blank, starts, next.append_rules low, ih cut⟩

end Added

/-! ## Past the first illegal character -/

/-- Whether an error is about the character at an offset of a text. -/
def LexicalError.IsAt (e : LexicalError) (text : List Char) (offset : Nat) : Prop :=
  text[offset]? = some e.character ∧ e.position = .atOffset text offset

theorem LexicalError.isAt_of_split {e : LexicalError} {text front rest : List Char}
    (split : text = front ++ e.character :: rest) (place : e.position = Position.start.advanceOver front) :
    e.IsAt text front.length := by
  refine ⟨?_, ?_⟩
  · rw [split, List.getElem?_append_right (Nat.le_refl _), Nat.sub_self]
    rfl
  · rw [place, split, Position.atOffset_append]

/-- Among tokens that stand one behind the other, those before a token are the ones listed before it. -/
theorem filter_before {front behind : List Token} {t : Token}
    (forward : (front ++ t :: behind).Pairwise fun t u => t.position.Before u.position) :
    (front ++ t :: behind).filter (·.position.Before t.position) = front := by
  obtain ⟨_, fromHere, across⟩ := List.pairwise_append.mp forward
  have before : ∀ u ∈ front, decide (u.position.Before t.position) = true := fun u mem =>
    decide_eq_true (across u mem t List.mem_cons_self)
  have notBefore : ∀ u ∈ t :: behind, ¬ decide (u.position.Before t.position) = true := by
    intro u mem isBefore
    have isBefore := of_decide_eq_true isBefore
    rcases List.mem_cons.mp mem with rfl | mem
    · exact isBefore.ne rfl
    · exact (isBefore.trans ((List.pairwise_cons.mp fromHere).1 u mem)).ne rfl
  rw [List.filter_append, List.filter_eq_self.mpr before, List.filter_eq_nil_iff.mpr notBefore, List.append_nil]

namespace Lexer

variable {rules : List Rule} {lexer : Lexer} {source : String}

/-- Whether a scan finds a token whose lexeme starts at an offset of a text. -/
def FindsAt (lexer : Lexer) (source : String) (offset : Nat) : Prop :=
  ∃ t ∈ (lexer.scan source).tokens, t.lexeme.toList <+: source.toList.drop offset ∧
    t.position = .atOffset source.toList offset

/-- **A scan that has come to a lexeme goes past it.** The tokens found before stay, the lexeme gives the next one, and an
illegal character stands behind its beginning. -/
theorem scan_past (built : ofRules rules = .ok lexer) {pieces : List Piece} {gap lexeme after : List Char} {kind : Kind}
    (whole : source.toList = textOf pieces ++ (gap ++ (lexeme ++ after)))
    (cut : WellCut rules pieces (gap ++ (lexeme ++ after))) (blank : AllBlank gap)
    (starts : ∀ c ∈ lexeme.head?, Text.isBlank c = false) (next : NextToken rules (lexeme ++ after) kind lexeme) :
    ∃ behind illegal,
      let here : Token := ⟨kind, String.ofList lexeme, Position.start.advanceOver (textOf pieces ++ gap)⟩
      lexer.scan source = ⟨tokensFrom .start pieces ++ here :: behind, illegal⟩ ∧
      (tokensFrom .start pieces ++ here :: behind).Pairwise (fun t u => t.position.Before u.position) ∧
      ∀ e ∈ illegal, ∃ further, (textOf pieces ++ gap).length < further ∧ e.IsAt source.toList further := by
  obtain ⟨others, rest, rfl, cutOthers, ending⟩ := exists_cut built after
  have longer : WellCut rules (pieces ++ ⟨gap, kind, lexeme⟩ :: others) rest := by
    refine WellCut.append ?_ ⟨blank, starts, next, cutOthers⟩
    rwa [textOf_cons_append]
  have split : source.toList = textOf (pieces ++ ⟨gap, kind, lexeme⟩ :: others) ++ rest := by
    rw [whole, textOf_append, List.append_assoc, textOf_cons_append]
  have forward := pairwise_tokensFrom longer .start
  have tokens := tokensFrom_append .start pieces (⟨gap, kind, lexeme⟩ :: others)
  rw [tokensFrom, ← Position.advanceOver_append] at tokens
  rcases ending with blankRest | ⟨gapRest, c, more, rfl, blankRest, illegal⟩
  · have scanned := scan_of_cut built split longer blankRest
    rw [tokens] at scanned forward
    exact ⟨_, none, scanned, forward, fun e mem => absurd mem (Option.not_mem_none e)⟩
  · have scanned := scan_of_illegal built split longer blankRest illegal
    rw [tokens] at scanned forward
    refine ⟨_, _, scanned, forward, fun e mem => ?_⟩
    obtain rfl := Option.some.inj mem
    have lexemeLength := List.length_pos_iff.mpr next.ne_nil
    refine ⟨_, ?_, LexicalError.isAt_of_split (split.trans (List.append_assoc _ _ _).symm) rfl⟩
    simp only [textOf_append, textOf_cons, List.length_append]
    omega

theorem tokens_scan_of_tokenize_ok {tokens : List Token} (answer : lexer.tokenize source = .ok tokens) :
    (lexer.scan source).tokens = tokens := by
  cases scanned : lexer.scan source with
  | mk found illegal =>
    rw [tokenize, scanned] at answer
    cases illegal with
    | none => exact Except.ok.inj answer
    | some e => cases answer

theorem illegal_scan_of_tokenize_error {e : LexicalError} (answer : lexer.tokenize source = .error e) :
    (lexer.scan source).illegal = some e := by
  cases scanned : lexer.scan source with
  | mk found illegal =>
    rw [tokenize, scanned] at answer
    cases illegal with
    | none => cases answer
    | some other => exact congrArg some (Except.error.inj answer)

end Lexer

/-- **Rules behind extend a lexer conservatively.** With rules of no higher priority listed behind, a text that has
tokens keeps them. Where the rules end at an illegal character, it stays the error of the text, or a lexeme starts there:
then the tokens before it are those that the rules had found, and an error of the text is about a later character. -/
theorem tokenize_extended {rules more : List Rule} (built : ∀ rule ∈ rules ++ more, ∃ a, rule.automaton = .ok a)
    (low : ∀ added ∈ more, ∀ rule ∈ rules, added.priority ≤ rule.priority) :
    ∃ lexer extended, Lexer.ofRules rules = .ok lexer ∧ Lexer.ofRules (rules ++ more) = .ok extended ∧
      ∀ source,
        (∀ tokens, lexer.tokenize source = .ok tokens → extended.tokenize source = .ok tokens) ∧
        ∀ e, lexer.tokenize source = .error e → ∃ offset, e.IsAt source.toList offset ∧
          (extended.tokenize source = .error e ∨
            extended.FindsAt source offset ∧
            (∀ tokens, extended.tokenize source = .ok tokens →
              tokens.filter (·.position.Before e.position) = (lexer.scan source).tokens) ∧
            ∀ other, extended.tokenize source = .error other →
              ∃ further, offset < further ∧ other.IsAt source.toList further) := by
  obtain ⟨lexer, builtLexer⟩ := Lexer.exists_ofRules fun rule mem => built rule (List.mem_append_left more mem)
  obtain ⟨extended, builtExtended⟩ := Lexer.exists_ofRules built
  refine ⟨lexer, extended, builtLexer, builtExtended, fun source => ⟨fun tokens answer => ?_, fun e answer => ?_⟩⟩
  · obtain ⟨pieces, final, whole, cut, blank, rfl⟩ := (Lexer.tokenize_eq_ok_iff builtLexer).mp answer
    exact (Lexer.tokenize_eq_ok_iff builtExtended).mpr ⟨pieces, final, whole, cut.append_rules low, blank, rfl⟩
  · obtain ⟨pieces, gap, rest, whole, cut, blank, illegal, place⟩ := (Lexer.tokenize_eq_error_iff builtLexer).mp answer
    have split : source.toList = (textOf pieces ++ gap) ++ e.character :: rest := by rw [whole, List.append_assoc]
    have isAt := LexicalError.isAt_of_split split place
    have found : (lexer.scan source).tokens = tokensFrom .start pieces := by
      rw [Lexer.scan_of_illegal builtLexer whole cut blank illegal]
    have cutAll := cut.append_rules low
    refine ⟨(textOf pieces ++ gap).length, isAt, ?_⟩
    rcases Lexer.illegal_or_exists_nextToken builtExtended illegal.1 rest with
      illegalStill | ⟨kind, lexeme, after, begins, starts, next⟩
    · exact .inl ((Lexer.tokenize_eq_error_iff builtExtended).mpr
        ⟨pieces, gap, rest, whole, cutAll, blank, illegalStill, place⟩)
    · rw [← begins] at whole split cutAll
      obtain ⟨behind, ending, scanned, forward, further⟩ := Lexer.scan_past builtExtended whole cutAll blank starts next
      rw [← place] at scanned forward
      refine .inr ⟨⟨⟨kind, String.ofList lexeme, e.position⟩, ?_, ?_, isAt.2⟩, fun tokens answer => ?_,
        fun other answer => further other ?_⟩
      · rw [scanned]
        exact List.mem_append_right _ List.mem_cons_self
      · rw [split, List.drop_left, String.toList_ofList]
        exact List.prefix_append lexeme after
      · rw [← Lexer.tokens_scan_of_tokenize_ok answer, scanned, found]
        exact filter_before forward
      · have illegalOther := Lexer.illegal_scan_of_tokenize_error answer
        rw [scanned] at illegalOther
        exact illegalOther

/-- A rule of the same priority behind is not heard where the first rule reads, though it reads the whole word by itself;
an operator behind is heard where the first rule reads nothing. -/
theorem tokenize_extended_tie :
    let names : Automaton := .ofEdges "s" ["t"] [(("s", "a"), "t"), (("t", "a"), "t")]
    let pair : Automaton := .ofEdges "s" ["t"] [(("s", "a"), "m"), (("m", "a"), "t")]
    let plus : Automaton := .ofEdges "s" ["t"] [(("s", "+"), "t")]
    let lexer : Lexer := ⟨[⟨.identifier, names⟩]⟩
    let extended : Lexer := ⟨[⟨.identifier, names⟩, ⟨.keyword, pair⟩, ⟨.operator, plus⟩]⟩
    extended.tokenize "aa a" = .ok [⟨.identifier, "aa", ⟨1, 1⟩⟩, ⟨.identifier, "a", ⟨1, 4⟩⟩] ∧
      lexer.tokenize "a+b" = .error ⟨'+', ⟨1, 2⟩⟩ ∧ extended.tokenize "a+b" = .error ⟨'b', ⟨1, 3⟩⟩ ∧
      ∃ offset further, offset < further ∧ extended.FindsAt "a+b" offset ∧
        LexicalError.IsAt ⟨'+', ⟨1, 2⟩⟩ "a+b".toList offset ∧ LexicalError.IsAt ⟨'b', ⟨1, 3⟩⟩ "a+b".toList further := by
  intro names pair plus lexer extended
  have built : ∀ rule ∈ [⟨.identifier, .ok names, 1⟩] ++ [⟨.keyword, .ok pair, 1⟩, ⟨.operator, .ok plus, 0⟩],
      ∃ a, (rule : Rule).automaton = .ok a :=
    List.forall_mem_cons.mpr ⟨⟨names, rfl⟩, List.forall_mem_cons.mpr ⟨⟨pair, rfl⟩, List.forall_mem_singleton.mpr ⟨plus, rfl⟩⟩⟩
  have low : ∀ added ∈ [⟨.keyword, .ok pair, 1⟩, ⟨.operator, .ok plus, 0⟩], ∀ rule ∈ [⟨.identifier, .ok names, 1⟩],
      (added : Rule).priority ≤ (rule : Rule).priority :=
    List.forall_mem_cons.mpr ⟨List.forall_mem_singleton.mpr (by decide),
      List.forall_mem_singleton.mpr (List.forall_mem_singleton.mpr (by decide))⟩
  obtain ⟨_, _, builtLexer, builtExtended, law⟩ := tokenize_extended built low
  obtain rfl : lexer = _ := Except.ok.inj builtLexer
  obtain rfl : extended = _ := Except.ok.inj builtExtended
  have tokens : lexer.scan "aa a" = ⟨[⟨.identifier, "aa", ⟨1, 1⟩⟩, ⟨.identifier, "a", ⟨1, 4⟩⟩], none⟩ := by
    decide +kernel
  have stopped : lexer.scan "a+b" = ⟨[⟨.identifier, "a", ⟨1, 1⟩⟩], some ⟨'+', ⟨1, 2⟩⟩⟩ := by decide +kernel
  have stoppedLater : extended.scan "a+b" =
      ⟨[⟨.identifier, "a", ⟨1, 1⟩⟩, ⟨.operator, "+", ⟨1, 2⟩⟩], some ⟨'b', ⟨1, 3⟩⟩⟩ := by decide +kernel
  have refusal : lexer.tokenize "a+b" = .error ⟨'+', ⟨1, 2⟩⟩ := by rw [Lexer.tokenize, stopped]
  have refusalLater : extended.tokenize "a+b" = .error ⟨'b', ⟨1, 3⟩⟩ := by rw [Lexer.tokenize, stoppedLater]
  refine ⟨(law "aa a").1 _ (by rw [Lexer.tokenize, tokens]), refusal, refusalLater, ?_⟩
  obtain ⟨offset, isAt, same | ⟨finds, _, later⟩⟩ := (law "a+b").2 _ refusal
  · rw [refusalLater] at same
    exact absurd (Except.error.inj same) (by decide)
  · obtain ⟨further, behind, isAtLater⟩ := later _ refusalLater
    exact ⟨offset, further, behind, finds, isAt, isAtLater⟩

end Mini
