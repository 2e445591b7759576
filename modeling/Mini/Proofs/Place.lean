import Mini.Proofs.Cut

/-!
# Where tokens stand

`tokenize_places`: the position of a token is a fact of the text and of the offset at which its lexeme starts, and
so is the position of an illegal character. The line is counted by the line feeds before the offset and the
column by the characters behind the last of them (`Position.atOffset`), whether these belong to white space or to
lexemes. So positions start at the first line and column, and those of tokens only go forward.
-/

namespace Mini

namespace Position

/-- The position of an offset of a text. -/
def atOffset (text : List Char) (offset : Nat) : Position where
  line := 1 + (text.take offset).count '\n'
  column := 1 + ((text.take offset).reverse.takeWhile (· ≠ '\n')).length

/-- Whether a position comes before another one. -/
def Before (p q : Position) : Prop :=
  p.line < q.line ∨ p.line = q.line ∧ p.column < q.column

instance (p q : Position) : Decidable (p.Before q) :=
  inferInstanceAs (Decidable (p.line < q.line ∨ p.line = q.line ∧ p.column < q.column))

/-- **Reading a text from its start moves by its line feeds and by what stands behind the last of them.** -/
theorem advanceOver_start (text : List Char) : start.advanceOver text = atOffset text text.length := by
  -- Reading goes on at the end of the text, so the text is taken apart from there.
  suffices h : ∀ reversed : List Char, start.advanceOver reversed.reverse =
      ⟨1 + reversed.reverse.count '\n', 1 + (reversed.takeWhile (· ≠ '\n')).length⟩ by
    have := h text.reverse
    rw [List.reverse_reverse] at this
    rw [this, atOffset, List.take_length]
  intro reversed
  induction reversed with
  | nil => rfl
  | cons c rest ih =>
    rw [List.reverse_cons, advanceOver_append, ih, advanceOver_cons, advanceOver_nil, advance,
      List.count_append, List.takeWhile_cons]
    by_cases newline : c = '\n'
    · simp [newline, Int.add_assoc]
    · simp [newline, Int.add_assoc]

theorem atOffset_append (text more : List Char) : atOffset (text ++ more) text.length = start.advanceOver text := by
  rw [advanceOver_start, atOffset, atOffset, List.take_left, List.take_length]

theorem one_le_atOffset (text : List Char) (offset : Nat) :
    1 ≤ (atOffset text offset).line ∧ 1 ≤ (atOffset text offset).column := by
  constructor
  · show (1 : Int) ≤ 1 + _
    omega
  · show (1 : Int) ≤ 1 + _
    omega

theorem Before.trans {p q r : Position} (first : p.Before q) (second : q.Before r) : p.Before r := by
  unfold Before at *
  omega

theorem before_advance (p : Position) (c : Char) : p.Before (p.advance c) := by
  unfold Before advance
  split
  · exact .inl (Int.lt_succ p.line)
  · exact .inr ⟨rfl, Int.lt_succ p.column⟩

theorem before_advanceOver (p : Position) {text : List Char} (nonempty : text ≠ []) :
    p.Before (p.advanceOver text) := by
  induction text generalizing p with
  | nil => exact absurd rfl nonempty
  | cons c rest ih =>
    rw [advanceOver_cons]
    by_cases last : rest = []
    · rw [last]
      exact before_advance p c
    · exact (before_advance p c).trans (ih (p.advance c) last)

theorem eq_or_before_advanceOver (p : Position) (text : List Char) :
    p = p.advanceOver text ∨ p.Before (p.advanceOver text) := by
  by_cases nothing : text = []
  · rw [nothing]
    exact .inl rfl
  · exact .inr (p.before_advanceOver nothing)

theorem Before.ne {p q : Position} (h : p.Before q) : p ≠ q := by
  rintro rfl
  unfold Before at h
  omega

theorem atOffset_eq_advanceOver {text : List Char} {offset : Nat} (inside : offset ≤ text.length) :
    atOffset text offset = start.advanceOver (text.take offset) := by
  have := atOffset_append (text.take offset) (text.drop offset)
  rwa [List.take_append_drop, List.length_take, Nat.min_eq_left inside] at this

/-- **Further offsets stand further on.** -/
theorem before_atOffset {text : List Char} {offset later : Nat} (further : offset < later)
    (inside : later ≤ text.length) : (atOffset text offset).Before (atOffset text later) := by
  have front : text.take offset ++ (text.take later).drop offset = text.take later := by
    have := List.take_append_drop offset (text.take later)
    rwa [List.take_take, Nat.min_eq_left (Nat.le_of_lt further)] at this
  have between : (text.take later).drop offset ≠ [] := by
    rw [← List.length_pos_iff, List.length_drop, List.length_take]
    omega
  rw [atOffset_eq_advanceOver (Nat.le_of_lt (Nat.lt_of_lt_of_le further inside)), atOffset_eq_advanceOver inside, ← front,
    advanceOver_append]
  exact before_advanceOver _ between

/-- No two offsets of a text have one position. -/
theorem atOffset_inj {text : List Char} {offset other : Nat} (inside : offset ≤ text.length)
    (insideOther : other ≤ text.length) : atOffset text offset = atOffset text other ↔ offset = other := by
  refine ⟨fun same => ?_, congrArg (atOffset text)⟩
  rcases Nat.lt_trichotomy offset other with lt | eq | lt
  · exact absurd same (before_atOffset lt insideOther).ne
  · exact eq
  · exact absurd same.symm (before_atOffset lt inside).ne

end Position

/-! ## The offsets of lexemes -/

/-- Pieces that start at an offset, each with the offset of its lexeme. -/
def located (offset : Nat) : List Piece → List (Nat × Piece)
  | [] => []
  | p :: pieces =>
    (offset + p.gap.length, p) :: located (offset + p.gap.length + p.lexeme.length) pieces

/-- The token of a piece whose lexeme starts at an offset of a text. -/
def tokenAt (text : List Char) (place : Nat × Piece) : Token :=
  ⟨place.2.kind, String.ofList place.2.lexeme, .atOffset text place.1⟩

/-- **The tokens of pieces stand at the offsets of their lexemes.** -/
theorem tokensFrom_eq_located (before : List Char) (pieces : List Piece) (rest : List Char) :
    tokensFrom (Position.start.advanceOver before) pieces =
      (located before.length pieces).map (tokenAt (before ++ (textOf pieces ++ rest))) := by
  induction pieces generalizing before with
  | nil => rfl
  | cons p pieces ih =>
    have whole : before ++ (textOf (p :: pieces) ++ rest) =
        (before ++ p.gap ++ p.lexeme) ++ (textOf pieces ++ rest) := by
      simp only [textOf_cons, List.append_assoc]
    have here : (Position.start.advanceOver before).advanceOver p.gap =
        .atOffset (before ++ (textOf (p :: pieces) ++ rest)) (before.length + p.gap.length) := by
      rw [← Position.advanceOver_append, ← Position.atOffset_append (before ++ p.gap)
        (p.lexeme ++ (textOf pieces ++ rest)), whole, List.length_append, List.append_assoc _ p.lexeme]
    have others := ih (before ++ p.gap ++ p.lexeme)
    rw [List.length_append, List.length_append, ← whole, List.append_assoc before,
      Position.advanceOver_append] at others
    rw [tokensFrom, others, here]
    rfl

/-- Every lexeme is there at its offset. -/
theorem lexeme_of_mem_located (before : List Char) (pieces : List Piece) (rest : List Char)
    {place : Nat × Piece} (mem : place ∈ located before.length pieces) :
    place.2.lexeme <+: (before ++ (textOf pieces ++ rest)).drop place.1 := by
  induction pieces generalizing before with
  | nil => cases mem
  | cons p pieces ih =>
    have whole : before ++ (textOf (p :: pieces) ++ rest) =
        (before ++ p.gap) ++ (p.lexeme ++ (textOf pieces ++ rest)) := by
      simp only [textOf_cons, List.append_assoc]
    rcases List.mem_cons.mp mem with rfl | mem
    · rw [whole, ← List.length_append, List.drop_left]
      exact List.prefix_append _ _
    · rw [whole, ← List.append_assoc]
      rw [← List.length_append, ← List.length_append] at mem
      exact ih _ mem

theorem mem_of_mem_located {offset : Nat} {pieces : List Piece} {place : Nat × Piece}
    (mem : place ∈ located offset pieces) : place.2 ∈ pieces := by
  induction pieces generalizing offset with
  | nil => cases mem
  | cons p pieces ih =>
    rcases List.mem_cons.mp mem with rfl | mem
    · exact List.mem_cons_self
    · exact List.mem_cons_of_mem p (ih mem)

/-! ## Forward only -/

theorem eq_or_before_of_mem_tokensFrom {position : Position} {pieces : List Piece} {t : Token}
    (mem : t ∈ tokensFrom position pieces) : position = t.position ∨ position.Before t.position := by
  induction pieces generalizing position with
  | nil => cases mem
  | cons p pieces ih =>
    rcases List.mem_cons.mp mem with rfl | mem
    · exact position.eq_or_before_advanceOver p.gap
    · rcases position.eq_or_before_advanceOver (p.gap ++ p.lexeme) with same | forward
      · rw [← same] at mem
        exact ih mem
      · rcases ih mem with same | further
        · exact .inr (same ▸ forward)
        · exact .inr (forward.trans further)

/-- **Tokens stand one behind the other**, because no lexeme is empty. -/
theorem pairwise_tokensFrom {rules : List Rule} {pieces : List Piece} {rest : List Char}
    (cut : WellCut rules pieces rest) (position : Position) :
    (tokensFrom position pieces).Pairwise fun t u => t.position.Before u.position := by
  induction pieces generalizing position with
  | nil => exact .nil
  | cons p pieces ih =>
    obtain ⟨_, _, next, others⟩ := cut
    refine List.pairwise_cons.mpr ⟨?_, ih others _⟩
    intro t mem
    have forward := (position.advanceOver p.gap).before_advanceOver next.ne_nil
    rw [Position.advanceOver_append] at mem
    rcases eq_or_before_of_mem_tokensFrom mem with same | further
    · exact same ▸ forward
    · exact forward.trans further

/-- **The law of positions.** The tokens of a text stand where the offsets of their lexemes do, and an illegal
character where its own offset does; all these are in the first line and column or behind, and every token
stands behind the tokens before it. -/
theorem tokenize_places {rules : List Rule} {lexer : Lexer} (built : Lexer.ofRules rules = .ok lexer)
    (source : String) :
    (∀ tokens, lexer.tokenize source = .ok tokens →
      ∃ pieces final, source.toList = textOf pieces ++ final ∧ WellCut rules pieces final ∧ AllBlank final ∧
        (∀ place ∈ located 0 pieces, place.2.lexeme <+: source.toList.drop place.1) ∧
        tokens = (located 0 pieces).map (tokenAt source.toList) ∧
        (∀ t ∈ tokens, 1 ≤ t.position.line ∧ 1 ≤ t.position.column) ∧
        tokens.Pairwise fun t u => t.position.Before u.position) ∧
    (∀ e, lexer.tokenize source = .error e →
      ∃ pieces gap rest, source.toList = textOf pieces ++ (gap ++ e.character :: rest) ∧
        WellCut rules pieces (gap ++ e.character :: rest) ∧ AllBlank gap ∧ Illegal rules e.character rest ∧
        source.toList[(textOf pieces ++ gap).length]? = some e.character ∧
        e.position = .atOffset source.toList (textOf pieces ++ gap).length ∧
        1 ≤ e.position.line ∧ 1 ≤ e.position.column) := by
  obtain ⟨pieces, rest, whole, cut, blank | ⟨gap, c, more, rfl, blank, illegal⟩⟩ :=
    Lexer.exists_cut built source.toList
  · have scanned : lexer.tokenize source = .ok (tokensFrom .start pieces) := by
      rw [Lexer.tokenize, Lexer.scan_of_cut built whole cut blank]
    have places : tokensFrom .start pieces = (located 0 pieces).map (tokenAt source.toList) := by
      rw [whole]
      exact tokensFrom_eq_located [] pieces rest
    constructor
    · intro tokens answer
      obtain rfl : tokensFrom .start pieces = tokens := Except.ok.inj (scanned.symm.trans answer)
      refine ⟨pieces, rest, whole, cut, blank, ?_, places, ?_, pairwise_tokensFrom cut .start⟩
      · intro place mem
        rw [whole]
        exact lexeme_of_mem_located [] pieces rest mem
      · intro t mem
        rw [places] at mem
        obtain ⟨place, _, rfl⟩ := List.mem_map.mp mem
        exact Position.one_le_atOffset source.toList place.1
    · intro e answer
      rw [scanned] at answer
      cases answer
  · have scanned : lexer.tokenize source =
        .error ⟨c, Position.start.advanceOver (textOf pieces ++ gap)⟩ := by
      rw [Lexer.tokenize, Lexer.scan_of_illegal built whole cut blank illegal]
    have split : source.toList = (textOf pieces ++ gap) ++ c :: more := by
      rw [whole, List.append_assoc]
    have place : Position.start.advanceOver (textOf pieces ++ gap) =
        .atOffset source.toList (textOf pieces ++ gap).length := by
      rw [split, Position.atOffset_append]
    constructor
    · intro tokens answer
      rw [scanned] at answer
      cases answer
    · intro e answer
      obtain rfl := Except.error.inj (scanned.symm.trans answer)
      refine ⟨pieces, gap, more, whole, cut, blank, illegal, ?_, place, ?_⟩
      · rw [split, List.getElem?_append_right (Nat.le_refl _), Nat.sub_self]
        rfl
      · rw [place]
        exact Position.one_le_atOffset source.toList _

/-- Lexemes that go on in the next line, and an illegal character behind one of them. -/
theorem tokenize_places_across_lines :
    let broken : Automaton :=
      .ofEdges "s" ["t"] [(("s", "a"), "m"), (("m", "\n"), "n"), (("n", "b"), "t")]
    let lexer : Lexer := ⟨[⟨.keyword, broken⟩]⟩
    let tokens : List Token := [⟨.keyword, "a\nb", ⟨1, 1⟩⟩, ⟨.keyword, "a\nb", ⟨2, 2⟩⟩]
    lexer.tokenize "a\nba\nb\t" = .ok tokens ∧
      tokens.Pairwise (fun t u => t.position.Before u.position) ∧
      lexer.tokenize "a\nb\tc" = .error ⟨'c', ⟨2, 3⟩⟩ ∧
      ∃ offset, "a\nb\tc".toList[offset]? = some 'c' ∧ ⟨2, 3⟩ = Position.atOffset "a\nb\tc".toList offset := by
  intro broken lexer tokens
  have built : Lexer.ofRules [⟨.keyword, .ok broken, 0⟩] = .ok lexer := rfl
  have scanned : lexer.scan "a\nba\nb\t" = ⟨tokens, none⟩ := by decide +kernel
  have stopped : lexer.scan "a\nb\tc" = ⟨[⟨.keyword, "a\nb", ⟨1, 1⟩⟩], some ⟨'c', ⟨2, 3⟩⟩⟩ := by decide +kernel
  have answer : lexer.tokenize "a\nba\nb\t" = .ok tokens := by rw [Lexer.tokenize, scanned]
  have refusal : lexer.tokenize "a\nb\tc" = .error ⟨'c', ⟨2, 3⟩⟩ := by rw [Lexer.tokenize, stopped]
  obtain ⟨_, _, _, _, _, _, _, _, forward⟩ := (tokenize_places built "a\nba\nb\t").1 tokens answer
  obtain ⟨_, _, _, _, _, _, _, character, place, _⟩ := (tokenize_places built "a\nb\tc").2 _ refusal
  exact ⟨answer, forward, refusal, _, character, place⟩

end Mini
