import Mini.Compilation
import Mini.Proofs.Place
import Mini.Proofs.StandardToken

/-!
# Misplaced characters

`tokenize_misplaced`: which texts can be cut into tokens of the Mini language, and which character of the others is the
illegal one, without cutting. Whether a character may stand where it does (`MayStand`) is decided by the character
itself, by its neighbours and, for a point, by the digits before it. A text has tokens exactly when every character
may stand where it does, and the first that may not is the one reported.

The criterion is local although the lexer is greedy: the characters around the end of a lexeme tell all that the rest of
the text depends on (`Boundary`), and this is carried through a cut (`allStand_of_wellCut`).
-/

namespace Mini

/-! ## Where characters may stand -/

/-- Whether a text ends in digits that no letter, underscore or point stands before, so that they could be the whole
part of a decimal. -/
def EndsInWholePart (text : List Char) : Prop :=
  text.reverse.takeWhile Char.isDigit ≠ [] ∧
    ∀ c ∈ (text.reverse.dropWhile Char.isDigit).head?, isNameStart c = false ∧ c ≠ '.'

/-- Whether a character may stand between a text before it and a text behind it. -/
def MayStand (before : List Char) (c : Char) (after : List Char) : Prop :=
  Text.isBlank c = true ∨ isNamePart c = true ∨ isSign c = true ∨
    c = ':' ∧ after.head? = some '=' ∨
    c = '=' ∧ before.getLast? = some ':' ∨
    c = '.' ∧ (∃ d ∈ after.head?, d.isDigit = true) ∧ EndsInWholePart before

/-- Whether a text has, at an offset, a character that may not stand there. -/
def Misplaced (text : List Char) (offset : Nat) : Prop :=
  ∃ c ∈ text[offset]?, ¬ MayStand (text.take offset) c (text.drop (offset + 1))

instance (text : List Char) : Decidable (EndsInWholePart text) :=
  haveI : Decidable (∀ c ∈ (text.reverse.dropWhile Char.isDigit).head?, isNameStart c = false ∧ c ≠ '.') :=
    Option.decidableForallMem _
  inferInstanceAs (Decidable (_ ∧ _))

instance (before : List Char) (c : Char) (after : List Char) : Decidable (MayStand before c after) :=
  haveI : Decidable (∃ d ∈ after.head?, d.isDigit = true) := Option.decidableExistsMem _
  inferInstanceAs (Decidable (_ ∨ _))

instance (text : List Char) (offset : Nat) : Decidable (Misplaced text offset) :=
  Option.decidableExistsMem text[offset]?

/-- Whether all characters of a text may stand between a text before it and a text behind it. -/
def AllStand (before : List Char) : List Char → List Char → Prop
  | [], _ => True
  | c :: rest, after => MayStand before c (rest ++ after) ∧ AllStand (before ++ [c]) rest after

theorem allStand_append {before text more after : List Char} :
    AllStand before (text ++ more) after ↔ AllStand before text (more ++ after) ∧ AllStand (before ++ text) more after := by
  induction text generalizing before with
  | nil => simp [AllStand]
  | cons c rest ih =>
    rw [List.cons_append, AllStand, AllStand, ih, and_assoc, List.append_assoc, List.append_assoc,
      List.singleton_append]

/-- Characters that may stand anywhere. -/
theorem allStand_of_forall {text : List Char}
    (h : ∀ c ∈ text, Text.isBlank c = true ∨ isNamePart c = true ∨ isSign c = true) (before after : List Char) :
    AllStand before text after := by
  induction text generalizing before with
  | nil => trivial
  | cons c rest ih =>
    obtain ⟨here, others⟩ := List.forall_mem_cons.mp h
    refine ⟨?_, ih others _⟩
    rcases here with blank | part | sign
    · exact .inl blank
    · exact .inr (.inl part)
    · exact .inr (.inr (.inl sign))

theorem misplaced_length_iff {before after : List Char} {c : Char} :
    Misplaced (before ++ c :: after) before.length ↔ ¬ MayStand before c after := by
  have here : (before ++ c :: after)[before.length]? = some c := by
    rw [List.getElem?_append_right (Nat.le_refl _), Nat.sub_self]
    rfl
  have behind : (before ++ c :: after).drop (before.length + 1) = after := by
    rw [List.drop_append, List.drop_eq_nil_of_le (Nat.le_succ _), Nat.add_sub_cancel_left]
    rfl
  rw [Misplaced, here, List.take_left, behind]
  simp

theorem not_misplaced_of_allStand {before text after : List Char} (h : AllStand before text after) {offset : Nat}
    (inside : offset < text.length) : ¬ Misplaced (before ++ (text ++ after)) (before.length + offset) := by
  induction text generalizing before offset with
  | nil => exact absurd inside (Nat.not_lt_zero _)
  | cons c rest ih =>
    obtain ⟨here, others⟩ := h
    cases offset with
    | zero => exact fun misplaced => misplaced_length_iff.mp misplaced here
    | succ offset =>
      have := ih others (Nat.lt_of_succ_lt_succ inside)
      rw [List.append_assoc, List.singleton_append, List.length_append, List.length_singleton, Nat.add_assoc,
        Nat.add_comm 1] at this
      exact this

theorem lt_length_of_misplaced {text : List Char} {offset : Nat} (h : Misplaced text offset) : offset < text.length := by
  obtain ⟨c, mem, _⟩ := h
  exact (List.getElem?_eq_some_iff.mp mem).1

/-! ## Digits at the end -/

theorem endsInWholePart_append_iff {digits : List Char} (hd : ∀ c ∈ digits, c.isDigit = true) {c : Char}
    (stops : c.isDigit = false) (before : List Char) :
    EndsInWholePart (before ++ c :: digits) ↔ digits ≠ [] ∧ isNameStart c = false ∧ c ≠ '.' := by
  have reversed : (before ++ c :: digits).reverse = digits.reverse ++ c :: before.reverse := by simp
  have inside : ∀ d ∈ digits.reverse, d.isDigit = true := fun d mem => hd d (List.mem_reverse.mp mem)
  rw [EndsInWholePart, reversed, List.takeWhile_append_of_pos inside, List.dropWhile_append_of_pos inside,
    List.takeWhile_cons_of_neg (by simp [stops]), List.dropWhile_cons_of_neg (by simp [stops])]
  simp

theorem endsInWholePart_of_isNumeral {digits : List Char} (h : IsNumeral digits) : EndsInWholePart digits := by
  have inside : ∀ d ∈ digits.reverse, d.isDigit = true := fun d mem => h.2 d (List.mem_reverse.mp mem)
  rw [EndsInWholePart, ← List.append_nil digits.reverse, List.takeWhile_append_of_pos inside,
    List.dropWhile_append_of_pos inside]
  exact ⟨by simpa using h.1, fun c mem => nomatch mem⟩

/-- A text is digits, or digits behind its last character that is none. -/
theorem exists_digits (text : List Char) :
    (∀ c ∈ text, c.isDigit = true) ∨
      ∃ before c digits, text = before ++ c :: digits ∧ c.isDigit = false ∧ ∀ d ∈ digits, d.isDigit = true := by
  induction text with
  | nil => exact .inl (List.forall_mem_nil _)
  | cons c rest ih =>
    rcases ih with all | ⟨before, d, digits, rfl, stops, hd⟩
    · cases digit : c.isDigit with
      | true => exact .inl (List.forall_mem_cons.mpr ⟨digit, all⟩)
      | false => exact .inr ⟨[], c, rest, rfl, digit, all⟩
    · exact .inr ⟨c :: before, d, digits, rfl, stops, hd⟩

/-! ## The ends of lexemes -/

/-- What can be said of the place between two lexemes: no assignment sign is half read, digits that follow begin a number,
and digits before it are not the whole part of a decimal. -/
structure Boundary (before rest : List Char) : Prop where
  colon : before.getLast? ≠ some ':'
  digit : ∀ d ∈ rest.head?, d.isDigit = true → ∀ c ∈ before.getLast?, isNamePart c = false ∧ c ≠ '.'
  point : EndsInWholePart before → ¬ BeginsFraction rest

theorem Boundary.start (rest : List Char) : Boundary [] rest :=
  ⟨nofun, fun _ _ _ _ mem => (nomatch mem), fun h => absurd rfl h.1⟩

/-- A character that no word goes on behind. -/
theorem Boundary.of_last {c : Char} (colon : c ≠ ':') (part : isNamePart c = false) (point : c ≠ '.')
    (before rest : List Char) : Boundary (before ++ [c]) rest := by
  have last : (before ++ [c]).getLast? = some c := List.getLast?_concat
  have stops : c.isDigit = false := (Bool.or_eq_false_iff.mp part).2
  refine ⟨?_, ?_, ?_⟩
  · rw [last]
    exact fun eq => colon (Option.some.inj eq)
  · intro d _ _ e mem
    rw [last] at mem
    exact Option.some.inj mem ▸ ⟨part, point⟩
  · intro ends
    exact absurd rfl ((endsInWholePart_append_iff (List.forall_mem_nil _) stops before).mp ends).1

/-- A word that goes on with digits ends where none follow. -/
theorem Boundary.of_stops {before lexeme rest : List Char} (stops : ∀ c ∈ rest.head?, c.isDigit = false)
    (nonempty : lexeme ≠ []) (colon : ':' ∉ lexeme)
    (point : EndsInWholePart (before ++ lexeme) → ¬ BeginsFraction rest) : Boundary (before ++ lexeme) rest := by
  refine ⟨fun last => ?_, fun d mem digit => ?_, point⟩
  · rw [List.getLast?_append, List.getLast?_eq_some_getLast nonempty, Option.some_or] at last
    exact colon (Option.some.inj last ▸ List.getLast_mem nonempty)
  · rw [stops d mem] at digit
    cases digit

/-- Digits at the end of a name have a letter or an underscore before them. -/
theorem not_endsInWholePart_of_isName {name : List Char} (h : IsName name) (before : List Char) :
    ¬ EndsInWholePart (before ++ name) := by
  rcases exists_digits name with all | ⟨front, c, digits, rfl, stops, hd⟩
  · obtain ⟨first, rest, rfl, start, _⟩ := h
    have := all first List.mem_cons_self
    rw [isDigit_eq_false_of_isNameStart start] at this
    cases this
  · have part : isNamePart c = true := forall_mem_of_append_cons h.parts
    rw [isNamePart, stops, Bool.or_false] at part
    rw [← List.append_assoc, endsInWholePart_append_iff hd stops, part]
    intro ends
    cases ends.2.1

/-- **Behind a token there is a boundary.** -/
theorem Boundary.of_isWord {kind : Kind} {lexeme rest : List Char} (isWord : kind.IsWord lexeme)
    (stops : ∀ c ∈ rest.head?, kind.growsBy c = false) (noFraction : kind = .integer → ¬ BeginsFraction rest)
    (before : List Char) : Boundary (before ++ lexeme) rest := by
  cases kind with
  | identifier =>
    have noDigit : ∀ c ∈ rest.head?, c.isDigit = false := fun c mem => (Bool.or_eq_false_iff.mp (stops c mem)).2
    refine .of_stops noDigit isWord.ne_nil (fun mem => ?_) fun ends => ?_
    · cases IsName.parts isWord _ mem
    · exact absurd ends (not_endsInWholePart_of_isName isWord before)
  | integer =>
    refine .of_stops stops isWord.ne_nil (fun mem => ?_) fun _ => noFraction rfl
    cases isWord.2 _ mem
  | real =>
    have nonempty := isWord.ne_nil
    obtain ⟨whole, fraction, rfl, numeral, numeralFraction⟩ := isWord
    refine .of_stops stops nonempty (fun mem => ?_) fun ends => ?_
    · rcases List.mem_append.mp mem with mem | mem
      · cases numeral.2 _ mem
      · rcases List.mem_cons.mp mem with eq | mem
        · cases eq
        · cases numeralFraction.2 _ mem
    · rw [← List.append_assoc, endsInWholePart_append_iff numeralFraction.2 rfl] at ends
      exact absurd rfl ends.2.2
  | operator =>
    obtain ⟨c, rfl, sign⟩ := isWord
    have outside := toNat_of_isSign sign
    refine .of_last ?_ ?_ ?_ before rest
    · rintro rfl
      cases sign
    · refine Bool.eq_false_iff.mpr fun part => ?_
      have := toNat_of_isNamePart part
      omega
    · rintro rfl
      cases sign
  | keyword => exact isWord.elim
  | assignment =>
    obtain rfl : lexeme = [':', '='] := isWord
    have := Boundary.of_last (c := '=') (by decide) (by decide) (by decide) (before ++ [':']) rest
    rwa [List.append_assoc] at this

/-- White space keeps a boundary. -/
theorem Boundary.gap {before gap rest : List Char} (h : Boundary before (gap ++ rest)) (blank : AllBlank gap) :
    Boundary (before ++ gap) rest := by
  rcases List.eq_nil_or_concat gap with rfl | ⟨front, c, rfl⟩
  · rw [List.append_nil]
    exact h
  · have here := toNat_of_isBlank (blank c (by simp))
    rw [List.concat_eq_append, ← List.append_assoc]
    refine .of_last ?_ ?_ ?_ (before ++ front) rest
    · rintro rfl
      exact absurd here (by decide)
    · refine Bool.eq_false_iff.mpr fun part => ?_
      have := toNat_of_isNamePart part
      omega
    · rintro rfl
      exact absurd here (by decide)

/-! ## Through a cut -/

/-- The characters of a word may stand behind a boundary. -/
theorem allStand_of_isWord {kind : Kind} {before lexeme rest : List Char} (isWord : kind.IsWord lexeme)
    (boundary : Boundary before (lexeme ++ rest)) : AllStand before lexeme rest := by
  have digits : ∀ {text : List Char}, (∀ c ∈ text, c.isDigit = true) →
      ∀ c ∈ text, Text.isBlank c = true ∨ isNamePart c = true ∨ isSign c = true := by
    intro text hd c mem
    exact .inr (.inl (by rw [isNamePart, hd c mem, Bool.or_true]))
  cases kind with
  | identifier => exact allStand_of_forall (fun c mem => .inr (.inl (IsName.parts isWord c mem))) _ _
  | integer => exact allStand_of_forall (digits isWord.2) _ _
  | real =>
    obtain ⟨whole, fraction, rfl, numeral, numeralFraction⟩ := isWord
    refine allStand_append.mpr ⟨allStand_of_forall (digits numeral.2) _ _, ?_,
      allStand_of_forall (digits numeralFraction.2) _ _⟩
    -- The point: a digit follows, and the digits before it are the whole part, because a boundary precedes them.
    have followed : ∃ d ∈ (fraction ++ rest).head?, d.isDigit = true := by
      obtain ⟨d, more, rfl⟩ := List.exists_cons_of_ne_nil numeralFraction.1
      exact ⟨d, rfl, (isNumeral_cons_iff.mp numeralFraction).1⟩
    have ends : EndsInWholePart (before ++ whole) := by
      rcases List.eq_nil_or_concat before with rfl | ⟨front, c, rfl⟩
      · exact endsInWholePart_of_isNumeral numeral
      · obtain ⟨d, more, rfl⟩ := List.exists_cons_of_ne_nil numeral.1
        have last : (front.concat c).getLast? = some c := by simp
        obtain ⟨part, point⟩ := boundary.digit d rfl (isNumeral_cons_iff.mp numeral).1 c last
        obtain ⟨notStart, notDigit⟩ := Bool.or_eq_false_iff.mp part
        rw [List.concat_eq_append, List.append_assoc, List.singleton_append,
          endsInWholePart_append_iff numeral.2 notDigit]
        exact ⟨numeral.1, notStart, point⟩
    exact .inr (.inr (.inr (.inr (.inr ⟨rfl, followed, ends⟩))))
  | operator =>
    obtain ⟨c, rfl, sign⟩ := isWord
    exact allStand_of_forall (List.forall_mem_singleton.mpr (.inr (.inr sign))) _ _
  | keyword => exact isWord.elim
  | assignment =>
    obtain rfl : lexeme = [':', '='] := isWord
    refine ⟨.inr (.inr (.inr (.inl ⟨rfl, rfl⟩))), .inr (.inr (.inr (.inr (.inl ⟨rfl, ?_⟩)))), trivial⟩
    exact List.getLast?_concat

/-- **A cut goes from boundary to boundary, over characters that may stand where they do.** -/
theorem allStand_of_wellCut {pieces : List Piece} {before rest : List Char}
    (cut : WellCut Rule.standard pieces rest) (boundary : Boundary before (textOf pieces ++ rest)) :
    AllStand before (textOf pieces) rest ∧ Boundary (before ++ textOf pieces) rest := by
  induction pieces generalizing before with
  | nil => exact ⟨trivial, by simpa [textOf] using boundary⟩
  | cons p pieces ih =>
    obtain ⟨blank, _, next, others⟩ := cut
    obtain ⟨isWord, stops, noFraction⟩ := nextToken_standard_iff.mp next
    rw [textOf_cons_append] at boundary
    have behindGap := boundary.gap blank
    have behindWord := Boundary.of_isWord isWord stops noFraction (before ++ p.gap)
    obtain ⟨stand, last⟩ := ih others behindWord
    rw [textOf_cons, allStand_append, allStand_append]
    refine ⟨⟨allStand_of_forall (fun c mem => .inl (blank c mem)) _ _, ?_, stand⟩, ?_⟩
    · exact allStand_of_isWord isWord behindGap
    · rwa [List.append_assoc, List.append_assoc] at last

/-- **Where nothing begins behind a boundary, the character may not stand.** -/
theorem not_mayStand_of_illegal {before rest : List Char} {c : Char} (boundary : Boundary before (c :: rest))
    (illegal : Illegal Rule.standard c rest) : ¬ MayStand before c rest := by
  obtain ⟨notBlank, nothing⟩ := illegal_standard_iff.mp illegal
  rintro (blank | part | sign | assigned | ⟨_, colon⟩ | ⟨rfl, ⟨d, mem, digit⟩, ends⟩)
  · rw [notBlank] at blank
    cases blank
  · exact nothing (.inl part)
  · exact nothing (.inr (.inl sign))
  · exact nothing (.inr (.inr assigned))
  · exact boundary.colon colon
  · obtain ⟨more, rfl⟩ := List.head?_eq_some_iff.mp mem
    exact boundary.point ends ⟨d, more, rfl, digit⟩

/-! ## The first misplaced character -/

/-- Whether an offset is the first one of a text at which a character may not stand. -/
def FirstMisplaced (text : List Char) (offset : Nat) : Prop :=
  Misplaced text offset ∧ ∀ earlier < offset, ¬ Misplaced text earlier

instance (text : List Char) (offset : Nat) : Decidable (FirstMisplaced text offset) :=
  inferInstanceAs (Decidable (_ ∧ ∀ earlier < offset, _))

theorem FirstMisplaced.unique {text : List Char} {offset other : Nat} (h : FirstMisplaced text offset)
    (ho : FirstMisplaced text other) : offset = other := by
  refine Nat.le_antisymm (Nat.le_of_not_lt fun lt => h.2 other lt ho.1) (Nat.le_of_not_lt fun lt => ?_)
  exact ho.2 offset lt h.1

/-- A text has tokens and no misplaced character, or its first misplaced character is the illegal one. -/
theorem tokenize_or_firstMisplaced (source : String) :
    (∃ tokens, tokenize source = .ok tokens) ∧ (∀ offset, ¬ Misplaced source.toList offset) ∨
      ∃ offset c, FirstMisplaced source.toList offset ∧ source.toList[offset]? = some c ∧
        tokenize source = .error (.lexical ⟨c, .atOffset source.toList offset⟩) := by
  obtain ⟨lexer, built⟩ := Lexer.exists_standard
  obtain ⟨pieces, rest, whole, cut, ending⟩ := Lexer.exists_cut built source.toList
  obtain ⟨stand, boundary⟩ := allStand_of_wellCut cut (Boundary.start _)
  rw [List.nil_append] at boundary
  rw [tokenize, tokenizeWith_of_ofRules built, Lexer.tokenize]
  rcases ending with blank | ⟨gap, c, more, rfl, blank, illegal⟩
  · refine .inl ⟨⟨tokensFrom .start pieces, ?_⟩, fun offset misplaced => ?_⟩
    · rw [Lexer.scan_of_cut built whole cut blank]
      rfl
    · have all : AllStand [] source.toList [] := by
        rw [whole]
        exact allStand_append.mpr ⟨by rwa [List.append_nil],
          allStand_of_forall (fun c mem => .inl (blank c mem)) _ _⟩
      have := not_misplaced_of_allStand all (lt_length_of_misplaced misplaced)
      simp only [List.nil_append, List.append_nil, List.length_nil, Nat.zero_add] at this
      exact this misplaced
  · have split : source.toList = (textOf pieces ++ gap) ++ c :: more := by rw [whole, List.append_assoc]
    have all : AllStand [] (textOf pieces ++ gap) (c :: more) :=
      allStand_append.mpr ⟨stand, allStand_of_forall (fun c mem => .inl (blank c mem)) _ _⟩
    have misplaced := misplaced_length_iff.mpr (not_mayStand_of_illegal (boundary.gap blank) illegal)
    rw [← split] at misplaced
    refine .inr ⟨(textOf pieces ++ gap).length, c, ⟨misplaced, fun earlier lt => ?_⟩, ?_, ?_⟩
    · have := not_misplaced_of_allStand all lt
      rwa [List.nil_append, List.length_nil, Nat.zero_add, ← split] at this
    · rw [split, List.getElem?_append_right (Nat.le_refl _), Nat.sub_self]
      rfl
    · rw [Lexer.scan_of_illegal built whole cut blank illegal, split, Position.atOffset_append]
      rfl

/-- **The language of the tokenizer and its first error, by a local criterion.** A text has tokens exactly when every
character of it may stand where it does. Otherwise the error is a lexical one, and it is the first character that
may not, with the position of its offset. -/
theorem tokenize_misplaced (source : String) :
    ((∃ tokens, tokenize source = .ok tokens) ↔ ∀ offset, ¬ Misplaced source.toList offset) ∧
      ∀ e, tokenize source = .error e ↔
        ∃ offset c, FirstMisplaced source.toList offset ∧ source.toList[offset]? = some c ∧
          e = .lexical ⟨c, .atOffset source.toList offset⟩ := by
  rcases tokenize_or_firstMisplaced source with ⟨⟨tokens, answer⟩, none⟩ | ⟨offset, c, first, here, answer⟩
  · refine ⟨⟨fun _ => none, fun _ => ⟨tokens, answer⟩⟩, fun e => ⟨fun refusal => ?_, ?_⟩⟩
    · cases answer.symm.trans refusal
    · rintro ⟨offset, _, first, _⟩
      exact absurd first.1 (none offset)
  · refine ⟨⟨?_, fun none => absurd first.1 (none offset)⟩, fun e => ⟨fun refusal => ?_, ?_⟩⟩
    · rintro ⟨tokens, answer'⟩
      cases answer.symm.trans answer'
    · exact ⟨offset, c, first, here, (Except.error.inj (answer.symm.trans refusal)).symm⟩
    · rintro ⟨other, d, firstToo, there, rfl⟩
      obtain rfl := first.unique firstToo
      obtain rfl : c = d := Option.some.inj (here.symm.trans there)
      exact answer

/-- `1.2` and `3.4` would be two decimals, but the first one goes on to the second point. -/
example : FirstMisplaced "1.23.4".toList 4 := by decide

end Mini
