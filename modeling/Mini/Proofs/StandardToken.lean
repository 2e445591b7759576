import Mini.Proofs.Cut
import Mini.Proofs.Vocabulary

/-!
# The next token of the Mini language

`nextToken_standard_iff`: the next token under the standard rules, said by characters alone. It is a word of its kind
that the character behind it does not make longer, and an integer only if no point and digit follow, for then the
text begins with a real, and reals are tried before integers. `illegal_standard_iff` says where there is no token.

The words of a kind grow by single characters (`Kind.growsBy`), so the longest word is the one that stops growing; and
two kinds have words that begin with one character only if both are kinds of numbers (`Kind.eq_or_number`), so
priorities matter for numbers alone.
-/

namespace Mini

/-! ## Runs of characters -/

/-- Where a run of characters stops is a fact of the text. -/
theorem run_unique {p : Char → Bool} {run other rest more : List Char} (hr : ∀ c ∈ run, p c = true)
    (ho : ∀ c ∈ other, p c = true) (stops : ∀ c ∈ rest.head?, p c = false) (ends : ∀ c ∈ more.head?, p c = false)
    (same : run ++ rest = other ++ more) : run = other ∧ rest = more := by
  have stopped : ∀ text : List Char, (∀ c ∈ text.head?, p c = false) → text.takeWhile p = [] := by
    intro text stops
    cases text with
    | nil => rfl
    | cons c text => rw [List.takeWhile_cons_of_neg (by simp [stops c rfl])]
  have taken := congrArg (List.takeWhile p) same
  rw [List.takeWhile_append_of_pos hr, List.takeWhile_append_of_pos ho, stopped rest stops, stopped more ends,
    List.append_nil, List.append_nil] at taken
  rw [taken, List.append_cancel_left_eq] at same
  exact ⟨taken, same⟩

/-- A character between characters of a run belongs to the run. -/
theorem forall_mem_of_append_cons {p : Char → Bool} {run rest : List Char} {c : Char}
    (h : ∀ d ∈ run ++ c :: rest, p d = true) : p c = true :=
  h c (List.mem_append_right _ List.mem_cons_self)

/-! ## Classes of characters -/

theorem toNat_of_isDigit {c : Char} (h : c.isDigit = true) : 48 ≤ c.toNat ∧ c.toNat ≤ 57 :=
  Char.isDigit_iff_toNat.mp h

theorem toNat_of_isNameStart {c : Char} (h : isNameStart c = true) :
    65 ≤ c.toNat ∧ c.toNat ≤ 90 ∨ 97 ≤ c.toNat ∧ c.toNat ≤ 122 ∨ c.toNat = 95 := by
  rw [isNameStart_iff, ← Char.toNat_inj] at h
  exact h

theorem toNat_of_isNamePart {c : Char} (h : isNamePart c = true) :
    48 ≤ c.toNat ∧ c.toNat ≤ 57 ∨ 65 ≤ c.toNat ∧ c.toNat ≤ 90 ∨ 97 ≤ c.toNat ∧ c.toNat ≤ 122 ∨ c.toNat = 95 := by
  rcases (Bool.or_eq_true _ _).mp h with start | digit
  · exact .inr (toNat_of_isNameStart start)
  · exact .inl (toNat_of_isDigit digit)

theorem isDigit_eq_false_of_isNameStart {c : Char} (h : isNameStart c = true) : c.isDigit = false := by
  refine Bool.eq_false_iff.mpr fun digit => ?_
  have := toNat_of_isNameStart h
  have := toNat_of_isDigit digit
  omega

theorem toNat_of_isSign {c : Char} (h : isSign c = true) :
    c.toNat = 43 ∨ c.toNat = 45 ∨ c.toNat = 42 ∨ c.toNat = 47 ∨ c.toNat = 94 := by
  simp only [isSign_iff, ← Char.toNat_inj] at h
  exact h

/-- No white space stands in ASCII behind the space. -/
theorem toNat_of_isBlank {c : Char} (h : Text.isBlank c = true) : c.toNat ≤ 32 ∨ 133 ≤ c.toNat := by
  obtain ⟨range, mem, above, below⟩ := Text.CodePoints.contains_iff.mp h
  have outside : ∀ range ∈ Text.blanks, range.2 ≤ 32 ∨ 133 ≤ range.1 := by decide
  have := outside range mem
  omega

namespace Kind

variable {kind other : Kind} {text rest : List Char} {c : Char}

/-! ## How words begin -/

/-- Whether a word of a kind can begin with a character. -/
def starts : Kind → Char → Bool
  | .identifier, c => isNameStart c
  | .integer, c => c.isDigit
  | .real, c => c.isDigit
  | .operator, c => isSign c
  | .keyword, _ => false
  | .assignment, c => c = ':'

/-- Whether the words of a kind are numbers. -/
def isNumber : Kind → Bool
  | .integer => true
  | .real => true
  | .identifier | .operator | .keyword | .assignment => false

theorem IsWord.exists_starts (h : kind.IsWord text) : ∃ c rest, text = c :: rest ∧ kind.starts c = true := by
  cases kind with
  | identifier =>
    obtain ⟨c, rest, rfl, start, _⟩ := h
    exact ⟨c, rest, rfl, start⟩
  | integer =>
    obtain ⟨c, rest, rfl⟩ := List.exists_cons_of_ne_nil h.1
    exact ⟨c, rest, rfl, (isNumeral_cons_iff.mp h).1⟩
  | real =>
    obtain ⟨whole, fraction, rfl, numeral, _⟩ := h
    obtain ⟨c, rest, rfl⟩ := List.exists_cons_of_ne_nil numeral.1
    exact ⟨c, _, rfl, (isNumeral_cons_iff.mp numeral).1⟩
  | operator =>
    obtain ⟨c, rfl, sign⟩ := h
    exact ⟨c, [], rfl, sign⟩
  | keyword => exact h.elim
  | assignment => exact ⟨':', ['='], h, rfl⟩

theorem IsWord.ne_nil (h : kind.IsWord text) : text ≠ [] := by
  obtain ⟨c, rest, rfl, _⟩ := h.exists_starts
  exact List.cons_ne_nil c rest

theorem IsWord.starts (h : kind.IsWord (c :: rest)) : kind.starts c = true := by
  obtain ⟨_, _, eq, starts⟩ := h.exists_starts
  cases eq
  exact starts

/-- **Only numbers begin alike.** -/
theorem eq_or_number (h : kind.starts c = true) (ho : other.starts c = true) :
    kind = other ∨ kind.isNumber = true ∧ other.isNumber = true := by
  have name := toNat_of_isNameStart (c := c)
  have digit := toNat_of_isDigit (c := c)
  have sign := toNat_of_isSign (c := c)
  have colon : decide (c = ':') = true → c.toNat = 58 := by
    intro eq
    rw [of_decide_eq_true eq]
    rfl
  cases kind <;> cases other <;> simp only [starts, isNumber, and_self, true_or, or_true, reduceCtorEq] at h ho ⊢
  all_goals grind

/-- A decimal has a point in it, so it is no numeral. -/
theorem not_isNumeral_of_isDecimal (h : IsDecimal text) : ¬ IsNumeral text := by
  obtain ⟨whole, fraction, rfl, _, _⟩ := h
  intro numeral
  have point := forall_mem_of_append_cons numeral.2
  rw [isDigit_of_eq_point rfl] at point
  cases point

/-- **A text is a word of one kind at most.** -/
theorem IsWord.unique (h : kind.IsWord text) (ho : other.IsWord text) : kind = other := by
  obtain ⟨c, rest, rfl, starts⟩ := h.exists_starts
  rcases eq_or_number starts ho.starts with same | ⟨number, numberOther⟩
  · exact same
  · cases kind <;> cases number <;> cases other <;> cases numberOther
    · rfl
    · exact absurd h (not_isNumeral_of_isDecimal ho)
    · exact absurd ho (not_isNumeral_of_isDecimal h)
    · rfl

theorem isBlank_eq_false_of_starts (h : kind.starts c = true) : Text.isBlank c = false := by
  refine Bool.eq_false_iff.mpr fun blank => ?_
  have outside := toNat_of_isBlank blank
  cases kind with
  | identifier =>
    have := toNat_of_isNameStart h
    omega
  | integer =>
    have := toNat_of_isDigit h
    omega
  | real =>
    have := toNat_of_isDigit h
    omega
  | operator =>
    have := toNat_of_isSign h
    omega
  | keyword => cases h
  | assignment =>
    rw [of_decide_eq_true h] at blank
    cases blank

/-! ## How words grow -/

/-- Whether a word of a kind can go on with a character. -/
def growsBy : Kind → Char → Bool
  | .identifier, c => isNamePart c
  | .integer, c => c.isDigit
  | .real, c => c.isDigit
  | .operator, _ => false
  | .keyword, _ => false
  | .assignment, _ => false

/-- No word goes on with white space. -/
theorem growsBy_eq_false_of_isBlank (h : Text.isBlank c = true) (kind : Kind) :
    kind.growsBy c = false := by
  refine Bool.eq_false_iff.mpr fun grows => ?_
  have outside := toNat_of_isBlank h
  cases kind with
  | identifier =>
    have := toNat_of_isNamePart grows
    omega
  | integer =>
    have := toNat_of_isDigit grows
    omega
  | real =>
    have := toNat_of_isDigit grows
    omega
  | operator => cases grows
  | keyword => cases grows
  | assignment => cases grows

theorem IsWord.append (h : kind.IsWord text) (grows : kind.growsBy c = true) : kind.IsWord (text ++ [c]) := by
  cases kind with
  | identifier =>
    obtain ⟨first, rest, rfl, start, parts⟩ := h
    exact ⟨first, rest ++ [c], rfl, start, List.forall_mem_append.mpr ⟨parts, List.forall_mem_singleton.mpr grows⟩⟩
  | integer =>
    exact ⟨by simp, List.forall_mem_append.mpr ⟨h.2, List.forall_mem_singleton.mpr grows⟩⟩
  | real =>
    obtain ⟨whole, fraction, rfl, numeral, numeralFraction⟩ := h
    refine ⟨whole, fraction ++ [c], by simp, numeral, by simp, ?_⟩
    exact List.forall_mem_append.mpr ⟨numeralFraction.2, List.forall_mem_singleton.mpr grows⟩
  | operator => cases grows
  | keyword => cases grows
  | assignment => cases grows

theorem point_stops (rest : List Char) : ∀ c ∈ ('.' :: rest).head?, c.isDigit = false := by
  intro c mem
  exact isDigit_of_eq_point (Option.some.inj mem).symm

/-- **A word that is the beginning of a longer word of its kind grows by the next character.** -/
theorem IsWord.growsBy_of_append (h : kind.IsWord text) (longer : kind.IsWord (text ++ c :: rest)) :
    kind.growsBy c = true := by
  cases kind with
  | identifier =>
    obtain ⟨first, more, rfl, _, _⟩ := h
    exact forall_mem_of_append_cons (isName_cons_iff.mp longer).2
  | integer => exact forall_mem_of_append_cons longer.2
  | real =>
    obtain ⟨whole, fraction, rfl, numeral, _⟩ := h
    obtain ⟨other, more, eq, numeralOther, numeralMore⟩ := longer
    rw [List.append_assoc, List.cons_append] at eq
    -- The whole part of the longer word ends at the same point.
    obtain ⟨_, same⟩ := run_unique numeral.2 numeralOther.2 (point_stops _) (point_stops _) eq
    rw [← (List.cons.inj same).2] at numeralMore
    exact forall_mem_of_append_cons numeralMore.2
  | operator =>
    obtain ⟨first, rfl, _⟩ := h
    obtain ⟨_, eq, _⟩ := longer
    cases eq
  | keyword => exact h.elim
  | assignment =>
    obtain rfl : text = [':', '='] := h
    cases longer

end Kind

/-! ## What a rule finds when it recognizes the words of its kind -/

namespace Rule

variable {rule : Rule} {text lexeme after : List Char}

/-- A rule matches where a word of the language that it recognizes stands at the beginning. -/
theorem matches_iff_of_recognizes {language : List Char → Prop} (recognizes : Recognizes rule.automaton language)
    (nonempty : ∀ word, language word → word ≠ []) : rule.Matches text ↔ ∃ word, word <+: text ∧ language word := by
  obtain ⟨a, built, accepts⟩ := recognizes
  constructor
  · rintro ⟨_, word, builtToo, _, front, accepted⟩
    obtain rfl : a = _ := Except.ok.inj (built.symm.trans builtToo)
    exact ⟨word, front, (accepts word).mp accepted⟩
  · rintro ⟨word, front, inLanguage⟩
    exact ⟨a, word, built, nonempty word inLanguage, front, (accepts word).mpr inLanguage⟩

theorem matches_iff (recognizes : Recognizes rule.automaton rule.kind.IsWord) :
    rule.Matches text ↔ ∃ word, word <+: text ∧ rule.kind.IsWord word :=
  matches_iff_of_recognizes recognizes fun _ => Kind.IsWord.ne_nil

/-- The longest match of a rule is the longest word at the beginning of a text of the language that it recognizes. -/
theorem longest_iff_of_recognizes {language : List Char → Prop} (recognizes : Recognizes rule.automaton language)
    (nonempty : ∀ word, language word → word ≠ []) :
    rule.Longest text lexeme ↔
      language lexeme ∧ lexeme <+: text ∧ ∀ word, word <+: text → language word → word.length ≤ lexeme.length := by
  obtain ⟨a, built, accepts⟩ := recognizes
  constructor
  · rintro ⟨_, builtToo, _, front, accepted, last⟩
    obtain rfl : a = _ := Except.ok.inj (built.symm.trans builtToo)
    refine ⟨(accepts lexeme).mp accepted, front, fun word frontWord inLanguage => ?_⟩
    exact last word frontWord ((accepts word).mpr inLanguage)
  · rintro ⟨inLanguage, front, last⟩
    refine ⟨a, built, nonempty lexeme inLanguage, front, (accepts lexeme).mpr inLanguage, fun word frontWord accepted => ?_⟩
    exact last word frontWord ((accepts word).mp accepted)

/-- **The longest word at the beginning of a text is the one that the next character does not make longer.** -/
theorem longest_iff (recognizes : Recognizes rule.automaton rule.kind.IsWord) :
    rule.Longest (lexeme ++ after) lexeme ↔
      rule.kind.IsWord lexeme ∧ ∀ c ∈ after.head?, rule.kind.growsBy c = false := by
  rw [longest_iff_of_recognizes recognizes fun _ => Kind.IsWord.ne_nil]
  constructor
  · rintro ⟨isWord, _, last⟩
    refine ⟨isWord, fun c mem => Bool.eq_false_iff.mpr fun grows => ?_⟩
    obtain ⟨rest, rfl⟩ := List.head?_eq_some_iff.mp mem
    have front : lexeme ++ [c] <+: lexeme ++ c :: rest := ⟨rest, by simp⟩
    have := last _ front (isWord.append grows)
    rw [List.length_append, List.length_singleton] at this
    omega
  · rintro ⟨isWord, stops⟩
    refine ⟨isWord, List.prefix_append _ _, fun other front isWordOther => ?_⟩
    rcases List.prefix_or_prefix_of_prefix front (List.prefix_append lexeme after) with shorter | longer
    · exact shorter.length_le
    · obtain ⟨more, rfl⟩ := longer
      cases more with
      | nil => simp
      | cons c rest =>
        obtain ⟨ending, eq⟩ := (List.prefix_append_right_inj lexeme).mp front
        have grows := isWord.growsBy_of_append isWordOther
        rw [stops c (by rw [← eq]; rfl)] at grows
        cases grows

/-- Where no two rules have one priority, the first rule by priority is one that no rule of a higher priority rivals. -/
theorem firstByPriority_iff_of_pairwise {property : Rule → Prop} {rules : List Rule}
    (distinct : rules.Pairwise fun a b => a.priority ≠ b.priority) :
    FirstByPriority property rules rule ↔
      rule ∈ rules ∧ property rule ∧ ∀ other ∈ rules, property other → other.priority ≤ rule.priority := by
  constructor
  · rintro ⟨before, after, rfl, has, earlier, later⟩
    refine ⟨by simp, has, fun other mem hasOther => ?_⟩
    rcases List.mem_append.mp mem with mem | mem
    · exact Int.le_of_lt (earlier other mem hasOther)
    · rcases List.mem_cons.mp mem with rfl | mem
      · exact Int.le_refl _
      · exact later other mem hasOther
  · rintro ⟨mem, has, highest⟩
    obtain ⟨before, after, rfl⟩ := List.append_of_mem mem
    refine ⟨before, after, rfl, has, fun other memOther hasOther => ?_, fun other memOther hasOther => ?_⟩
    · have le := highest other (List.mem_append_left _ memOther) hasOther
      have ne := (List.pairwise_append.mp distinct).2.2 other memOther rule List.mem_cons_self
      exact Int.lt_iff_le_and_ne.mpr ⟨le, ne⟩
    · exact highest other (List.mem_append_right _ (List.mem_cons_of_mem _ memOther)) hasOther

theorem pairwise_standard : standard.Pairwise fun a b => a.priority ≠ b.priority := by
  simp [standard]

theorem priority_le_standard : ∀ rule ∈ standard, rule.priority ≤ 50 := by
  simp [standard]

/-- Every kind but keywords has a standard rule. -/
theorem exists_mem_standard {kind : Kind} (h : kind.IsWord lexeme) : ∃ rule ∈ standard, rule.kind = kind := by
  cases kind with
  | identifier => exact ⟨_, List.mem_cons_self, rfl⟩
  | real => exact ⟨_, List.mem_cons_of_mem _ List.mem_cons_self, rfl⟩
  | integer => simp [standard]
  | assignment => simp [standard]
  | operator => simp [standard]
  | keyword => exact h.elim

/-- A word at the beginning of a text is found by the rule of its kind. -/
theorem exists_matches_of_isWord {kind : Kind} {word : List Char} (h : kind.IsWord word) (front : word <+: text) :
    ∃ rule ∈ standard, rule.kind = kind ∧ rule.Matches text := by
  obtain ⟨rule, mem, rfl⟩ := exists_mem_standard h
  exact ⟨rule, mem, rfl, (matches_iff (standard_recognizes rule mem)).mpr ⟨word, front, h⟩⟩

/-- Reals are tried before integers. -/
theorem priority_lt_of_integer_of_real {other : Rule} (mem : rule ∈ standard) (memOther : other ∈ standard)
    (isInteger : rule.kind = .integer) (isReal : other.kind = .real) : rule.priority < other.priority := by
  simp only [standard, List.mem_cons, List.not_mem_nil, or_false] at mem memOther
  rcases mem with rfl | rfl | rfl | rfl | rfl <;> cases isInteger
  rcases memOther with rfl | rfl | rfl | rfl | rfl <;> cases isReal
  decide

/-- Kinds tell the standard rules apart, and of the numbers reals are tried first. -/
theorem priority_le_of_mem_standard {other : Rule} (mem : rule ∈ standard) (memOther : other ∈ standard)
    (alike : rule.kind = other.kind ∨ rule.kind.isNumber = true ∧ other.kind.isNumber = true)
    (notBoth : ¬ (rule.kind = .integer ∧ other.kind = .real)) : other.priority ≤ rule.priority := by
  simp only [standard, List.mem_cons, List.not_mem_nil, or_false] at mem memOther
  rcases mem with rfl | rfl | rfl | rfl | rfl <;> rcases memOther with rfl | rfl | rfl | rfl | rfl <;>
    simp_all [Kind.isNumber]

end Rule

/-! ## Tokens under the standard rules -/

/-- Whether a text begins with a point and a digit. -/
def BeginsFraction (text : List Char) : Prop :=
  ∃ d more, text = '.' :: d :: more ∧ d.isDigit = true

/-- Behind a numeral that cannot grow, a decimal begins exactly where a point and a digit follow. -/
theorem exists_isDecimal_prefix_iff {numeral after : List Char} (h : IsNumeral numeral)
    (stops : ∀ c ∈ after.head?, c.isDigit = false) :
    (∃ word, word <+: numeral ++ after ∧ IsDecimal word) ↔ BeginsFraction after := by
  constructor
  · rintro ⟨_, ⟨rest, eq⟩, whole, fraction, rfl, numeralWhole, numeralFraction⟩
    rw [List.append_assoc, List.cons_append] at eq
    obtain ⟨_, rfl⟩ := run_unique numeralWhole.2 h.2 (Kind.point_stops _) stops eq
    obtain ⟨d, more, rfl⟩ := List.exists_cons_of_ne_nil numeralFraction.1
    exact ⟨d, more ++ rest, rfl, (isNumeral_cons_iff.mp numeralFraction).1⟩
  · rintro ⟨d, more, rfl, digit⟩
    refine ⟨numeral ++ ['.', d], ⟨more, by simp⟩, numeral, [d], rfl, h, ?_⟩
    exact isNumeral_cons_iff.mpr ⟨digit, List.forall_mem_nil _⟩

/-- **The next token of the Mini language**: a word of its kind that does not grow; if it is an integer, no fraction
follows. -/
theorem nextToken_standard_iff {kind : Kind} {lexeme after : List Char} :
    NextToken Rule.standard (lexeme ++ after) kind lexeme ↔
      kind.IsWord lexeme ∧ (∀ c ∈ after.head?, kind.growsBy c = false) ∧
        (kind = .integer → ¬ BeginsFraction after) := by
  constructor
  · rintro ⟨rule, chosen, rfl, longest⟩
    obtain ⟨mem, _, highest⟩ := (Rule.firstByPriority_iff_of_pairwise Rule.pairwise_standard).mp chosen
    obtain ⟨isWord, stops⟩ := (Rule.longest_iff (Rule.standard_recognizes rule mem)).mp longest
    refine ⟨isWord, stops, fun isInteger fraction => ?_⟩
    rw [isInteger] at isWord stops
    obtain ⟨word, front, isDecimal⟩ := (exists_isDecimal_prefix_iff isWord stops).mpr fraction
    have isReal : Kind.real.IsWord word := isDecimal
    obtain ⟨other, memOther, kindReal, isMatch⟩ := Rule.exists_matches_of_isWord isReal front
    have earlier := Rule.priority_lt_of_integer_of_real mem memOther isInteger kindReal
    exact Int.not_le.mpr earlier (highest other memOther isMatch)
  · rintro ⟨isWord, stops, noFraction⟩
    obtain ⟨rule, mem, rfl⟩ := Rule.exists_mem_standard isWord
    have recognizes := Rule.standard_recognizes rule mem
    refine ⟨rule, (Rule.firstByPriority_iff_of_pairwise Rule.pairwise_standard).mpr ⟨mem, ?_, ?_⟩, rfl,
      (Rule.longest_iff recognizes).mpr ⟨isWord, stops⟩⟩
    · exact (Rule.matches_iff recognizes).mpr ⟨lexeme, List.prefix_append _ _, isWord⟩
    · intro other memOther isMatch
      obtain ⟨word, front, isWordOther⟩ :=
        (Rule.matches_iff (Rule.standard_recognizes other memOther)).mp isMatch
      obtain ⟨c, rest, rfl, starts⟩ := isWord.exists_starts
      obtain ⟨d, more, rfl, startsOther⟩ := isWordOther.exists_starts
      obtain rfl : d = c := (List.cons_prefix_cons.mp front).1
      refine Rule.priority_le_of_mem_standard mem memOther (Kind.eq_or_number starts startsOther) ?_
      rintro ⟨isInteger, isReal⟩
      rw [isInteger] at isWord stops
      rw [isReal] at isWordOther
      exact noFraction isInteger ((exists_isDecimal_prefix_iff isWord stops).mp ⟨_, front, isWordOther⟩)

/-- Something of the Mini language begins with a letter, an underscore, a digit, a sign, or a whole assignment sign. -/
theorem exists_matches_standard_iff {c : Char} {rest : List Char} :
    (∃ rule ∈ Rule.standard, rule.Matches (c :: rest)) ↔
      isNamePart c = true ∨ isSign c = true ∨ c = ':' ∧ rest.head? = some '=' := by
  rw [isNamePart, Bool.or_eq_true]
  constructor
  · rintro ⟨rule, mem, isMatch⟩
    obtain ⟨word, front, isWord⟩ := (Rule.matches_iff (Rule.standard_recognizes rule mem)).mp isMatch
    obtain ⟨d, more, rfl, starts⟩ := isWord.exists_starts
    obtain ⟨rfl, frontMore⟩ := List.cons_prefix_cons.mp front
    generalize rule.kind = kind at isWord starts
    cases kind with
    | identifier => exact .inl (.inl starts)
    | integer => exact .inl (.inr starts)
    | real => exact .inl (.inr starts)
    | operator => exact .inr (.inl starts)
    | keyword => exact isWord.elim
    | assignment =>
      obtain ⟨rfl, rfl⟩ := List.cons.inj (show d :: more = [':', '='] from isWord)
      obtain ⟨behind, rfl⟩ := frontMore
      exact .inr (.inr ⟨rfl, rfl⟩)
  · have begins : ∀ kind : Kind, ∀ word, kind.IsWord word → word <+: c :: rest →
        ∃ rule ∈ Rule.standard, rule.Matches (c :: rest) := by
      intro kind word isWord front
      obtain ⟨rule, mem, _, isMatch⟩ := Rule.exists_matches_of_isWord isWord front
      exact ⟨rule, mem, isMatch⟩
    have single : [c] <+: c :: rest := ⟨rest, rfl⟩
    rintro ((name | digit) | sign | ⟨rfl, next⟩)
    · exact begins .identifier [c] (isName_cons_iff.mpr ⟨name, List.forall_mem_nil _⟩) single
    · exact begins .integer [c] (isNumeral_cons_iff.mpr ⟨digit, List.forall_mem_nil _⟩) single
    · exact begins .operator [c] ⟨c, rfl, sign⟩ single
    · obtain ⟨more, rfl⟩ := List.head?_eq_some_iff.mp next
      exact begins .assignment [':', '='] rfl ⟨more, rfl⟩

/-- **Where nothing of the Mini language begins.** -/
theorem illegal_standard_iff {c : Char} {rest : List Char} :
    Illegal Rule.standard c rest ↔
      Text.isBlank c = false ∧ ¬ (isNamePart c = true ∨ isSign c = true ∨ c = ':' ∧ rest.head? = some '=') := by
  rw [← exists_matches_standard_iff, Illegal]
  simp only [not_exists, not_and]

/-! ## The standard lexer -/

namespace Lexer

/-- Rules whose automata could be built make a lexer. -/
theorem exists_ofRules {rules : List Rule} (h : ∀ rule ∈ rules, ∃ a, rule.automaton = .ok a) :
    ∃ lexer, ofRules rules = .ok lexer := by
  have recognizers : ∀ rules : List Rule, (∀ rule ∈ rules, ∃ a, rule.automaton = .ok a) →
      ∃ recognizers, rules.mapM Rule.recognizer = .ok recognizers := by
    intro rules h
    induction rules with
    | nil => exact ⟨[], rfl⟩
    | cons rule rest ih =>
      obtain ⟨⟨a, built⟩, others⟩ := List.forall_mem_cons.mp h
      obtain ⟨more, recognized⟩ := ih others
      refine ⟨⟨rule.kind, a⟩ :: more, ?_⟩
      rw [List.mapM_cons, Rule.recognizer, built, recognized]
      rfl
  obtain ⟨found, recognized⟩ := recognizers (Rule.byPriority rules) fun rule mem =>
    h rule ((Rule.perm_byPriority rules).mem_iff.mp mem)
  refine ⟨⟨found⟩, ?_⟩
  rw [ofRules, recognized]
  rfl

/-- **There is a lexer of the Mini language.** -/
theorem exists_standard : ∃ lexer, ofRules Rule.standard = .ok lexer :=
  exists_ofRules fun rule mem =>
    let ⟨a, built, _⟩ := Rule.standard_recognizes rule mem
    ⟨a, built⟩

end Lexer

end Mini
