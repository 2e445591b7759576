import Mini.Proofs.Matching
import Mini.Proofs.Registration

/-!
# The words of Mini

What each standard automaton accepts, said without states: names, numerals, decimals, the signs of operators and the
assignment sign (`Kind.IsWord`). Every standard automaton can be built and accepts the words of its kind and nothing
else (`Automaton.identifier_recognizes` and so on, together `Rule.standard_recognizes`).

Letters and digits are those of ASCII, here as in the automata.
-/

namespace Mini

/-! ## Characters -/

/-- Whether a name can begin with a character: a letter or the underscore. -/
def isNameStart (c : Char) : Bool :=
  c.isAlpha || c = '_'

/-- Whether a name can go on with a character: a letter, the underscore or a digit. -/
def isNamePart (c : Char) : Bool :=
  isNameStart c || c.isDigit

/-- Whether a character is the sign of an operator. -/
def isSign (c : Char) : Bool :=
  ['+', '-', '*', '/', '^'].contains c

theorem isLower_iff {c : Char} : c.isLower = true ↔ 'a' ≤ c ∧ c ≤ 'z' := by
  show (decide ('a' ≤ c) && decide (c ≤ 'z')) = true ↔ _
  rw [Bool.and_eq_true, decide_eq_true_eq, decide_eq_true_eq]

theorem isUpper_iff {c : Char} : c.isUpper = true ↔ 'A' ≤ c ∧ c ≤ 'Z' := by
  show decide ('A' ≤ c ∧ c ≤ 'Z') = true ↔ _
  rw [decide_eq_true_eq]

theorem isDigit_iff {c : Char} : c.isDigit = true ↔ '0' ≤ c ∧ c ≤ '9' :=
  Char.isDigit_iff_toNat

theorem isNameStart_iff {c : Char} :
    isNameStart c = true ↔ ('A' ≤ c ∧ c ≤ 'Z') ∨ ('a' ≤ c ∧ c ≤ 'z') ∨ c = '_' := by
  show (c.isUpper || c.isLower || decide (c = '_')) = true ↔ _
  rw [Bool.or_eq_true, Bool.or_eq_true, decide_eq_true_eq, isUpper_iff, isLower_iff, or_assoc]

theorem isSign_iff {c : Char} : isSign c = true ↔ c = '+' ∨ c = '-' ∨ c = '*' ∨ c = '/' ∨ c = '^' := by
  simp [isSign]

theorem isDigit_of_eq_point {c : Char} (h : c = '.') : c.isDigit = false := by
  rw [h]
  decide

/-! ## Words -/

/-- A character that can begin a name, and characters that it can go on with. -/
def IsName (text : List Char) : Prop :=
  ∃ first rest, text = first :: rest ∧ isNameStart first = true ∧ ∀ c ∈ rest, isNamePart c = true

/-- One digit or more. -/
def IsNumeral (text : List Char) : Prop :=
  text ≠ [] ∧ ∀ c ∈ text, c.isDigit = true

/-- A numeral, a point, a numeral. -/
def IsDecimal (text : List Char) : Prop :=
  ∃ whole fraction, text = whole ++ '.' :: fraction ∧ IsNumeral whole ∧ IsNumeral fraction

/-- Whether a text is written as the tokens of a kind are. No text is a keyword by itself. -/
def Kind.IsWord : Kind → List Char → Prop
  | .identifier, text => IsName text
  | .integer, text => IsNumeral text
  | .real, text => IsDecimal text
  | .operator, text => ∃ c, text = [c] ∧ isSign c = true
  | .keyword, _ => False
  | .assignment, text => text = [':', '=']

theorem isName_cons_iff {c : Char} {rest : List Char} :
    IsName (c :: rest) ↔ isNameStart c = true ∧ ∀ d ∈ rest, isNamePart d = true := by
  refine ⟨fun h => ?_, fun h => ⟨c, rest, rfl, h⟩⟩
  obtain ⟨_, _, eq, h⟩ := h
  cases eq
  exact h

theorem IsName.parts {text : List Char} (h : IsName text) : ∀ c ∈ text, isNamePart c = true := by
  obtain ⟨first, rest, rfl, start, parts⟩ := h
  exact List.forall_mem_cons.mpr ⟨by rw [isNamePart, start, Bool.true_or], parts⟩

theorem IsName.ne_nil {text : List Char} (h : IsName text) : text ≠ [] := by
  obtain ⟨first, rest, rfl, _⟩ := h
  exact List.cons_ne_nil first rest

theorem isNumeral_cons_iff {c : Char} {rest : List Char} :
    IsNumeral (c :: rest) ↔ c.isDigit = true ∧ ∀ d ∈ rest, d.isDigit = true := by
  simp [IsNumeral]

/-- Whether what was to become an automaton is one, and it accepts just the texts of a language. -/
def Recognizes (automaton : Except ConstructionError Automaton) (language : List Char → Prop) : Prop :=
  ∃ a, automaton = .ok a ∧ ∀ text, a.accepts text = true ↔ language text

/-! ## Requests for letters and digits -/

namespace Automaton

variable {source target state asked : State} {c : Char}

theorem isProper_letterEdges : ∀ r ∈ letterEdges source target, r.IsProper := by
  rw [letterEdges, List.forall_mem_cons, List.forall_mem_cons, List.forall_mem_singleton]
  exact ⟨⟨'a', 'z', rfl, rfl, by decide⟩, ⟨'A', 'Z', rfl, rfl, by decide⟩, ⟨'_', rfl⟩⟩

theorem isProper_digitEdges : ∀ r ∈ digitEdges source target, r.IsProper := by
  rw [digitEdges, List.forall_mem_singleton]
  exact ⟨'0', '9', rfl, rfl, by decide⟩

theorem asks_letterEdges_iff :
    (∃ r ∈ letterEdges source target, r.Asks (state, String.singleton c) asked) ↔
      state = source ∧ isNameStart c = true ∧ asked = target := by
  simp only [letterEdges, List.mem_cons, List.not_mem_nil, or_false, exists_eq_or_imp, exists_eq_left,
    Registration.asks_range_iff "a" "z" 'a' 'z' rfl rfl, Registration.asks_range_iff "A" "Z" 'A' 'Z' rfl rfl,
    Registration.asks_edge_iff "_" '_' rfl, isNameStart_iff]
  grind

theorem asks_digitEdges_iff :
    (∃ r ∈ digitEdges source target, r.Asks (state, String.singleton c) asked) ↔
      state = source ∧ c.isDigit = true ∧ asked = target := by
  simp only [digitEdges, List.mem_singleton, exists_eq_left, Registration.asks_range_iff "0" "9" '0' '9' rfl rfl,
    isDigit_iff]

/-! ## Runs through loops -/

variable {a : Automaton} {q next : State}

theorem acceptsFrom_nil : a.acceptsFrom q [] = a.isAccepting q := rfl

/-- The first character decides when it is the only way on. -/
theorem acceptsFrom_cons_of_read {p : Bool} (h : a.read q c = if p then some next else none) (rest : List Char) :
    a.acceptsFrom q (c :: rest) = (p && a.acceptsFrom next rest) := by
  cases p with
  | false => exact acceptsFrom_cons_none h rest
  | true => exact acceptsFrom_cons_some h rest

/-- **In an accepting state that only leads back to itself, all characters have to be such as lead back.** -/
theorem acceptsFrom_loop {p : Char → Bool} (accepting : a.isAccepting q = true)
    (reads : ∀ c, a.read q c = if p c then some q else none) (text : List Char) :
    a.acceptsFrom q text = text.all p := by
  induction text with
  | nil => exact accepting
  | cons c rest ih => rw [acceptsFrom_cons_of_read (reads c), ih, List.all_cons]

theorem acceptsFrom_loop_iff {p : Char → Bool} (accepting : a.isAccepting q = true)
    (reads : ∀ c, a.read q c = if p c then some q else none) (text : List Char) :
    a.acceptsFrom q text = true ↔ ∀ c ∈ text, p c = true := by
  rw [acceptsFrom_loop accepting reads, List.all_eq_true]

/-! ## Names -/

/-- How identifiers are read. -/
def readName (state : State) (c : Char) : Option State :=
  if state = startState then if isNameStart c then some "IDENTIFIER" else none
  else if state = "IDENTIFIER" then if isNamePart c then some "IDENTIFIER" else none
  else none

theorem exists_identifier : ∃ a, identifier = .ok a ∧ a.Follows startState ["IDENTIFIER"] readName := by
  refine exists_follows_of_asks startState ["IDENTIFIER"] ?_ ?_
  · simp only [List.forall_mem_append]
    exact ⟨⟨isProper_letterEdges, isProper_letterEdges⟩, isProper_digitEdges⟩
  · intro source c target
    simp only [List.mem_append, or_and_right, exists_or, asks_letterEdges_iff, asks_digitEdges_iff]
    grind [readName, isNamePart, startState]

/-- **The automaton of identifiers can be built, and it accepts the names.** -/
theorem identifier_recognizes : Recognizes identifier IsName := by
  obtain ⟨a, built, follows⟩ := exists_identifier
  have loop : ∀ text, a.acceptsFrom "IDENTIFIER" text = true ↔ ∀ c ∈ text, isNamePart c = true :=
    acceptsFrom_loop_iff (follows.accepting _) (follows.read _)
  refine ⟨a, built, fun text => ?_⟩
  show a.acceptsFrom a.start text = true ↔ _
  rw [follows.start]
  cases text with
  | nil => simp [acceptsFrom_nil, follows.accepting, IsName, startState]
  | cons c rest =>
    rw [acceptsFrom_cons_of_read (follows.read startState c), Bool.and_eq_true, loop, isName_cons_iff]

/-! ## Numerals -/

/-- How integers are read. -/
def readNumeral (state : State) (c : Char) : Option State :=
  if state = startState ∨ state = "INTEGER" then if c.isDigit then some "INTEGER" else none
  else none

theorem exists_integer : ∃ a, integer = .ok a ∧ a.Follows startState ["INTEGER"] readNumeral := by
  refine exists_follows_of_asks startState ["INTEGER"] ?_ ?_
  · simp only [List.forall_mem_append]
    exact ⟨isProper_digitEdges, isProper_digitEdges⟩
  · intro source c target
    simp only [List.mem_append, or_and_right, exists_or, asks_digitEdges_iff]
    grind [readNumeral, startState]

/-- **The automaton of integers can be built, and it accepts the numerals.** -/
theorem integer_recognizes : Recognizes integer IsNumeral := by
  obtain ⟨a, built, follows⟩ := exists_integer
  have loop : ∀ text, a.acceptsFrom "INTEGER" text = true ↔ ∀ c ∈ text, c.isDigit = true :=
    acceptsFrom_loop_iff (follows.accepting _) (follows.read _)
  refine ⟨a, built, fun text => ?_⟩
  show a.acceptsFrom a.start text = true ↔ _
  rw [follows.start]
  cases text with
  | nil => simp [acceptsFrom_nil, follows.accepting, IsNumeral, startState]
  | cons c rest =>
    rw [acceptsFrom_cons_of_read (follows.read startState c), Bool.and_eq_true, loop, isNumeral_cons_iff]

/-! ## Decimals -/

/-- How reals are read. -/
def readDecimal (state : State) (c : Char) : Option State :=
  if state = startState then if c.isDigit then some "INTEGER_PART" else none
  else if state = "INTEGER_PART" then
    if c.isDigit then some "INTEGER_PART" else if c = '.' then some "DECIMAL_POINT" else none
  else if state = "DECIMAL_POINT" ∨ state = "FRACTIONAL_PART" then
    if c.isDigit then some "FRACTIONAL_PART" else none
  else none

theorem exists_real : ∃ a, real = .ok a ∧ a.Follows startState ["FRACTIONAL_PART"] readDecimal := by
  refine exists_follows_of_asks startState ["FRACTIONAL_PART"] ?_ ?_
  · simp only [List.forall_mem_append, List.forall_mem_singleton]
    exact ⟨⟨⟨⟨isProper_digitEdges, isProper_digitEdges⟩, '.', rfl⟩, isProper_digitEdges⟩, isProper_digitEdges⟩
  · intro source c target
    have point := isDigit_of_eq_point (c := c)
    simp only [List.mem_append, or_and_right, exists_or, asks_digitEdges_iff, List.mem_singleton, exists_eq_left,
      Registration.asks_edge_iff "." '.' rfl]
    unfold readDecimal
    by_cases first : source = startState
    · rw [if_pos first]
      grind [startState]
    · rw [if_neg first]
      by_cases whole : source = "INTEGER_PART"
      · rw [if_pos whole]
        grind
      · rw [if_neg whole]
        grind

/-- Behind the first digit there may be more, and then there are a point and a numeral. -/
theorem acceptsFrom_integerPart_iff {a : Automaton}
    (follows : a.Follows startState ["FRACTIONAL_PART"] readDecimal) (text : List Char) :
    a.acceptsFrom "INTEGER_PART" text = true ↔
      ∃ more fraction, text = more ++ '.' :: fraction ∧ (∀ c ∈ more, c.isDigit = true) ∧ IsNumeral fraction := by
  have loop : ∀ text, a.acceptsFrom "FRACTIONAL_PART" text = true ↔ ∀ c ∈ text, c.isDigit = true :=
    acceptsFrom_loop_iff (follows.accepting _) (follows.read _)
  have behindPoint : ∀ text, a.acceptsFrom "DECIMAL_POINT" text = true ↔ IsNumeral text := by
    intro text
    cases text with
    | nil => simp [acceptsFrom_nil, follows.accepting, IsNumeral]
    | cons c rest =>
      rw [acceptsFrom_cons_of_read (follows.read "DECIMAL_POINT" c), Bool.and_eq_true, loop, isNumeral_cons_iff]
  induction text with
  | nil => simp [acceptsFrom_nil, follows.accepting]
  | cons c rest ih =>
    by_cases digit : c.isDigit = true
    · have onward : a.read "INTEGER_PART" c = some "INTEGER_PART" := by
        rw [follows.read]
        simp [readDecimal, startState, digit]
      rw [acceptsFrom_cons_some onward]
      refine ih.trans ?_
      constructor
      · rintro ⟨more, fraction, rfl, digits, numeral⟩
        exact ⟨c :: more, fraction, rfl, List.forall_mem_cons.mpr ⟨digit, digits⟩, numeral⟩
      · rintro ⟨more, fraction, eq, digits, numeral⟩
        cases more with
        | nil =>
          rw [isDigit_of_eq_point (List.cons.inj eq).1] at digit
          cases digit
        | cons _ more =>
          cases eq
          exact ⟨more, fraction, rfl, (List.forall_mem_cons.mp digits).2, numeral⟩
    · by_cases point : c = '.'
      · have onward : a.read "INTEGER_PART" c = some "DECIMAL_POINT" := by
          rw [follows.read]
          simp [readDecimal, startState, point, isDigit_of_eq_point]
        rw [acceptsFrom_cons_some onward, behindPoint]
        constructor
        · intro numeral
          exact ⟨[], rest, by rw [point]; rfl, List.forall_mem_nil _, numeral⟩
        · rintro ⟨more, fraction, eq, digits, numeral⟩
          cases more with
          | nil =>
            cases eq
            exact numeral
          | cons d more =>
            cases eq
            exact absurd (List.forall_mem_cons.mp digits).1 digit
      · have stuck : a.read "INTEGER_PART" c = none := by
          rw [follows.read]
          simp [readDecimal, startState, digit, point]
        rw [acceptsFrom_cons_none stuck]
        refine ⟨fun h => ?_, fun h => ?_⟩
        · cases h
        · obtain ⟨more, fraction, eq, digits, _⟩ := h
          cases more with
          | nil => exact absurd (List.cons.inj eq).1 point
          | cons d more =>
            cases eq
            exact absurd (List.forall_mem_cons.mp digits).1 digit

/-- **The automaton of reals can be built, and it accepts the decimals.** -/
theorem real_recognizes : Recognizes real IsDecimal := by
  obtain ⟨a, built, follows⟩ := exists_real
  refine ⟨a, built, fun text => ?_⟩
  show a.acceptsFrom a.start text = true ↔ _
  rw [follows.start]
  cases text with
  | nil => simp [acceptsFrom_nil, follows.accepting, IsDecimal, startState]
  | cons c rest =>
    rw [acceptsFrom_cons_of_read (follows.read startState c), Bool.and_eq_true, acceptsFrom_integerPart_iff follows]
    constructor
    · rintro ⟨digit, more, fraction, rfl, digits, numeral⟩
      exact ⟨c :: more, fraction, rfl, isNumeral_cons_iff.mpr ⟨digit, digits⟩, numeral⟩
    · rintro ⟨whole, fraction, eq, numeral, numeralFraction⟩
      cases whole with
      | nil => exact absurd rfl numeral.1
      | cons d more =>
        cases eq
        obtain ⟨digit, digits⟩ := isNumeral_cons_iff.mp numeral
        exact ⟨digit, more, fraction, rfl, digits, numeralFraction⟩

/-! ## Signs -/

/-- How operators are read. -/
def readSign (state : State) (c : Char) : Option State :=
  if state = startState then if isSign c then some "OPERATOR" else none
  else none

theorem exists_operator : ∃ a, operator = .ok a ∧ a.Follows startState ["OPERATOR"] readSign := by
  refine exists_follows_of_asks startState ["OPERATOR"] ?_ ?_
  · rw [List.forall_mem_map, List.forall_mem_cons, List.forall_mem_cons, List.forall_mem_cons, List.forall_mem_cons,
      List.forall_mem_singleton]
    exact ⟨⟨'+', rfl⟩, ⟨'-', rfl⟩, ⟨'*', rfl⟩, ⟨'/', rfl⟩, ⟨'^', rfl⟩⟩
  · intro source c target
    simp only [List.map_cons, List.map_nil, List.mem_cons, List.not_mem_nil, or_false, exists_eq_or_imp, exists_eq_left,
      Registration.asks_edge_iff "+" '+' rfl, Registration.asks_edge_iff "-" '-' rfl,
      Registration.asks_edge_iff "*" '*' rfl, Registration.asks_edge_iff "/" '/' rfl,
      Registration.asks_edge_iff "^" '^' rfl, readSign, isSign_iff]
    split <;> grind

/-- **The automaton of operators can be built, and it accepts the signs.** -/
theorem operator_recognizes : Recognizes operator (Kind.IsWord .operator) := by
  obtain ⟨a, built, follows⟩ := exists_operator
  have ending : ∀ text, a.acceptsFrom "OPERATOR" text = true ↔ text = [] := by
    intro text
    cases text with
    | nil => simp [acceptsFrom_nil, follows.accepting]
    | cons c rest => simp [acceptsFrom_cons_none (follows.read "OPERATOR" c)]
  refine ⟨a, built, fun text => ?_⟩
  show a.acceptsFrom a.start text = true ↔ ∃ c, text = [c] ∧ isSign c = true
  rw [follows.start]
  cases text with
  | nil => simp [acceptsFrom_nil, follows.accepting, startState]
  | cons c rest =>
    rw [acceptsFrom_cons_of_read (follows.read startState c), Bool.and_eq_true, ending]
    constructor
    · rintro ⟨sign, rfl⟩
      exact ⟨c, rfl, sign⟩
    · rintro ⟨_, eq, sign⟩
      cases eq
      exact ⟨sign, rfl⟩

/-- How the assignment sign is read. -/
def readAssignment (state : State) (c : Char) : Option State :=
  if state = startState then if c = ':' then some "COLON" else none
  else if state = "COLON" then if c = '=' then some "ASSIGNMENT" else none
  else none

theorem exists_assignment :
    ∃ a, assignment = .ok a ∧ a.Follows startState ["ASSIGNMENT"] readAssignment := by
  refine exists_follows_of_asks startState ["ASSIGNMENT"] ?_ ?_
  · rw [List.forall_mem_cons, List.forall_mem_singleton]
    exact ⟨⟨':', rfl⟩, '=', rfl⟩
  · intro source c target
    simp only [List.mem_cons, List.not_mem_nil, or_false, exists_eq_or_imp, exists_eq_left,
      Registration.asks_edge_iff ":" ':' rfl, Registration.asks_edge_iff "=" '=' rfl]
    grind [readAssignment, startState]

/-- **The automaton of the assignment sign can be built, and it accepts this sign.** -/
theorem assignment_recognizes : Recognizes assignment (Kind.IsWord .assignment) := by
  obtain ⟨a, built, follows⟩ := exists_assignment
  have ending : ∀ text, a.acceptsFrom "ASSIGNMENT" text = true ↔ text = [] := by
    intro text
    cases text with
    | nil => simp [acceptsFrom_nil, follows.accepting]
    | cons c rest => simp [acceptsFrom_cons_none (follows.read "ASSIGNMENT" c)]
  have behindColon : ∀ text, a.acceptsFrom "COLON" text = true ↔ text = ['='] := by
    intro text
    cases text with
    | nil => simp [acceptsFrom_nil, follows.accepting]
    | cons c rest =>
      have read : a.read "COLON" c = if decide (c = '=') then some "ASSIGNMENT" else none := by
        simp [follows.read, readAssignment, startState]
      rw [acceptsFrom_cons_of_read read, Bool.and_eq_true, decide_eq_true_eq, ending, List.cons.injEq]
  refine ⟨a, built, fun text => ?_⟩
  show a.acceptsFrom a.start text = true ↔ text = [':', '=']
  rw [follows.start]
  cases text with
  | nil => simp [acceptsFrom_nil, follows.accepting, startState]
  | cons c rest =>
    have read : a.read startState c = if decide (c = ':') then some "COLON" else none := by
      simp [follows.read, readAssignment]
    rw [acceptsFrom_cons_of_read read, Bool.and_eq_true, decide_eq_true_eq, behindColon, List.cons.injEq]

end Automaton

/-- **Every standard rule recognizes the words of its kind.** -/
theorem Rule.standard_recognizes : ∀ rule ∈ standard, Recognizes rule.automaton rule.kind.IsWord := by
  rw [standard, List.forall_mem_cons, List.forall_mem_cons, List.forall_mem_cons, List.forall_mem_cons,
    List.forall_mem_singleton]
  exact ⟨Automaton.identifier_recognizes, Automaton.real_recognizes, Automaton.integer_recognizes,
    Automaton.assignment_recognizes, Automaton.operator_recognizes⟩

end Mini
