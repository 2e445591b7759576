import Mathlib.Computability.Language
import Mini.Proofs.Layout

/-!
# The languages of the standard automata

`standard_languages`: each of the five automata can be built, and the texts that it accepts are those of a regular
expression over ranges of ASCII characters. No text is in two of these languages, and none of them has the empty text or
a text with white space in it.

The expressions (`Kind.pattern`) are put together from single characters by union, concatenation and repetition alone.
That they say the same as the descriptions of words is `Kind.mem_pattern_iff`; what words have in common with each other
and with white space is known of words already.
-/

namespace Mini

open scoped Computability

/-! ## Expressions -/

/-- The texts of one character of a class. -/
def charOf (p : Char → Prop) : Language Char :=
  {text | ∃ c, text = [c] ∧ p c}

/-- The texts of one character between two bounds. -/
def charRange (lo hi : Char) : Language Char :=
  charOf fun c => lo ≤ c ∧ c ≤ hi

/-- `[A-Za-z_]` -/
def letter : Language Char :=
  charRange 'A' 'Z' + charRange 'a' 'z' + {['_']}

/-- `[0-9]` -/
def digit : Language Char :=
  charRange '0' '9'

/-- The words of a kind, as a regular expression. -/
def Kind.pattern : Kind → Language Char
  | .identifier => letter * (letter + digit)∗
  | .integer => digit * digit∗
  | .real => digit * digit∗ * {['.']} * (digit * digit∗)
  | .operator => {['+']} + {['-']} + {['*']} + {['/']} + {['^']}
  | .keyword => 0
  | .assignment => {[':', '=']}

/-- The texts that an automaton accepts. -/
def Automaton.language (a : Automaton) : Language Char :=
  {text | a.accepts text = true}

/-! ## Words are what the expressions describe -/

section Classes

variable {p : Char → Prop} {text : List Char}

theorem mem_charOf_iff : text ∈ charOf p ↔ ∃ c, text = [c] ∧ p c := Iff.rfl

theorem mem_singleton_iff {word : List Char} : text ∈ ({word} : Language Char) ↔ text = word := Iff.rfl

theorem mem_charOf_mul_iff {l : Language Char} :
    text ∈ charOf p * l ↔ ∃ c rest, text = c :: rest ∧ p c ∧ rest ∈ l := by
  rw [Language.mem_mul]
  constructor
  · intro h
    obtain ⟨_, ⟨c, rfl, has⟩, rest, mem, rfl⟩ := h
    exact ⟨c, rest, rfl, has, mem⟩
  · intro h
    obtain ⟨c, rest, rfl, has, mem⟩ := h
    exact ⟨[c], ⟨c, rfl, has⟩, rest, mem, rfl⟩

/-- **Repeating single characters asks for nothing but characters of the class.** -/
theorem mem_kstar_charOf_iff : text ∈ (charOf p)∗ ↔ ∀ c ∈ text, p c := by
  rw [Language.mem_kstar]
  constructor
  · intro h
    obtain ⟨parts, rfl, single⟩ := h
    intro c mem
    obtain ⟨part, memPart, memChar⟩ := List.mem_flatten.mp mem
    obtain ⟨d, rfl, has⟩ := single part memPart
    rw [List.mem_singleton.mp memChar]
    exact has
  · intro all
    refine ⟨text.map fun c => [c], ?_, ?_⟩
    · rw [← List.flatMap_def, List.flatMap_singleton']
    · intro part mem
      obtain ⟨c, memChar, rfl⟩ := List.mem_map.mp mem
      exact ⟨c, rfl, all c memChar⟩

theorem letter_eq : letter = charOf fun c => isNameStart c = true := by
  ext text
  simp only [letter, charRange, Language.mem_add, mem_charOf_iff, mem_singleton_iff, isNameStart_iff, and_or_left,
    exists_or, exists_eq_right, or_assoc]

theorem digit_eq : digit = charOf fun c => c.isDigit = true := by
  ext text
  simp only [digit, charRange, mem_charOf_iff, isDigit_iff]

theorem letter_add_digit_eq : letter + digit = charOf fun c => isNamePart c = true := by
  ext text
  rw [letter_eq, digit_eq, Language.mem_add]
  simp only [mem_charOf_iff, isNamePart, Bool.or_eq_true, and_or_left, exists_or]

/-- A digit and more digits are a numeral. -/
theorem mem_digits_iff : text ∈ digit * digit∗ ↔ IsNumeral text := by
  rw [digit_eq, mem_charOf_mul_iff]
  cases text with
  | nil => simp [IsNumeral]
  | cons c rest => simp [mem_kstar_charOf_iff, isNumeral_cons_iff]

end Classes

/-- **The words of a kind are those that its expression describes.** -/
theorem Kind.mem_pattern_iff {kind : Kind} {text : List Char} : text ∈ kind.pattern ↔ kind.IsWord text := by
  cases kind with
  | identifier =>
    show text ∈ letter * (letter + digit)∗ ↔ IsName text
    rw [letter_add_digit_eq, letter_eq, mem_charOf_mul_iff]
    simp only [mem_kstar_charOf_iff, IsName]
  | integer => exact mem_digits_iff
  | real =>
    show text ∈ digit * digit∗ * {['.']} * (digit * digit∗) ↔ IsDecimal text
    rw [mul_assoc (digit * digit∗), Language.mem_mul]
    constructor
    · intro h
      obtain ⟨whole, memWhole, _, ⟨_, rfl, fraction, memFraction, rfl⟩, rfl⟩ := h
      exact ⟨whole, fraction, rfl, mem_digits_iff.mp memWhole, mem_digits_iff.mp memFraction⟩
    · intro h
      obtain ⟨whole, fraction, rfl, numeralWhole, numeralFraction⟩ := h
      have behind : '.' :: fraction ∈ ({['.']} * (digit * digit∗) : Language Char) :=
        Language.append_mem_mul (a := ['.']) rfl (mem_digits_iff.mpr numeralFraction)
      exact ⟨whole, mem_digits_iff.mpr numeralWhole, _, behind, rfl⟩
  | operator =>
    show text ∈ ({['+']} + {['-']} + {['*']} + {['/']} + {['^']} : Language Char) ↔ ∃ c, text = [c] ∧ isSign c = true
    simp only [Language.mem_add, mem_singleton_iff, isSign_iff, and_or_left, exists_or, exists_eq_right, or_assoc]
  | keyword => exact Iff.rfl
  | assignment => exact Iff.rfl

/-! ## What the expressions have in common -/

theorem Kind.not_mem_pattern_of_ne {kind other : Kind} (h : kind ≠ other) :
    ∀ text ∈ kind.pattern, text ∉ other.pattern := by
  intro text mem memOther
  have isWord : kind.IsWord text := mem_pattern_iff.mp mem
  have isWordOther : other.IsWord text := mem_pattern_iff.mp memOther
  exact h (isWord.unique isWordOther)

/-- The automaton of a kind of words stops at white space, so no word has any. -/
theorem Kind.IsWord.isBlank_eq_false {kind : Kind} {text : List Char} (h : kind.IsWord text) :
    ∀ c ∈ text, Text.isBlank c = false := by
  obtain ⟨rule, mem, rfl⟩ := Rule.exists_mem_standard h
  obtain ⟨a, built, accepts⟩ := Rule.standard_recognizes rule mem
  have leaves : a.LeavesBlanks := Rule.leavesBlanks_of_mem_standard rule mem a built
  apply leaves.isBlank_eq_false
  exact (accepts text).mpr h

/-! ## The languages -/

theorem Automaton.exists_language_eq (kind : Kind) {automaton : Except ConstructionError Automaton}
    (recognizes : Recognizes automaton kind.IsWord) : ∃ a, automaton = .ok a ∧ a.language = kind.pattern := by
  obtain ⟨a, built, accepts⟩ := recognizes
  refine ⟨a, built, ?_⟩
  ext text
  rw [Kind.mem_pattern_iff, ← accepts]
  rfl

/-- **The languages of the standard automata.** All five automata can be built. They accept `[A-Za-z_][A-Za-z0-9_]*`,
`[0-9]+`, `[0-9]+\.[0-9]+`, the five signs, and the assignment sign; no two of them accept one text, and none accepts the
empty text or a text with white space. -/
theorem standard_languages :
    ∃ identifier integer real operator assignment : Automaton,
      Automaton.identifier = .ok identifier ∧ identifier.language = letter * (letter + digit)∗ ∧
      Automaton.integer = .ok integer ∧ integer.language = digit * digit∗ ∧
      Automaton.real = .ok real ∧ real.language = digit * digit∗ * {['.']} * (digit * digit∗) ∧
      Automaton.operator = .ok operator ∧ operator.language = {['+']} + {['-']} + {['*']} + {['/']} + {['^']} ∧
      Automaton.assignment = .ok assignment ∧ assignment.language = {[':', '=']} ∧
      [identifier.language, integer.language, real.language, operator.language, assignment.language].Pairwise
        (fun first second => ∀ text ∈ first, text ∉ second) ∧
      ∀ a ∈ [identifier, integer, real, operator, assignment],
        [] ∉ a.language ∧ ∀ text ∈ a.language, ∀ c ∈ text, Text.isBlank c = false := by
  obtain ⟨identifier, builtIdentifier, identifierEq⟩ :=
    Automaton.exists_language_eq .identifier Automaton.identifier_recognizes
  obtain ⟨integer, builtInteger, integerEq⟩ :=
    Automaton.exists_language_eq .integer Automaton.integer_recognizes
  obtain ⟨real, builtReal, realEq⟩ := Automaton.exists_language_eq .real Automaton.real_recognizes
  obtain ⟨operator, builtOperator, operatorEq⟩ :=
    Automaton.exists_language_eq .operator Automaton.operator_recognizes
  obtain ⟨assignment, builtAssignment, assignmentEq⟩ :=
    Automaton.exists_language_eq .assignment Automaton.assignment_recognizes
  refine ⟨identifier, integer, real, operator, assignment, builtIdentifier, identifierEq, builtInteger, integerEq,
    builtReal, realEq, builtOperator, operatorEq, builtAssignment, assignmentEq, ?_, ?_⟩
  · rw [identifierEq, integerEq, realEq, operatorEq, assignmentEq]
    have kinds : [Kind.identifier, .integer, .real, .operator, .assignment].Pairwise (· ≠ ·) := by decide
    exact kinds.map Kind.pattern fun _ _ => Kind.not_mem_pattern_of_ne
  · have plain : ∀ (kind : Kind) (a : Automaton), a.language = kind.pattern →
        [] ∉ a.language ∧ ∀ text ∈ a.language, ∀ c ∈ text, Text.isBlank c = false := by
      intro kind a same
      rw [same]
      constructor
      · intro mem
        exact Kind.IsWord.ne_nil (Kind.mem_pattern_iff.mp mem) rfl
      · intro text mem
        exact Kind.IsWord.isBlank_eq_false (Kind.mem_pattern_iff.mp mem)
    rw [List.forall_mem_cons, List.forall_mem_cons, List.forall_mem_cons, List.forall_mem_cons, List.forall_mem_singleton]
    exact ⟨plain _ _ identifierEq, plain _ _ integerEq, plain _ _ realEq, plain _ _ operatorEq, plain _ _ assignmentEq⟩

end Mini
