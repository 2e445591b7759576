import Mathlib.Order.Bounds.Basic
import Mini.Proofs.Keyword

/-!
# Matches from an offset

`matchAt_greatest`: from an offset that is not negative, a match has the greatest length at which the text behind the
offset is accepted. From a negative offset that reaches into the text it is the match at the beginning of a longer
text, the characters counted from the end with the whole text behind them. From an offset before the start there is no
match to speak of, but an error.

The scan goes by index. The indices from an offset on go through one text from its beginning to its end (`textFrom`,
`charAt_of_textFrom`), and there the scan does what a longest match does (`matchFrom_eq`), so all that is known of
longest matches holds from every offset. `keyword_exact` is the case of the automaton of one word.
-/

namespace Mini

/-! ## The text from an offset on -/

/-- The text that the indices from an offset on go through. Below zero they count from the end, so such a text goes on
with the whole text from its start. -/
def textFrom (text : List Char) (offset : Int) : List Char :=
  if 0 ≤ offset then text.drop offset.toNat else text.drop (text.length + offset).toNat ++ text

section Indices

variable {text : List Char} {offset : Int}

theorem textFrom_natCast (text : List Char) (offset : Nat) : textFrom text offset = text.drop offset :=
  if_pos (Int.natCast_nonneg offset)

theorem textFrom_of_neg (negative : offset < 0) :
    textFrom text offset = text.drop (text.length + offset).toNat ++ text :=
  if_neg (Int.not_le.mpr negative)

theorem length_textFrom (reaches : -text.length ≤ offset) :
    (textFrom text offset).length = (text.length - offset).toNat := by
  unfold textFrom
  split
  · rw [List.length_drop]
    omega
  · rw [List.length_append, List.length_drop]
    omega

/-- **Counted on from the offset, the indices find the characters of this text in order.** -/
theorem charAt_of_textFrom (reaches : -text.length ≤ offset) {n : Nat} {c : Char}
    (h : (textFrom text offset)[n]? = some c) : charAt text.toArray (offset + n) = .ok c := by
  rcases Int.lt_or_le offset 0 with negative | nonneg
  · obtain ⟨first, counted⟩ := Int.eq_ofNat_of_zero_le (show 0 ≤ text.length + offset by omega)
    have length : (text.drop first).length = text.length - first := List.length_drop
    rw [textFrom_of_neg negative, counted, Int.toNat_natCast] at h
    by_cases fromEnd : n < (text.drop first).length
    · rw [List.getElem?_append_left fromEnd, List.getElem?_drop] at h
      have place : (text.toArray.size : Int) + (offset + n) = (first + n : Nat) := by
        rw [List.size_toArray]
        omega
      exact charAt_of_neg (by omega) place (by simpa using h)
    · rw [List.getElem?_append_right (Nat.not_lt.mp fromEnd)] at h
      have index : offset + n = (n - (text.drop first).length : Nat) := by omega
      rw [index]
      exact charAt_of_nonneg (by simpa using h)
  · obtain ⟨first, rfl⟩ := Int.eq_ofNat_of_zero_le nonneg
    rw [textFrom_natCast, List.getElem?_drop] at h
    have index : (first : Int) + n = (first + n : Nat) := rfl
    rw [index]
    exact charAt_of_nonneg (by simpa using h)

end Indices

/-! ## The scan by index -/

namespace Automaton

variable {text : List Char} {offset : Int}

/-- **A scan by index is a scan of the text from the offset on.** -/
theorem matchFrom_eq (a : Automaton) (reaches : -text.length ≤ offset) (state : State) (length : Nat)
    (best : Option Nat) :
    a.matchFrom text.toArray offset state length best =
      .ok (a.longestFrom state length best ((textFrom text offset).drop length)) := by
  -- On what the scan has still to go through: its first character is the one at the next index.
  induction rest : (textFrom text offset).drop length generalizing state length best with
  | nil =>
    have ended := List.drop_eq_nil_iff.mp rest
    rw [length_textFrom reaches] at ended
    rw [matchFrom_end (by rw [List.size_toArray]; omega), longestFrom]
  | cons c more ih =>
    have found : (textFrom text offset)[length]? = some c := by
      rw [← List.head?_drop, rest, List.head?_cons]
    have inside : offset + length < text.toArray.size := by
      have := (List.getElem?_eq_some_iff.mp found).1
      rw [length_textFrom reaches] at this
      rw [List.size_toArray]
      omega
    have char := charAt_of_textFrom reaches found
    have behind : (textFrom text offset).drop (length + 1) = more := by
      rw [← List.tail_drop, rest, List.tail_cons]
    cases read : a.read state c with
    | none => rw [matchFrom_stop inside char read, longestFrom_cons_none read]
    | some next => rw [matchFrom_step inside char read, longestFrom_cons_some read, ih _ _ _ behind]

theorem matchAt_eq (a : Automaton) (reaches : -text.length ≤ offset) :
    a.matchAt text offset = .ok (a.longestMatch (textFrom text offset)) :=
  a.matchFrom_eq reaches a.start 0 none

theorem matchAt_natCast (a : Automaton) (text : List Char) (offset : Nat) :
    a.matchAt text offset = .ok (a.longestMatch (text.drop offset)) := by
  rw [matchAt_eq a (by omega), textFrom_natCast]

/-- An offset before the start of the text is refused at its first index. -/
theorem matchAt_of_lt (a : Automaton) (before : offset < -text.length) :
    a.matchAt text offset = .error (if IsIndex offset then .outOfRange else .notAnIndex) := by
  have index : offset + (0 : Nat) = offset := Int.add_zero offset
  refine matchFrom_error ?_ ?_ none
  · rw [index, List.size_toArray]
    omega
  · rw [index]
    exact charAt_of_lt (by rwa [List.size_toArray])

/-! ## Longest matches -/

/-- Whether there are so many characters behind an offset, one at least, and together they are accepted. -/
def AcceptsAt (a : Automaton) (text : List Char) (offset n : Nat) : Prop :=
  1 ≤ n ∧ offset + n ≤ text.length ∧ a.accepts ((text.drop offset).take n) = true

theorem isLongest_drop_iff {a : Automaton} {offset n : Nat} :
    IsLongest a.accepts (text.drop offset) n ↔ IsGreatest {m | a.AcceptsAt text offset m} n := by
  constructor
  · intro longest
    have le := longest.le
    have pos := longest.pos
    rw [List.length_drop] at le
    refine ⟨⟨pos, by omega, longest.accepts⟩, ?_⟩
    rintro m ⟨_, inside, accepted⟩
    refine Nat.not_lt.mp fun above => ?_
    rw [longest.last m above (by rw [List.length_drop]; omega)] at accepted
    cases accepted
  · rintro ⟨⟨pos, inside, accepted⟩, greatest⟩
    refine ⟨pos, by rw [List.length_drop]; omega, accepted, fun m above le => ?_⟩
    refine Bool.eq_false_iff.mpr fun acceptedMore => ?_
    rw [List.length_drop] at le
    exact Nat.not_lt.mpr (greatest ⟨by omega, by omega, acceptedMore⟩) above

theorem acceptsNone_drop_iff {a : Automaton} {offset : Nat} :
    AcceptsNone a.accepts (text.drop offset) ↔ ∀ n, ¬ a.AcceptsAt text offset n := by
  constructor
  · rintro none n ⟨pos, inside, accepted⟩
    rw [none n pos (by rw [List.length_drop]; omega)] at accepted
    cases accepted
  · intro none n pos le
    rw [List.length_drop] at le
    exact Bool.eq_false_iff.mpr fun accepted => none n ⟨pos, by omega, accepted⟩

/-- **A match agrees with acceptance, from every offset.** From an offset in the text or behind it, there is a match of
length `n` exactly when `n` is the greatest length at which the text behind the offset is accepted, and none exactly
when there is no such length. From a negative offset that reaches into the text the scan runs on from the end into the
beginning. An offset before the start is an error. -/
theorem matchAt_greatest (a : Automaton) (text : List Char) :
    (∀ offset : Nat, ∃ answer, a.matchAt text offset = .ok answer ∧
      (∀ n, answer = some n ↔ IsGreatest {m | a.AcceptsAt text offset m} n) ∧
      (answer = none ↔ ∀ n, ¬ a.AcceptsAt text offset n)) ∧
    (∀ offset : Int, -text.length ≤ offset → offset < 0 →
      a.matchAt text offset = a.matchAt (text.drop (text.length + offset).toNat ++ text) 0) ∧
    (∀ offset : Int, offset < -text.length →
      a.matchAt text offset = .error (if IsIndex offset then .outOfRange else .notAnIndex)) := by
  refine ⟨fun offset => ⟨_, a.matchAt_natCast text offset, fun n => ?_, ?_⟩, fun offset reaches negative => ?_,
    fun offset before => a.matchAt_of_lt before⟩
  · rw [longestMatch_eq_some_iff, isLongest_drop_iff]
  · rw [longestMatch_eq_none_iff, acceptsNone_drop_iff]
  · have fromStart := a.matchAt_natCast (text.drop (text.length + offset).toNat ++ text) 0
    rw [matchAt_eq a reaches, textFrom_of_neg negative]
    exact fromStart.symm

/-- From its last character on, a text is read round its end, and a scan that is led on in vain comes back to where it
last accepted. -/
theorem matchAt_greatest_round_the_end :
    let a : Automaton := .ofEdges "s" ["t"] [(("s", "b"), "r"), (("r", "a"), "t"), (("t", "a"), "r")]
    a.matchAt "aab".toList (-1) = a.matchAt "baab".toList 0 ∧ a.matchAt "baab".toList 0 = .ok (some 2) ∧
      a.matchAt "aab".toList (-4) = .error .outOfRange := by
  intro a
  obtain ⟨_, wraps, refuses⟩ := a.matchAt_greatest "aab".toList
  obtain ⟨greatest, _, _⟩ := a.matchAt_greatest "baab".toList
  obtain ⟨answer, isAnswer, isGreatest, _⟩ := greatest 0
  refine ⟨wraps (-1) (by decide) (by decide), ?_, refuses (-4) (by decide)⟩
  have two : answer = some 2 := by
    have last : ∀ m ≤ 4, a.accepts ("baab".toList.take m) = true → m ≤ 2 := by decide +kernel
    refine (isGreatest 2).mpr ⟨⟨by decide, by decide, by decide +kernel⟩, ?_⟩
    rintro m ⟨_, inside, accepted⟩
    exact last m (Nat.zero_add m ▸ inside) accepted
  rw [← two]
  exact isAnswer

/-! ## The automaton of a word -/

/-- An automaton that accepts one word alone finds it, and only where a text begins with it. -/
theorem longestMatch_of_accepts_iff {a : Automaton} {word : List Char} (nonempty : word ≠ [])
    (accepts : ∀ text, a.accepts text = true ↔ text = word) (text : List Char) :
    a.longestMatch text = if word <+: text then some word.length else none := by
  split
  next begins =>
    have whole : text.take word.length = word := (List.prefix_iff_eq_take.mp begins).symm
    refine longestMatch_eq_some_iff.mpr ⟨List.length_pos_iff.mpr nonempty, begins.length_le, ?_, fun m above le => ?_⟩
    · rw [whole, accepts]
    · refine Bool.eq_false_iff.mpr fun accepted => ?_
      have length := congrArg List.length ((accepts _).mp accepted)
      rw [List.length_take_of_le le] at length
      omega
  next other =>
    refine longestMatch_eq_none_iff.mpr fun n _ _ => Bool.eq_false_iff.mpr fun accepted => other ?_
    rw [← (accepts _).mp accepted]
    exact List.take_prefix n text

/-- **The automaton of a word can always be built, accepts this word and no other text, and matches from an offset
just where the word stands there.** -/
theorem keyword_exact (word : String) (nonempty : word ≠ "") :
    ∃ a, keyword word = .ok a ∧ (∀ text, a.accepts text = true ↔ text = word.toList) ∧
      ∀ (text : List Char) (offset : Nat), a.matchAt text offset =
        .ok (if word.toList <+: text.drop offset then some word.length else none) := by
  have letters : word.toList ≠ [] := fun empty => nonempty (String.toList_eq_nil_iff.mp empty)
  obtain ⟨a, built, accepts⟩ := keyword_recognizes letters
  refine ⟨a, built, accepts, fun text offset => ?_⟩
  rw [matchAt_natCast, longestMatch_of_accepts_iff letters accepts, String.length_toList]

/-- A word that repeats its own beginning: behind a first part of it the whole word is found only from where it
starts. -/
theorem keyword_exact_repeating :
    "abab" ≠ "" ∧ ∃ a, keyword "abab" = .ok a ∧ a.accepts "ab".toList = false ∧
      a.matchAt "ababab".toList 2 = .ok (some 4) ∧ a.matchAt "ababab".toList 3 = .ok none ∧
      a.matchAt "ababab".toList 7 = .ok none := by
  have nonempty : "abab" ≠ "" := by decide
  obtain ⟨a, built, accepts, found⟩ := keyword_exact "abab" nonempty
  refine ⟨nonempty, a, built, Bool.eq_false_iff.mpr fun accepted => ?_, ?_, ?_, ?_⟩
  · exact absurd ((accepts _).mp accepted) (by decide)
  · exact (found _ 2).trans (by decide)
  · exact (found _ 3).trans (by decide)
  · exact (found _ 7).trans (by decide)

end Automaton

end Mini
