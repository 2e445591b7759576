/-!
# Integers in texts

In a text an integer stands as its decimal digits, behind a sign if it is negative. Integers in this library are unbounded,
but the digits of very large ones are not worked out: `IsWritable` says which integers can stand in a text, and where any
other integer should stand there is a `DecimalError` instead of the text.
-/

namespace Mini

/-- How many digits an integer in a text can have. -/
def mostDigits : Nat := 4300

/-- Whether an integer can stand in a text. Its sign does not count. -/
def IsWritable (i : Int) : Prop :=
  (Nat.toDigits 10 i.natAbs).length ≤ mostDigits

instance (i : Int) : Decidable (IsWritable i) :=
  inferInstanceAs (Decidable (_ ≤ _))

/-- Why there is no text with an integer in it. -/
inductive DecimalError where
  /-- The integer has more digits than are worked out. -/
  | tooManyDigits
  deriving DecidableEq, Repr

/-- The wording of a decimal error. -/
def DecimalError.message : DecimalError → String
  | .tooManyDigits => s!"Exceeds the limit ({mostDigits} digits) for integer string conversion; " ++
      "use sys.set_int_max_str_digits() to increase the limit"

/-- The integers that can stand in a text are those below a power of ten, on either side of zero. -/
theorem isWritable_iff {i : Int} : IsWritable i ↔ i.natAbs < Nat.pow 10 mostDigits := by
  have some : 0 < mostDigits := by decide
  rw [IsWritable]
  generalize mostDigits = k at some ⊢
  exact Nat.length_toDigits_le_iff (by decide) some

/-- The power of ten itself has one digit too many. -/
theorem not_isWritable_pow : ¬ IsWritable (Nat.pow 10 mostDigits : Nat) := by
  rw [isWritable_iff, Int.natAbs_natCast]
  exact Nat.lt_irrefl _

theorem IsWritable.of_natAbs_le {i j : Int} (h : IsWritable j) (nearer : i.natAbs ≤ j.natAbs) : IsWritable i :=
  isWritable_iff.mpr (Nat.lt_of_le_of_lt nearer (isWritable_iff.mp h))

end Mini
