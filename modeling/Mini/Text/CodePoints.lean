/-!
# Sets of code points

A set of characters is given by a table of ranges of code points, both ends included. Membership is
decided by looking at every range; `contains_iff` says what that decides. The tables themselves stand
in the modules named for the property they hold.
-/

namespace Mini.Text

/-- Ranges of code points, both ends included. Order and overlap do not matter. -/
abbrev CodePoints := List (Nat × Nat)

namespace CodePoints

/-- Whether some range of the table holds the character. -/
def contains (table : CodePoints) (c : Char) : Bool :=
  table.any fun range => range.1 ≤ c.toNat && c.toNat ≤ range.2

theorem contains_iff {table : CodePoints} {c : Char} :
    table.contains c = true ↔ ∃ range ∈ table, range.1 ≤ c.toNat ∧ c.toNat ≤ range.2 := by
  simp [contains]

end CodePoints

end Mini.Text
