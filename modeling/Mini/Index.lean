/-!
# Indices

Positions and counts in this library are unbounded integers, but an index into a text and a number of
repetitions have to fit in a signed word of 64 bits. `IsIndex` says which integers do; what refuses any other
integer says so in the words `notAnIndexMessage`.
-/

namespace Mini

/-- Whether an integer can be an index: a signed word of 64 bits holds it. -/
def IsIndex (i : Int) : Prop :=
  Int64.minValue.toInt ≤ i ∧ i ≤ Int64.maxValue.toInt

instance (i : Int) : Decidable (IsIndex i) :=
  inferInstanceAs (Decidable (_ ∧ _))

/-- The wording where an integer is no index. -/
def notAnIndexMessage : String := "cannot fit 'int' into an index-sized integer"

end Mini
