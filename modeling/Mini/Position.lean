import Mini.Decimal

/-!
# Positions in a text

A position is a line and a column, both counted from one where a text is read from its start; as data they
are any integers. A line feed moves to the first column of the next line and every other character moves one
column on, whether it is skipped or belongs to a lexeme.

Where a text names a position, its line and its column both have to be integers that can stand in a text.
-/

namespace Mini

/-- A line and a column. -/
structure Position where
  line : Int
  column : Int
  deriving DecidableEq, Repr

namespace Position

/-- Where every text starts. -/
def start : Position := ⟨1, 1⟩

/-- Whether a text can name the position. -/
def IsWritable (p : Position) : Prop :=
  Mini.IsWritable p.line ∧ Mini.IsWritable p.column

instance (p : Position) : Decidable p.IsWritable :=
  inferInstanceAs (Decidable (_ ∧ _))

/-- The position behind one character. -/
def advance (here : Position) (c : Char) : Position :=
  if c = '\n' then ⟨here.line + 1, 1⟩ else ⟨here.line, here.column + 1⟩

/-- The position behind a run of characters. -/
def advanceOver (here : Position) (text : List Char) : Position :=
  text.foldl advance here

theorem advanceOver_nil (here : Position) : here.advanceOver [] = here := rfl

theorem advanceOver_cons (here : Position) (c : Char) (text : List Char) :
    here.advanceOver (c :: text) = (here.advance c).advanceOver text := rfl

theorem advanceOver_append (here : Position) (first second : List Char) :
    here.advanceOver (first ++ second) = (here.advanceOver first).advanceOver second :=
  List.foldl_append

end Position

end Mini
