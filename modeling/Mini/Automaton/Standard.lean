import Mini.Automaton.Builder

/-!
# The automata of the Mini language

The lexical categories of Mini, each as the requests that build its automaton: identifiers, integers, reals
with digits on both sides of the point, the five operators, the assignment sign, and for any word the
automaton that accepts this word alone. Letters and digits are those of ASCII.
-/

namespace Mini.Automaton

/-- Where every automaton of this module starts. -/
def startState : State := "START"

/-- An edge for every letter and the underscore. -/
def letterEdges (source target : State) : List Registration :=
  [.range source "a" "z" target, .range source "A" "Z" target, .edge source "_" target]

/-- An edge for every digit. -/
def digitEdges (source target : State) : List Registration :=
  [.range source "0" "9" target]

/-- Identifiers: a letter or underscore, then letters, underscores and digits. -/
def identifier : Except ConstructionError Automaton :=
  ofRegistrations startState ["IDENTIFIER"]
    (letterEdges startState "IDENTIFIER" ++ letterEdges "IDENTIFIER" "IDENTIFIER" ++
      digitEdges "IDENTIFIER" "IDENTIFIER")

/-- Integers: one digit or more. -/
def integer : Except ConstructionError Automaton :=
  ofRegistrations startState ["INTEGER"]
    (digitEdges startState "INTEGER" ++ digitEdges "INTEGER" "INTEGER")

/-- Reals: digits, a point, digits; neither side may be missing. -/
def real : Except ConstructionError Automaton :=
  ofRegistrations startState ["FRACTIONAL_PART"]
    (digitEdges startState "INTEGER_PART" ++ digitEdges "INTEGER_PART" "INTEGER_PART" ++
      [.edge "INTEGER_PART" "." "DECIMAL_POINT"] ++
      digitEdges "DECIMAL_POINT" "FRACTIONAL_PART" ++ digitEdges "FRACTIONAL_PART" "FRACTIONAL_PART")

/-- The operators, one character each. -/
def operator : Except ConstructionError Automaton :=
  ofRegistrations startState ["OPERATOR"]
    (["+", "-", "*", "/", "^"].map fun sign => .edge startState sign "OPERATOR")

/-- The assignment sign. -/
def assignment : Except ConstructionError Automaton :=
  ofRegistrations startState ["ASSIGNMENT"]
    [.edge startState ":" "COLON", .edge "COLON" "=" "ASSIGNMENT"]

/-- A chain of edges along a word. The states between are numbered, the last one accepts. -/
def keywordEdges (source : State) (number : Nat) : List Char → List Registration
  | [] => []
  | [c] => [.edge source (String.singleton c) "ACCEPT"]
  | c :: rest =>
    let next := s!"STATE_{number}"
    .edge source (String.singleton c) next :: keywordEdges next (number + 1) rest

/-- The automaton of one word. -/
def keyword (word : String) : Except ConstructionError Automaton :=
  match word.toList with
  | [] => .error .emptyKeyword
  | characters => ofRegistrations startState ["ACCEPT"] (keywordEdges startState 1 characters)

/-! ## The cases of a keyword -/

theorem keywordEdges_cons_cons (source : State) (number : Nat) (c d : Char) (rest : List Char) :
    keywordEdges source number (c :: d :: rest) =
      .edge source (String.singleton c) s!"STATE_{number}" :: keywordEdges s!"STATE_{number}" (number + 1) (d :: rest) :=
  rfl

theorem keyword_of_toList_eq_nil {word : String} (h : word.toList = []) : keyword word = .error .emptyKeyword := by
  rw [keyword, h]

theorem keyword_of_toList_eq_cons {word : String} {c : Char} {rest : List Char} (h : word.toList = c :: rest) :
    keyword word = ofRegistrations startState ["ACCEPT"] (keywordEdges startState 1 (c :: rest)) := by
  rw [keyword, h]

end Mini.Automaton
