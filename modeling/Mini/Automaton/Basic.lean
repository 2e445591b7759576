import Mini.Index
import Std.Data.ExtTreeMap
import Std.Data.ExtTreeSet

/-!
# Deterministic automata

An automaton has named states and a table of labelled edges, at most one for a state and a label; where an
edge is missing it stops. It reads a text character by character, each under the label that is the character
alone, so an edge with any other label is reached by single steps only.

The table is extensional and ordered: two automata with the same edges are equal, however they were made,
and the edges come out sorted by state and label, strings compared by code point.

`accepts` asks whether the whole text leads to an accepting state. `longestMatch` gives the length of the
longest non-empty beginning that is accepted, and `matchAt` does so from any offset of a text.
-/

namespace Mini

/-- A state, by its name. -/
abbrev State := String

/-- What an edge is labelled with. -/
abbrev Label := String

/-- Edges are ordered by the state they leave and then by their label. -/
def edgeOrder : State × Label → State × Label → Ordering :=
  compareLex (compareOn Prod.fst) (compareOn Prod.snd)

instance : Std.TransCmp edgeOrder :=
  inferInstanceAs (Std.TransCmp (compareLex _ _))

instance : Std.LawfulEqCmp edgeOrder where
  eq_of_compare {a b} h := by
    obtain ⟨states, labels⟩ := compareLex_eq_eq.mp h
    exact Prod.ext (by simpa [compareOn] using states) (by simpa [compareOn] using labels)

/-- The edges of an automaton: a state and a label lead to at most one state. -/
abbrev Table := Std.ExtTreeMap (State × Label) State edgeOrder

/-- An automaton: where it starts, which states accept, and its edges. Accepting states need not occur in
an edge. -/
structure Automaton where
  start : State
  accepting : Std.ExtTreeSet State
  table : Table

/-- Why a text has no character at an index. -/
inductive OffsetError where
  | outOfRange
  /-- The index would not even be one of a longer text. -/
  | notAnIndex
  deriving DecidableEq, Repr

/-- The wording of an offset error. -/
def OffsetError.message : OffsetError → String
  | .outOfRange => "string index out of range"
  | .notAnIndex => notAnIndexMessage

/-- The character at an index of a text. A negative index counts from the end. -/
def charAt (text : Array Char) (index : Int) : Except OffsetError Char :=
  let place := if 0 ≤ index then index else text.size + index
  match if 0 ≤ place then text[place.toNat]? else none with
  | some c => .ok c
  | none => .error (if IsIndex index then .outOfRange else .notAnIndex)

theorem charAt_of_nonneg {text : Array Char} {place : Nat} {c : Char} (h : text[place]? = some c) :
    charAt text place = .ok c := by
  simp [charAt, h]

/-- A negative index that reaches into the text counts from the end. -/
theorem charAt_of_neg {text : Array Char} {index : Int} {place : Nat} {c : Char} (negative : index < 0)
    (counted : text.size + index = place) (h : text[place]? = some c) : charAt text index = .ok c := by
  simp [charAt, Int.not_le.mpr negative, counted, h]

/-- A negative index that lies before the start of the text has no character. -/
theorem charAt_of_lt {text : Array Char} {index : Int} (before : index < -text.size) :
    charAt text index = .error (if IsIndex index then .outOfRange else .notAnIndex) := by
  have negative : ¬ 0 ≤ index := by omega
  have outside : ¬ 0 ≤ text.size + index := by omega
  simp [charAt, negative, outside]

namespace Automaton

/-- The automaton with exactly the listed edges; of two for one state and label the later one counts. -/
def ofEdges (start : State) (accepting : List State) (edges : List ((State × Label) × State)) : Automaton :=
  ⟨start, .ofList accepting, .ofList edges edgeOrder⟩

/-- The state that an edge leads to. -/
def step (a : Automaton) (state : State) (label : Label) : Option State :=
  a.table[(state, label)]?

/-- The state that one character leads to. -/
def read (a : Automaton) (state : State) (c : Char) : Option State :=
  a.step state (String.singleton c)

/-- Whether the automaton may stop here. -/
def isAccepting (a : Automaton) (state : State) : Bool :=
  a.accepting.contains state

/-- The state that a text leads to, if no edge is missing on the way. -/
def run (a : Automaton) (state : State) : List Char → Option State
  | [] => some state
  | c :: rest =>
    match a.read state c with
    | none => none
    | some next => a.run next rest

/-- Whether the text leads from the start to an accepting state. -/
def accepts (a : Automaton) (text : List Char) : Bool :=
  (a.run a.start text).any a.isAccepting

/-- The longest match when `length` characters have led to `state` and `best` is the last accepting length
among them. -/
def longestFrom (a : Automaton) (state : State) (length : Nat) (best : Option Nat) :
    List Char → Option Nat
  | [] => best
  | c :: rest =>
    match a.read state c with
    | none => best
    | some next =>
      a.longestFrom next (length + 1) (if a.isAccepting next then some (length + 1) else best) rest

/-- The length of the longest non-empty beginning of the text that is accepted. The scan goes on behind an
accepting state and ends at the first missing edge. -/
def longestMatch (a : Automaton) (text : List Char) : Option Nat :=
  a.longestFrom a.start 0 none text

/-- The longest match from an offset, when `length` characters behind the offset have led to `state` and `best` is
the last accepting length among them. The scan goes by index and ends at the end of the text: from a negative
offset it first goes through the characters counted from the end and then through those from the start. -/
def matchFrom (a : Automaton) (text : Array Char) (offset : Int) (state : State) (length : Nat)
    (best : Option Nat) : Except OffsetError (Option Nat) :=
  if offset + length < text.size then
    match charAt text (offset + length) with
    | .error e => .error e
    | .ok c =>
      match a.read state c with
      | none => .ok best
      | some next =>
        a.matchFrom text offset next (length + 1) (if a.isAccepting next then some (length + 1) else best)
  else
    .ok best
  termination_by (text.size - (offset + length)).toNat

/-- The longest match from an offset, which can be any integer. An offset that is counted from the end and lies
before the start of the text is an error. -/
def matchAt (a : Automaton) (text : List Char) (offset : Int) : Except OffsetError (Option Nat) :=
  a.matchFrom text.toArray offset a.start 0 none

/-! ## Runs -/

theorem run_cons (a : Automaton) (state : State) (c : Char) (rest : List Char) :
    a.run state (c :: rest) = (a.read state c).bind fun next => a.run next rest := by
  cases h : a.read state c <;> simp [run, h]

/-! ## Longest matches -/

theorem longestFrom_cons_none {a : Automaton} {state : State} {c : Char} (missing : a.read state c = none)
    (length : Nat) (best : Option Nat) (rest : List Char) : a.longestFrom state length best (c :: rest) = best := by
  rw [longestFrom, missing]

theorem longestFrom_cons_some {a : Automaton} {state next : State} {c : Char} (read : a.read state c = some next)
    (length : Nat) (best : Option Nat) (rest : List Char) :
    a.longestFrom state length best (c :: rest) =
      a.longestFrom next (length + 1) (if a.isAccepting next then some (length + 1) else best) rest := by
  rw [longestFrom, read]

/-- What a scan answers is the best length before it or a longer one inside the text. -/
theorem longestFrom_bounds {a : Automaton} {state : State} {length n : Nat} {best : Option Nat}
    {text : List Char} (h : a.longestFrom state length best text = some n) :
    best = some n ∨ length < n ∧ n ≤ length + text.length := by
  induction text generalizing state length best with
  | nil => exact .inl h
  | cons c rest ih =>
    unfold longestFrom at h
    split at h
    · exact .inl h
    · rw [List.length_cons]
      rcases ih h with found | bounds
      · split at found
        · cases found; exact .inr ⟨by omega, by omega⟩
        · exact .inl found
      · exact .inr ⟨by omega, by omega⟩

/-- **A match is never empty and never longer than the text.** -/
theorem longestMatch_bounds {a : Automaton} {text : List Char} {n : Nat}
    (h : a.longestMatch text = some n) : 0 < n ∧ n ≤ text.length := by
  rcases longestFrom_bounds h with found | bounds
  · cases found
  · simpa using bounds

/-! ## The cases of a scan by index -/

section Index

variable {a : Automaton} {text : Array Char} {offset : Int} {state next : State} {length : Nat} {c : Char}

theorem matchFrom_end (ended : text.size ≤ offset + length) (best : Option Nat) :
    a.matchFrom text offset state length best = .ok best := by
  rw [matchFrom, if_neg (Int.not_lt.mpr ended)]

theorem matchFrom_error {e : OffsetError} (inside : offset + length < text.size)
    (h : charAt text (offset + length) = .error e) (best : Option Nat) :
    a.matchFrom text offset state length best = .error e := by
  rw [matchFrom, if_pos inside, h]

theorem matchFrom_stop (inside : offset + length < text.size) (h : charAt text (offset + length) = .ok c)
    (missing : a.read state c = none) (best : Option Nat) :
    a.matchFrom text offset state length best = .ok best := by
  rw [matchFrom, if_pos inside, h]
  simp only [missing]

theorem matchFrom_step (inside : offset + length < text.size) (h : charAt text (offset + length) = .ok c)
    (read : a.read state c = some next) (best : Option Nat) :
    a.matchFrom text offset state length best =
      a.matchFrom text offset next (length + 1) (if a.isAccepting next then some (length + 1) else best) := by
  rw [matchFrom, if_pos inside, h]
  simp only [read]

end Index

end Automaton

end Mini
