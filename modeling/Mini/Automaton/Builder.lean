import Mini.Automaton.Basic
import Mini.Text.Quoted

/-!
# Building automata

A builder collects edges. A request registers one edge, or one edge for every character between two bounds;
it is refused when a label or a bound is not a single character, when the bounds are in the wrong order, and
when an edge would contradict one that is already there. Registering the same edge again changes nothing.

An attempt answers with the builder as it stands afterwards, whether or not the request was refused: a range
that runs into a contradiction keeps the edges before it. `register` is the attempt that stops at a refusal.
-/

namespace Mini

/-- Why an automaton cannot be built. -/
inductive ConstructionError where
  /-- The label of an edge is not one character. -/
  | labelNotSingle (label : String)
  /-- The state already has an edge with this label, to another state. -/
  | conflict (source : State) (label : Label) (old new : State)
  /-- A bound of a range is not one character. -/
  | boundNotSingle (first last : String)
  /-- The bounds of a range are in the wrong order. -/
  | emptyRange (first last : String)
  /-- A keyword has no characters. -/
  | emptyKeyword
  deriving DecidableEq, Repr

/-- The wording of a construction error. States are written plainly, labels and bounds quoted. -/
def ConstructionError.message : ConstructionError → String
  | .labelNotSingle label => s!"Transition label must be one character, got {Text.quote label}"
  | .conflict source label old new =>
    s!"Conflicting transition from {source} on {Text.quote label}: {old} vs {new}"
  | .boundNotSingle first last =>
    s!"Range bounds must be single characters, got {Text.quote first}..{Text.quote last}"
  | .emptyRange first last => s!"Empty character range {Text.quote first}..{Text.quote last}"
  | .emptyKeyword => "Keyword must not be empty"

/-- The character of a text that has just one. -/
def singleChar? (text : String) : Option Char :=
  match text.toList with
  | [c] => some c
  | _ => none

/-- The characters from one to another, in the order of their code points. Code points of surrogates are no
characters and are passed over. -/
def charsFrom (lo hi : Char) : List Char :=
  ((List.range' lo.toNat (hi.toNat + 1 - lo.toNat)).filter fun n => n.isValidChar).map Char.ofNat

/-- A request to a builder. -/
inductive Registration where
  /-- One edge. -/
  | edge (source : State) (label : Label) (target : State)
  /-- An edge for every character from the first bound to the last. -/
  | range (source : State) (first last : String) (target : State)
  deriving DecidableEq, Repr

/-- The edges registered so far. -/
structure Builder where
  table : Table

/-- What a request leaves behind: the builder, and the error if it was refused. -/
structure Attempt where
  builder : Builder
  refusal : Option ConstructionError

namespace Builder

/-- No edges yet. -/
def empty : Builder := ⟨∅⟩

/-- The builder with an edge on one character, unless that state and character lead elsewhere. -/
def addEdge (b : Builder) (source : State) (c : Char) (target : State) :
    Except ConstructionError Builder :=
  match b.table[(source, String.singleton c)]? with
  | none => .ok ⟨b.table.insert (source, String.singleton c) target⟩
  | some old => if old = target then .ok b else .error (.conflict source (String.singleton c) old target)

/-- Edges on the listed characters, in order, up to the first contradiction. -/
def addEdges (b : Builder) (source : State) (target : State) : List Char → Attempt
  | [] => ⟨b, none⟩
  | c :: rest =>
    match b.addEdge source c target with
    | .ok more => more.addEdges source target rest
    | .error e => ⟨b, some e⟩

/-- The builder after a request, refused or not. -/
def attempt (b : Builder) : Registration → Attempt
  | .edge source label target =>
    match singleChar? label with
    | none => ⟨b, some (.labelNotSingle label)⟩
    | some c => b.addEdges source target [c]
  | .range source first last target =>
    match singleChar? first, singleChar? last with
    | some lo, some hi =>
      if lo ≤ hi then b.addEdges source target (charsFrom lo hi)
      else ⟨b, some (.emptyRange first last)⟩
    | _, _ => ⟨b, some (.boundNotSingle first last)⟩

/-- The builder after a request that was not refused. -/
def register (b : Builder) (request : Registration) : Except ConstructionError Builder :=
  match b.attempt request with
  | ⟨next, none⟩ => .ok next
  | ⟨_, some e⟩ => .error e

/-- The builder after all requests in order, or the first refusal. -/
def registerAll (b : Builder) (requests : List Registration) : Except ConstructionError Builder :=
  requests.foldlM register b

/-- The automaton with the edges registered so far. The builder can be used on. -/
def build (b : Builder) (start : State) (accepting : List State) : Automaton :=
  ⟨start, .ofList accepting, b.table⟩

end Builder

/-- The automaton that a list of requests describes, or the first refusal. -/
def Automaton.ofRegistrations (start : State) (accepting : List State) (requests : List Registration) :
    Except ConstructionError Automaton := do
  let builder ← Builder.empty.registerAll requests
  return builder.build start accepting

/-! ## What a builder keeps -/

theorem singleChar?_eq_some_iff {text : String} {c : Char} :
    singleChar? text = some c ↔ text = String.singleton c := by
  rw [← String.toList_inj, String.toList_singleton]
  unfold singleChar?
  split <;> simp_all

namespace Builder

/-- An edge is refused exactly when its state and character lead elsewhere. -/
theorem addEdge_eq_error_iff {b : Builder} {source target : State} {c : Char} {e : ConstructionError} :
    b.addEdge source c target = .error e ↔
      ∃ old, b.table[(source, String.singleton c)]? = some old ∧ old ≠ target ∧
        e = .conflict source (String.singleton c) old target := by
  unfold addEdge
  cases found : b.table[(source, String.singleton c)]? with
  | none => simp
  | some old =>
    by_cases same : old = target
    · simp [same]
    · simp [same, eq_comm (a := e)]

/-- **An edge that is not refused is there afterwards, and every other edge is as before.** -/
theorem getElem?_of_addEdge {b after : Builder} {source target : State} {c : Char}
    (h : b.addEdge source c target = .ok after) (key : State × Label) :
    after.table[key]? = if key = (source, String.singleton c) then some target else b.table[key]? := by
  unfold addEdge at h
  cases found : b.table[(source, String.singleton c)]? with
  | none =>
    simp only [found, Except.ok.injEq] at h
    subst h
    rw [Std.ExtTreeMap.getElem?_insert]
    simp only [Std.LawfulEqCmp.compare_eq_iff_eq, eq_comm (a := key)]
  | some old =>
    by_cases same : old = target
    · simp only [found, if_pos same, Except.ok.injEq] at h
      subst h
      split
      · rename_i eq; rw [eq, found, same]
      · rfl
    · simp [found, same] at h

/-- Edges that are there stay: adding an edge keeps every edge. -/
theorem getElem?_mono_of_addEdge {b after : Builder} {source target : State} {c : Char}
    (h : b.addEdge source c target = .ok after) {key : State × Label} {state : State}
    (there : b.table[key]? = some state) : after.table[key]? = some state := by
  rw [getElem?_of_addEdge h key]
  split
  · rename_i eq
    subst eq
    unfold addEdge at h
    by_cases same : state = target
    · rw [same]
    · simp [there, same] at h
  · exact there

end Builder

/-! ## Ranges of characters -/

theorem toNat_ofNat_of_isValidChar {n : Nat} (h : n.isValidChar) : (Char.ofNat n).toNat = n := by
  rw [Char.ofNat, dif_pos h]
  rfl

/-- The characters from one to another are those between them, both included. -/
theorem mem_charsFrom_iff {lo hi c : Char} : c ∈ charsFrom lo hi ↔ lo ≤ c ∧ c ≤ hi := by
  have order : ∀ a b : Char, a ≤ b ↔ a.toNat ≤ b.toNat := fun _ _ => Iff.rfl
  simp only [charsFrom, List.mem_map, List.mem_filter, List.mem_range'_1, order, decide_eq_true_eq]
  constructor
  · rintro ⟨n, ⟨bounds, valid⟩, rfl⟩
    rw [toNat_ofNat_of_isValidChar valid]
    omega
  · intro bounds
    exact ⟨c.toNat, ⟨by omega, c.valid⟩, Char.ofNat_toNat c⟩

theorem pairwise_charsFrom (lo hi : Char) : (charsFrom lo hi).Pairwise (· < ·) := by
  refine List.pairwise_map.mpr (List.Pairwise.imp_of_mem (fun {m n} memM memN below => ?_)
    (List.Pairwise.filter _ List.pairwise_lt_range'))
  have validM : m.isValidChar := of_decide_eq_true (List.mem_filter.mp memM).2
  have validN : n.isValidChar := of_decide_eq_true (List.mem_filter.mp memN).2
  show (Char.ofNat m).toNat < (Char.ofNat n).toNat
  rw [toNat_ofNat_of_isValidChar validM, toNat_ofNat_of_isValidChar validN]
  exact below

end Mini
