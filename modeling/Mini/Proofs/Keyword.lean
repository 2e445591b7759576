import Mini.Proofs.StandardToken
import Std.Data.String.ToNat

/-!
# Keywords

The automaton of a word accepts this word and nothing else (`Automaton.keyword_recognizes`). Its states count how many
characters of the word have been read, so it never comes back to a state, and no two of its edges contradict each
other, whatever characters the word repeats.

A rule for a keyword, added to the standard rules with a priority above theirs, gives the next token wherever the
keyword stands at the beginning of a text; everywhere else the next token is the standard one
(`nextToken_keyword_iff`). Where in the list the rule is added does not matter.
-/

namespace Mini

namespace Automaton

/-! ## The states of a word -/

/-- The state behind a number of characters of a word, if there are more. -/
def chainState (count : Nat) : State :=
  if count = 0 then startState else s!"STATE_{count}"

theorem toList_chainState_succ (count : Nat) :
    (chainState (count + 1)).toList = "STATE_".toList ++ (count + 1).repr.toList :=
  String.toList_append

theorem chainState_succ_ne_start (count : Nat) : chainState (count + 1) ≠ startState := by
  intro same
  have letters := (toList_chainState_succ count).symm.trans (congrArg String.toList same)
  cases letters

theorem chainState_ne_accept (count : Nat) : chainState count ≠ "ACCEPT" := by
  intro same
  cases count with
  | zero => exact absurd same (by decide)
  | succ count =>
    have letters := (toList_chainState_succ count).symm.trans (congrArg String.toList same)
    cases letters

/-- **The states of a word are told apart by how much of it has been read.** -/
theorem chainState_inj {m n : Nat} : chainState m = chainState n ↔ m = n := by
  refine ⟨fun same => ?_, congrArg chainState⟩
  cases m with
  | zero =>
    cases n with
    | zero => rfl
    | succ n => exact absurd same.symm (chainState_succ_ne_start n)
  | succ m =>
    cases n with
    | zero => exact absurd same (chainState_succ_ne_start m)
    | succ n =>
      have letters := congrArg String.toList same
      rw [toList_chainState_succ, toList_chainState_succ] at letters
      exact Nat.repr_inj.mp (String.toList_inj.mp (List.append_cancel_left letters))

/-- How a word is read, behind a number of characters. -/
def readWord (count : Nat) : List Char → State → Char → Option State
  | [], _, _ => none
  | c :: rest, state, d =>
    if state = chainState count then
      if d = c then some (if rest = [] then "ACCEPT" else chainState (count + 1)) else none
    else readWord (count + 1) rest state d

theorem keywordEdges_chainState (count : Nat) (c : Char) (rest : List Char) :
    keywordEdges (chainState count) (count + 1) (c :: rest) =
      .edge (chainState count) (String.singleton c) (if rest = [] then "ACCEPT" else chainState (count + 1)) ::
        keywordEdges (chainState (count + 1)) (count + 2) rest := by
  cases rest with
  | nil => rfl
  | cons d rest => rfl

theorem readWord_of_lt {count passed : Nat} (h : passed < count) (word : List Char) (c : Char) :
    readWord count word (chainState passed) c = none := by
  induction word generalizing count with
  | nil => rfl
  | cons d rest ih =>
    have other : chainState passed ≠ chainState count := fun same => Nat.ne_of_lt h (chainState_inj.mp same)
    rw [readWord, if_neg other, ih (Nat.lt_succ_of_lt h)]

theorem readWord_accept (count : Nat) (word : List Char) (c : Char) : readWord count word "ACCEPT" c = none := by
  induction word generalizing count with
  | nil => rfl
  | cons d rest ih => rw [readWord, if_neg (chainState_ne_accept count).symm, ih]

theorem isProper_keywordEdges (word : List Char) (count : Nat) :
    ∀ r ∈ keywordEdges (chainState count) (count + 1) word, r.IsProper := by
  induction word generalizing count with
  | nil => exact List.forall_mem_nil _
  | cons c rest ih =>
    rw [keywordEdges_chainState, List.forall_mem_cons]
    exact ⟨⟨c, rfl⟩, ih (count + 1)⟩

/-- The edges of a word are those by which it is read. -/
theorem asks_keywordEdges_iff {state target : State} {d : Char} (word : List Char) (count : Nat) :
    (∃ r ∈ keywordEdges (chainState count) (count + 1) word, r.Asks (state, String.singleton d) target) ↔
      readWord count word state d = some target := by
  induction word generalizing count with
  | nil => simp [keywordEdges, readWord]
  | cons c rest ih =>
    simp only [keywordEdges_chainState, List.mem_cons, exists_eq_or_imp, Registration.asks_edge_iff _ c rfl, ih]
    by_cases here : state = chainState count
    · rw [readWord, if_pos here, here, readWord_of_lt (Nat.lt_succ_self count)]
      by_cases same : d = c <;> simp [same, eq_comm]
    · rw [readWord, if_neg here]
      simp [here]

theorem exists_keyword {word : String} (nonempty : word.toList ≠ []) :
    ∃ a, keyword word = .ok a ∧ a.Follows startState ["ACCEPT"] (readWord 0 word.toList) := by
  obtain ⟨c, rest, letters⟩ := List.exists_cons_of_ne_nil nonempty
  rw [keyword_of_toList_eq_cons letters, letters]
  exact exists_follows_of_asks startState ["ACCEPT"] (isProper_keywordEdges (c :: rest) 0) fun source d target =>
    asks_keywordEdges_iff (c :: rest) 0

/-- **An automaton that reads a word from a state on accepts from there what is left of the word.** -/
theorem acceptsFrom_chainState_iff {a : Automaton} (accepting : ∀ state, a.isAccepting state = ["ACCEPT"].contains state)
    (ending : ∀ c, a.read "ACCEPT" c = none) {word : List Char} (nonempty : word ≠ []) {count : Nat}
    (reads : ∀ passed d, count ≤ passed → a.read (chainState passed) d = readWord count word (chainState passed) d)
    (text : List Char) : a.acceptsFrom (chainState count) text = true ↔ text = word := by
  -- Along the word: behind its first character, the states that are still to come are read by the rest of it.
  induction word generalizing count text with
  | nil => exact absurd rfl nonempty
  | cons c rest ih =>
    cases text with
    | nil => simp [acceptsFrom_nil, accepting, chainState_ne_accept]
    | cons d text =>
      have read : a.read (chainState count) d =
          if decide (d = c) then some (if rest = [] then "ACCEPT" else chainState (count + 1)) else none := by
        rw [reads count d (Nat.le_refl count), readWord, if_pos rfl]
        simp
      rw [acceptsFrom_cons_of_read read, Bool.and_eq_true, decide_eq_true_eq, List.cons.injEq]
      refine and_congr_right fun _ => ?_
      cases rest with
      | nil =>
        rw [if_pos rfl]
        cases text with
        | nil => simp [acceptsFrom_nil, accepting]
        | cons e text => simp [acceptsFrom_cons_none (ending e)]
      | cons e rest =>
        rw [if_neg (List.cons_ne_nil e rest)]
        refine ih (List.cons_ne_nil e rest) (fun passed f later => ?_) text
        have other : chainState passed ≠ chainState count := fun same => by
          have := chainState_inj.mp same
          omega
        rw [reads passed f (Nat.le_of_succ_le later), readWord, if_neg other]

/-- **The automaton of a word can be built, unless the word is empty, and it accepts this word.** -/
theorem keyword_recognizes {word : String} (nonempty : word.toList ≠ []) :
    Recognizes (keyword word) (· = word.toList) := by
  obtain ⟨a, built, follows⟩ := exists_keyword nonempty
  refine ⟨a, built, fun text => ?_⟩
  show a.acceptsFrom a.start text = true ↔ _
  rw [follows.start]
  exact acceptsFrom_chainState_iff follows.accepting (fun c => (follows.read _ c).trans (readWord_accept 0 _ c)) nonempty
    (fun passed d _ => follows.read (chainState passed) d) text

end Automaton

/-! ## A keyword among the standard rules -/

/-- The rule of a keyword. -/
def Rule.forKeyword (word : String) (priority : Int) : Rule :=
  ⟨.keyword, Automaton.keyword word, priority⟩

section Added

variable {word : String} {priority : Int} {front back : List Rule}

theorem Rule.matches_forKeyword_iff (nonempty : word.toList ≠ []) {text : List Char} :
    (forKeyword word priority).Matches text ↔ word.toList <+: text := by
  have recognizes : Recognizes (forKeyword word priority).automaton (· = word.toList) :=
    Automaton.keyword_recognizes nonempty
  rw [matches_iff_of_recognizes recognizes fun _ eq => eq ▸ nonempty]
  simp

theorem Rule.longest_forKeyword_iff (nonempty : word.toList ≠ []) {text lexeme : List Char} :
    (forKeyword word priority).Longest text lexeme ↔ lexeme = word.toList ∧ word.toList <+: text := by
  have recognizes : Recognizes (forKeyword word priority).automaton (· = word.toList) :=
    Automaton.keyword_recognizes nonempty
  rw [longest_iff_of_recognizes recognizes fun _ eq => eq ▸ nonempty]
  constructor
  · rintro ⟨rfl, front, _⟩
    exact ⟨rfl, front⟩
  · rintro ⟨rfl, front⟩
    exact ⟨rfl, front, fun other _ same => Nat.le_of_eq (congrArg List.length same)⟩

theorem Rule.mem_added_iff (standard : front ++ back = Rule.standard) {added rule : Rule} :
    rule ∈ front ++ added :: back ↔ rule = added ∨ rule ∈ Rule.standard := by
  rw [← standard, List.mem_append, List.mem_cons, List.mem_append, or_left_comm]

/-- The first rule by priority, when a rule is added above the standard rules: this rule, if it has the property, and
else the one that is the first without it. -/
theorem Rule.firstByPriority_added_iff (standard : front ++ back = Rule.standard) {added : Rule}
    (above : 50 < added.priority) {property : Rule → Prop} {rule : Rule} :
    FirstByPriority property (front ++ added :: back) rule ↔
      property added ∧ rule = added ∨ ¬ property added ∧ FirstByPriority property Rule.standard rule := by
  have lower : ∀ other ∈ Rule.standard, other.priority < added.priority := fun other mem =>
    Int.lt_of_le_of_lt (priority_le_standard other mem) above
  have distinct : (front ++ added :: back).Pairwise fun a b => a.priority ≠ b.priority := by
    rw [List.pairwise_middle fun ne => ne.symm, standard, List.pairwise_cons]
    exact ⟨fun other mem => Int.ne_of_gt (lower other mem), pairwise_standard⟩
  simp only [firstByPriority_iff_of_pairwise distinct, firstByPriority_iff_of_pairwise pairwise_standard,
    mem_added_iff standard, forall_eq_or_imp]
  by_cases has : property added
  · constructor
    · rintro ⟨rfl | mem, _, highest, _⟩
      · exact .inl ⟨has, rfl⟩
      · exact absurd (highest has) (Int.not_le.mpr (lower rule mem))
    · rintro (⟨_, rfl⟩ | ⟨hasNot, _⟩)
      · exact ⟨.inl rfl, has, fun _ => Int.le_refl _, fun other mem _ => Int.le_of_lt (lower other mem)⟩
      · exact absurd has hasNot
  · constructor
    · rintro ⟨rfl | mem, hasRule, _, highest⟩
      · exact absurd hasRule has
      · exact .inr ⟨has, mem, hasRule, highest⟩
    · rintro (⟨hasAdded, _⟩ | ⟨_, mem, hasRule, highest⟩)
      · exact absurd hasAdded has
      · exact ⟨.inr mem, hasRule, fun hasAdded => absurd hasAdded has, highest⟩

/-- **A keyword is the next token wherever a text begins with it**, and elsewhere the next token is the standard one. -/
theorem nextToken_keyword_iff (nonempty : word.toList ≠ []) (above : 50 < priority)
    (standard : front ++ back = Rule.standard) {text lexeme : List Char} {kind : Kind} :
    NextToken (front ++ Rule.forKeyword word priority :: back) text kind lexeme ↔
      word.toList <+: text ∧ kind = .keyword ∧ lexeme = word.toList ∨
        ¬ word.toList <+: text ∧ NextToken Rule.standard text kind lexeme := by
  have chosen : ∀ rule, Rule.Chosen (front ++ Rule.forKeyword word priority :: back) text rule ↔
      word.toList <+: text ∧ rule = Rule.forKeyword word priority ∨
        ¬ word.toList <+: text ∧ Rule.Chosen Rule.standard text rule := by
    intro rule
    have matches_iff : (Rule.forKeyword word priority).Matches text ↔ word.toList <+: text :=
      Rule.matches_forKeyword_iff nonempty
    rw [← matches_iff]
    exact Rule.firstByPriority_added_iff standard above
  constructor
  · rintro ⟨rule, isChosen, rfl, longest⟩
    rcases (chosen rule).mp isChosen with ⟨begins, rfl⟩ | ⟨other, isChosen⟩
    · exact .inl ⟨begins, rfl, ((Rule.longest_forKeyword_iff nonempty).mp longest).1⟩
    · exact .inr ⟨other, rule, isChosen, rfl, longest⟩
  · rintro (⟨begins, rfl, rfl⟩ | ⟨other, rule, isChosen, rfl, longest⟩)
    · exact ⟨_, (chosen _).mpr (.inl ⟨begins, rfl⟩), rfl, (Rule.longest_forKeyword_iff nonempty).mpr ⟨rfl, begins⟩⟩
    · exact ⟨rule, (chosen rule).mpr (.inr ⟨other, isChosen⟩), rfl, longest⟩

end Added

end Mini
