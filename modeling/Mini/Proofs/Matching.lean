import Mini.Token.Lexer

/-!
# What a match is

The next token of a text, said without scanning. The rule that gives it is the first in descending priority whose
automaton accepts a non-empty beginning of the text, where rules of one priority count in the order in which
they were given (`Rule.Chosen`); its lexeme is the longest beginning that this automaton accepts (`Rule.Longest`).
`Lexer.match?_eq_some_iff` and `Lexer.match?_eq_none_iff` say that a lexer finds just this.

Nothing is asked of the automata: they may run on behind the match, read white space, or accept the empty text.
-/

namespace Mini

/-! ## The longest accepted beginning -/

/-- The length of the longest non-empty beginning of a text that is accepted. -/
structure IsLongest (accepted : List Char → Bool) (text : List Char) (n : Nat) : Prop where
  pos : 0 < n
  le : n ≤ text.length
  accepts : accepted (text.take n) = true
  last : ∀ m, n < m → m ≤ text.length → accepted (text.take m) = false

/-- Whether no non-empty beginning of a text is accepted. -/
def AcceptsNone (accepted : List Char → Bool) (text : List Char) : Prop :=
  ∀ n, 0 < n → n ≤ text.length → accepted (text.take n) = false

theorem IsLongest.unique {accepted : List Char → Bool} {text : List Char} {m n : Nat}
    (hm : IsLongest accepted text m) (hn : IsLongest accepted text n) : m = n := by
  rcases Nat.lt_trichotomy m n with below | same | above
  · have := hm.last n below hn.le
    rw [hn.accepts] at this
    cases this
  · exact same
  · have := hn.last m above hm.le
    rw [hm.accepts] at this
    cases this

namespace Automaton

/-- Whether a text leads from a state to an accepting one. -/
def acceptsFrom (a : Automaton) (state : State) (text : List Char) : Bool :=
  (a.run state text).any a.isAccepting

theorem acceptsFrom_cons_none {a : Automaton} {state : State} {c : Char} (h : a.read state c = none)
    (rest : List Char) : a.acceptsFrom state (c :: rest) = false := by
  rw [acceptsFrom, run_cons, h]
  rfl

theorem acceptsFrom_cons_some {a : Automaton} {state next : State} {c : Char} (h : a.read state c = some next)
    (rest : List Char) : a.acceptsFrom state (c :: rest) = a.acceptsFrom next rest := by
  rw [acceptsFrom, run_cons, h]
  rfl

/-- **A scan answers with the longest accepted beginning**, counted on from where it stands, or with what was the
best before. -/
theorem longestFrom_spec (a : Automaton) (state : State) (length : Nat) (best : Option Nat) (text : List Char) :
    (∃ n, IsLongest (a.acceptsFrom state) text n ∧
      a.longestFrom state length best text = some (length + n)) ∨
    (AcceptsNone (a.acceptsFrom state) text ∧ a.longestFrom state length best text = best) := by
  induction text generalizing state length best with
  | nil =>
    refine .inr ⟨?_, rfl⟩
    intro n pos le
    exact absurd pos (Nat.not_lt.mpr le)
  | cons c rest ih =>
    unfold longestFrom
    cases read : a.read state c with
    | none =>
      refine .inr ⟨?_, rfl⟩
      intro n pos _
      obtain ⟨m, rfl⟩ := Nat.exists_eq_add_one.mpr pos
      rw [List.take_succ_cons]
      exact acceptsFrom_cons_none read _
    | some next =>
      have shift : ∀ m, a.acceptsFrom state ((c :: rest).take (m + 1)) = a.acceptsFrom next (rest.take m) := by
        intro m
        rw [List.take_succ_cons]
        exact acceptsFrom_cons_some read _
      rcases ih next (length + 1) (if a.isAccepting next then some (length + 1) else best) with
        ⟨n, longest, eq⟩ | ⟨noMore, eq⟩
      · refine .inl ⟨n + 1, ⟨Nat.succ_pos n, Nat.succ_le_succ longest.le, ?_, ?_⟩, ?_⟩
        · rw [shift]
          exact longest.accepts
        · intro m above le
          obtain ⟨m, rfl⟩ := Nat.exists_eq_add_one.mpr (Nat.lt_trans (Nat.succ_pos n) above)
          rw [shift]
          exact longest.last m (Nat.lt_of_succ_lt_succ above) (Nat.le_of_succ_le_succ le)
        · show a.longestFrom next (length + 1) _ rest = _
          rw [eq, Nat.add_assoc, Nat.add_comm 1 n]
      · -- Behind the next state nothing is accepted, so it is the next state that decides.
        have later : ∀ m, 1 < m → m ≤ (c :: rest).length → a.acceptsFrom state ((c :: rest).take m) = false := by
          intro m above le
          obtain ⟨m, rfl⟩ := Nat.exists_eq_add_one.mpr (Nat.lt_trans Nat.one_pos above)
          rw [shift]
          exact noMore m (Nat.lt_of_succ_lt_succ above) (Nat.le_of_succ_le_succ le)
        have first : a.acceptsFrom state ((c :: rest).take 1) = a.isAccepting next := shift 0
        by_cases accepting : a.isAccepting next = true
        · refine .inl ⟨1, ⟨Nat.one_pos, Nat.succ_le_succ (Nat.zero_le _), ?_, later⟩, ?_⟩
          · rw [first, accepting]
          · show a.longestFrom next (length + 1) _ rest = _
            rw [eq, if_pos accepting]
        · refine .inr ⟨?_, ?_⟩
          · intro n pos le
            rcases Nat.eq_or_lt_of_le pos with rfl | above
            · rw [first, Bool.eq_false_iff.mpr accepting]
            · exact later n above le
          · show a.longestFrom next (length + 1) _ rest = _
            rw [eq, if_neg accepting]

theorem longestMatch_eq_some_iff {a : Automaton} {text : List Char} {n : Nat} :
    a.longestMatch text = some n ↔ IsLongest a.accepts text n := by
  rcases a.longestFrom_spec a.start 0 none text with ⟨m, longest, eq⟩ | ⟨noMatch, eq⟩
  · rw [longestMatch, eq, Nat.zero_add, Option.some.injEq]
    constructor
    · rintro rfl
      exact longest
    · exact longest.unique
  · rw [longestMatch, eq]
    refine ⟨fun h => ?_, fun longest => ?_⟩
    · cases h
    · have := noMatch n longest.pos longest.le
      rw [show a.acceptsFrom a.start (text.take n) = true from longest.accepts] at this
      cases this

theorem longestMatch_eq_none_iff {a : Automaton} {text : List Char} :
    a.longestMatch text = none ↔ AcceptsNone a.accepts text := by
  rcases a.longestFrom_spec a.start 0 none text with ⟨m, longest, eq⟩ | ⟨noMatch, eq⟩
  · rw [longestMatch, eq]
    refine ⟨fun h => ?_, fun noMatch => ?_⟩
    · cases h
    · have := noMatch m longest.pos longest.le
      rw [show a.accepts (text.take m) = true from longest.accepts] at this
      cases this
  · rw [longestMatch, eq]
    exact ⟨fun _ => noMatch, fun _ => rfl⟩

end Automaton

/-! ## The first rule in the order of trial -/

/-- Whether a rule is the first in descending priority with a property, where rules of one priority count in the
order in which they are listed. -/
def FirstByPriority (property : Rule → Prop) (rules : List Rule) (rule : Rule) : Prop :=
  ∃ before after, rules = before ++ rule :: after ∧ property rule ∧
    (∀ other ∈ before, property other → other.priority < rule.priority) ∧
    (∀ other ∈ after, property other → other.priority ≤ rule.priority)

theorem FirstByPriority.unique {property : Rule → Prop} {rules : List Rule} {first second : Rule}
    (hf : FirstByPriority property rules first) (hs : FirstByPriority property rules second) :
    first = second := by
  obtain ⟨beforeF, afterF, rfl, hasF, earlierF, laterF⟩ := hf
  obtain ⟨beforeS, afterS, same, hasS, earlierS, laterS⟩ := hs
  rcases List.append_eq_append_iff.mp same with ⟨between, rfl, eq⟩ | ⟨between, rfl, eq⟩
  · cases between with
    | nil => exact (List.cons.inj eq).1
    | cons other between =>
      obtain ⟨rfl, rfl⟩ := List.cons.inj eq
      have below := earlierS first (by simp) hasF
      have above := laterF second (by simp) hasS
      omega
  · cases between with
    | nil => exact (List.cons.inj eq).1.symm
    | cons other between =>
      obtain ⟨rfl, rfl⟩ := List.cons.inj eq
      have below := earlierF second (by simp) hasS
      have above := laterS first (by simp) hasF
      omega

namespace Rule

/-- What is found first in the order of trial is first by priority. -/
theorem firstByPriority_of_find? {p : Rule → Bool} {rules : List Rule} {rule : Rule}
    (h : (byPriority rules).find? p = some rule) : FirstByPriority (fun r => p r = true) rules rule := by
  obtain ⟨has, earlier, later, order, none⟩ := List.find?_eq_some_iff_append.mp h
  have noneEarlier : ∀ other ∈ earlier, p other = false := by
    intro other mem
    simpa using none other mem
  -- Inside the priority of the rule the order of trial is the order of the list.
  have same := filter_byPriority rule.priority rules
  rw [order, List.filter_append, List.filter_cons_of_pos (by simp)] at same
  obtain ⟨front, rest, rfl, ties, restTies⟩ := List.filter_eq_append_iff.mp same.symm
  obtain ⟨lower, after, rfl, others, _, _⟩ := List.filter_eq_cons_iff.mp restTies
  have bound : ∀ other ∈ front ++ (lower ++ rule :: after), p other = true →
      other.priority ≤ rule.priority := by
    intro other mem has
    rw [← (perm_byPriority _).mem_iff, order, List.mem_append, List.mem_cons] at mem
    rcases mem with mem | rfl | mem
    · rw [noneEarlier other mem] at has
      cases has
    · exact Int.le_refl _
    · have sorted := pairwise_byPriority (front ++ (lower ++ rule :: after))
      rw [order] at sorted
      exact (List.pairwise_cons.mp (List.pairwise_append.mp sorted).2.1).1 other mem
  refine ⟨front ++ lower, after, (List.append_assoc _ _ _).symm, has, ?_, ?_⟩
  · intro other mem hasOther
    have le := bound other (List.append_assoc front lower _ ▸ List.mem_append_left _ mem) hasOther
    refine Int.lt_iff_le_and_ne.mpr ⟨le, fun tie => ?_⟩
    rcases List.mem_append.mp mem with mem | mem
    · have tied : other ∈ earlier.filter (·.priority = rule.priority) := by
        rw [← ties]
        exact List.mem_filter.mpr ⟨mem, by simpa using tie⟩
      rw [noneEarlier other (List.mem_filter.mp tied).1] at hasOther
      cases hasOther
    · exact others other mem (by simpa using tie)
  · intro other mem
    exact bound other (by simp [mem])

/-- **The order of trial finds what is first by priority.** -/
theorem find?_byPriority_eq_some_iff {p : Rule → Bool} {rules : List Rule} {rule : Rule} :
    (byPriority rules).find? p = some rule ↔ FirstByPriority (fun r => p r = true) rules rule := by
  constructor
  · exact firstByPriority_of_find?
  · intro first
    obtain ⟨before, after, rfl, has, _, _⟩ := id first
    have mem : rule ∈ byPriority (before ++ rule :: after) := by
      rw [(perm_byPriority _).mem_iff]
      simp
    obtain ⟨found, h⟩ := Option.isSome_iff_exists.mp (List.find?_isSome.mpr ⟨rule, mem, has⟩)
    rw [h, (firstByPriority_of_find? h).unique first]

/-! ## The next token -/

/-- Whether the automaton of a rule accepts a non-empty beginning of a text. -/
def Matches (rule : Rule) (text : List Char) : Prop :=
  ∃ automaton lexeme, rule.automaton = .ok automaton ∧ lexeme ≠ [] ∧ lexeme <+: text ∧
    automaton.accepts lexeme = true

/-- Whether a rule gives the next token of a text: it is the first by priority that matches. -/
def Chosen (rules : List Rule) (text : List Char) (rule : Rule) : Prop :=
  FirstByPriority (fun r => r.Matches text) rules rule

/-- Whether a lexeme is the longest beginning of a text that the automaton of a rule accepts. -/
def Longest (rule : Rule) (text lexeme : List Char) : Prop :=
  ∃ automaton, rule.automaton = .ok automaton ∧ lexeme ≠ [] ∧ lexeme <+: text ∧
    automaton.accepts lexeme = true ∧
    ∀ other, other <+: text → automaton.accepts other = true → other.length ≤ lexeme.length

/-- What a rule by itself finds at the beginning of a text. -/
def match? (rule : Rule) (text : List Char) : Option Match :=
  match rule.automaton with
  | .ok automaton => (automaton.longestMatch text).map fun n => ⟨rule.kind, n⟩
  | .error _ => none

theorem match?_eq_some_iff {rule : Rule} {text : List Char} {m : Match} :
    rule.match? text = some m ↔ ∃ lexeme, rule.Longest text lexeme ∧ m = ⟨rule.kind, lexeme.length⟩ := by
  cases h : rule.automaton with
  | error e => simp [match?, Longest, h]
  | ok automaton =>
    have found : rule.match? text = (automaton.longestMatch text).map fun n => ⟨rule.kind, n⟩ := by
      rw [match?, h]
    rw [found, Option.map_eq_some_iff]
    refine ⟨fun answer => ?_, fun isLongest => ?_⟩
    · obtain ⟨n, matched, rfl⟩ := answer
      have longest := Automaton.longestMatch_eq_some_iff.mp matched
      have length : (text.take n).length = n := List.length_take_of_le longest.le
      refine ⟨text.take n, ⟨automaton, h, ?_, List.take_prefix n text, longest.accepts, ?_⟩, by rw [length]⟩
      · exact List.ne_nil_of_length_pos (length.symm ▸ longest.pos)
      · intro other front accepted
        rw [length]
        refine Nat.not_lt.mp fun above => ?_
        have := longest.last other.length above front.length_le
        rw [← List.prefix_iff_eq_take.mp front, accepted] at this
        cases this
    · obtain ⟨lexeme, ⟨same, built, nonempty, front, accepted, last⟩, rfl⟩ := isLongest
      obtain rfl : automaton = same := Except.ok.inj (h.symm.trans built)
      have lexemeEq := List.prefix_iff_eq_take.mp front
      refine ⟨lexeme.length, Automaton.longestMatch_eq_some_iff.mpr ⟨?_, front.length_le, ?_, ?_⟩, rfl⟩
      · exact List.length_pos_iff.mpr nonempty
      · rw [← lexemeEq, accepted]
      · intro m above le
        refine Bool.eq_false_iff.mpr fun acceptedMore => ?_
        have := last _ (List.take_prefix m text) acceptedMore
        rw [List.length_take_of_le le] at this
        exact Nat.lt_irrefl _ (Nat.lt_of_lt_of_le above this)

theorem match?_isSome_iff {rule : Rule} {text : List Char} :
    (rule.match? text).isSome = true ↔ rule.Matches text := by
  cases h : rule.automaton with
  | error e => simp [match?, Matches, h]
  | ok automaton =>
    have found : rule.match? text = (automaton.longestMatch text).map fun n => ⟨rule.kind, n⟩ := by
      rw [match?, h]
    rw [found, Option.isSome_map]
    refine ⟨fun isSome => ?_, fun isMatch => ?_⟩
    · obtain ⟨n, matched⟩ := Option.isSome_iff_exists.mp isSome
      have longest := Automaton.longestMatch_eq_some_iff.mp matched
      refine ⟨automaton, text.take n, h, ?_, List.take_prefix n text, longest.accepts⟩
      exact List.ne_nil_of_length_pos ((List.length_take_of_le longest.le).symm ▸ longest.pos)
    · obtain ⟨same, lexeme, built, nonempty, front, accepted⟩ := isMatch
      obtain rfl : automaton = same := Except.ok.inj (h.symm.trans built)
      refine Option.isSome_iff_ne_none.mpr fun noMatch => ?_
      have := Automaton.longestMatch_eq_none_iff.mp noMatch lexeme.length (List.length_pos_iff.mpr nonempty)
        front.length_le
      rw [← List.prefix_iff_eq_take.mp front, accepted] at this
      cases this

end Rule

/-- Whether the next token of a text has a kind and a lexeme. -/
def NextToken (rules : List Rule) (text : List Char) (kind : Kind) (lexeme : List Char) : Prop :=
  ∃ rule, Rule.Chosen rules text rule ∧ rule.kind = kind ∧ rule.Longest text lexeme

namespace Lexer

theorem findSome?_recognizers {rules : List Rule} {recognizers : List Recognizer}
    (built : rules.mapM Rule.recognizer = .ok recognizers) (text : List Char) :
    (⟨recognizers⟩ : Lexer).match? text = rules.findSome? fun rule => rule.match? text := by
  induction rules generalizing recognizers with
  | nil =>
    cases built
    rfl
  | cons rule rest ih =>
    rw [List.mapM_cons] at built
    cases h : rule.automaton with
    | error e =>
      rw [Rule.recognizer, h] at built
      cases built
    | ok automaton =>
      rw [Rule.recognizer, h] at built
      cases others : rest.mapM Rule.recognizer with
      | error e =>
        rw [others] at built
        cases built
      | ok more =>
        rw [others] at built
        cases built
        have first : rule.match? text = (automaton.longestMatch text).map fun n => ⟨rule.kind, n⟩ := by
          rw [Rule.match?, h]
        rw [List.findSome?_cons, ← ih others, first]
        rfl

variable {rules : List Rule} {lexer : Lexer} {text : List Char}

theorem match?_of_ofRules (built : ofRules rules = .ok lexer) (text : List Char) :
    lexer.match? text = (Rule.byPriority rules).findSome? fun rule => rule.match? text := by
  cases recognized : (Rule.byPriority rules).mapM Rule.recognizer with
  | error e =>
    rw [ofRules, recognized] at built
    cases built
  | ok recognizers =>
    rw [ofRules, recognized] at built
    cases built
    exact findSome?_recognizers recognized text

/-- **A lexer finds the next token of its rules.** -/
theorem match?_eq_some_iff (built : ofRules rules = .ok lexer) {m : Match} :
    lexer.match? text = some m ↔ ∃ lexeme, NextToken rules text m.kind lexeme ∧ m.length = lexeme.length := by
  have chosen : ∀ rule, (Rule.byPriority rules).find? (fun r => (r.match? text).isSome) = some rule ↔
      Rule.Chosen rules text rule := by
    intro rule
    rw [Rule.find?_byPriority_eq_some_iff]
    simp only [Rule.match?_isSome_iff]
    rfl
  rw [match?_of_ofRules built]
  refine ⟨fun found => ?_, fun h => ?_⟩
  · obtain ⟨earlier, rule, later, order, matched, none⟩ := List.findSome?_eq_some_iff.mp found
    have first : (Rule.byPriority rules).find? (fun r => (r.match? text).isSome) = some rule := by
      refine List.find?_eq_some_iff_append.mpr ⟨by rw [matched]; rfl, earlier, later, order, ?_⟩
      intro other mem
      rw [none other mem]
      rfl
    obtain ⟨lexeme, longest, rfl⟩ := Rule.match?_eq_some_iff.mp matched
    exact ⟨lexeme, ⟨rule, (chosen rule).mp first, rfl, longest⟩, rfl⟩
  · obtain ⟨lexeme, ⟨rule, isChosen, kind, longest⟩, length⟩ := h
    obtain ⟨_, earlier, later, order, none⟩ := List.find?_eq_some_iff_append.mp ((chosen rule).mpr isChosen)
    refine List.findSome?_eq_some_iff.mpr ⟨earlier, rule, later, order, ?_, ?_⟩
    · exact Rule.match?_eq_some_iff.mpr ⟨lexeme, longest, by rw [kind, ← length]⟩
    · intro other mem
      simpa using none other mem

/-- **A lexer finds nothing where no rule matches.** -/
theorem match?_eq_none_iff (built : ofRules rules = .ok lexer) :
    lexer.match? text = none ↔ ∀ rule ∈ rules, ¬ rule.Matches text := by
  rw [match?_of_ofRules built, List.findSome?_eq_none_iff]
  constructor
  · intro none rule mem isMatch
    have := none rule ((Rule.perm_byPriority rules).mem_iff.mpr mem)
    rw [← Rule.match?_isSome_iff, this] at isMatch
    cases isMatch
  · intro none rule mem
    have := none rule ((Rule.perm_byPriority rules).mem_iff.mp mem)
    rwa [← Rule.match?_isSome_iff, Option.not_isSome_iff_eq_none] at this

end Lexer

end Mini
