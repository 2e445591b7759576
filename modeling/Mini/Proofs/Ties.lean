import Mini.Proofs.Matching

/-!
# Rules of one priority

`ofRules_of_tiesKept`: of the order in which rules are listed only the order inside each priority matters. Two lists that
have the same rules of every priority in the same order make lexers that cut every text alike, or both are refused, and
then for the same rule: the first in descending priority, ties in the order of the list, that has no automaton.

What carries this is that the order of trial is a normal form. A list of descending priorities is determined by what it
holds of each (`eq_of_tiesKept`), so two lists come into one order of trial exactly when they keep each other's ties
(`byPriority_eq_iff`), and a lexer knows its rules in that order only.
-/

namespace Mini

namespace Rule

variable {rule other : Rule} {rules others : List Rule}

/-- Whether two lists have the same rules of every priority, in the same order. -/
def TiesKept (rules others : List Rule) : Prop :=
  ∀ p : Int, rules.filter (·.priority = p) = others.filter (·.priority = p)

/-- Lists that keep each other's ties have the same rules. -/
theorem TiesKept.mem_iff (same : TiesKept rules others) : rule ∈ rules ↔ rule ∈ others := by
  have here := congrArg (rule ∈ ·) (same rule.priority)
  simpa [List.mem_filter] using iff_of_eq here

theorem TiesKept.of_cons (same : TiesKept (rule :: rules) (rule :: others)) : TiesKept rules others := by
  intro p
  have whole := same p
  by_cases here : rule.priority = p
  · simpa [List.filter_cons, here] using whole
  · simpa [List.filter_cons, here] using whole

/-- **Of two lists of descending priorities that keep each other's ties the first rule is the same.** Neither first rule
has a lower priority than the other, so both stand first among the ties. -/
theorem TiesKept.head_eq (same : TiesKept (rule :: rules) (other :: others))
    (descending : (rule :: rules).Pairwise fun a b => b.priority ≤ a.priority)
    (descendingOthers : (other :: others).Pairwise fun a b => b.priority ≤ a.priority) : rule = other := by
  have greatest : ∀ r ∈ rule :: rules, r.priority ≤ rule.priority :=
    List.forall_mem_cons.mpr ⟨Int.le_refl _, (List.pairwise_cons.mp descending).1⟩
  have greatestOther : ∀ r ∈ other :: others, r.priority ≤ other.priority :=
    List.forall_mem_cons.mpr ⟨Int.le_refl _, (List.pairwise_cons.mp descendingOthers).1⟩
  have tie : other.priority = rule.priority :=
    Int.le_antisymm (greatest other (same.mem_iff.mpr List.mem_cons_self))
      (greatestOther rule (same.mem_iff.mp List.mem_cons_self))
  have ties := same rule.priority
  rw [List.filter_cons_of_pos (by simp), List.filter_cons_of_pos (by simp [tie])] at ties
  exact (List.cons.inj ties).1

/-- **A list of descending priorities is determined by what it holds of each.** -/
theorem eq_of_tiesKept (same : TiesKept rules others)
    (descending : rules.Pairwise fun a b => b.priority ≤ a.priority)
    (descendingOthers : others.Pairwise fun a b => b.priority ≤ a.priority) : rules = others := by
  induction rules generalizing others with
  | nil =>
    refine (List.eq_nil_iff_forall_not_mem.mpr fun rule mem => ?_).symm
    exact absurd (same.mem_iff.mpr mem) List.not_mem_nil
  | cons rule rules ih =>
    cases others with
    | nil => exact absurd (same.mem_iff.mp List.mem_cons_self) List.not_mem_nil
    | cons other others =>
      obtain rfl := same.head_eq descending descendingOthers
      rw [ih same.of_cons (List.pairwise_cons.mp descending).2 (List.pairwise_cons.mp descendingOthers).2]

/-- **The order of trial is a normal form**: it says of the order of a list how ties are ordered, and nothing else. -/
theorem byPriority_eq_iff : byPriority rules = byPriority others ↔ TiesKept rules others := by
  constructor
  · intro same p
    rw [← filter_byPriority p rules, same, filter_byPriority p others]
  · intro same
    refine eq_of_tiesKept (fun p => ?_) (pairwise_byPriority rules) (pairwise_byPriority others)
    rw [filter_byPriority, filter_byPriority, same p]

/-- What is first by priority is decided by ties. -/
theorem TiesKept.firstByPriority_iff (same : TiesKept rules others) {property : Rule → Prop} :
    FirstByPriority property rules rule ↔ FirstByPriority property others rule := by
  classical
  have found : ∀ list, (byPriority list).find? (fun r => decide (property r)) = some rule ↔
      FirstByPriority property list rule := fun list => by
    rw [find?_byPriority_eq_some_iff]
    simp only [decide_eq_true_eq]
  rw [← found, ← found, byPriority_eq_iff.mpr same]

/-- Whether a rule has no automaton. -/
def Fails (rule : Rule) : Prop :=
  ∃ e, rule.automaton = .error e

end Rule

namespace Lexer

variable {rules others : List Rule} {e : ConstructionError}

/-- Automata are looked at in order, up to the first that could not be built. -/
theorem mapM_recognizer_eq_error_iff :
    rules.mapM Rule.recognizer = .error e ↔
      ∃ rule, rules.find? (fun r => !r.automaton.isOk) = some rule ∧ rule.automaton = .error e := by
  induction rules with
  | nil =>
    refine ⟨fun h => ?_, fun h => ?_⟩
    · cases h
    · obtain ⟨_, found, _⟩ := h
      cases found
  | cons rule rest ih =>
    rw [List.mapM_cons]
    cases built : rule.automaton with
    | error refused =>
      rw [Rule.recognizer, built, List.find?_cons_of_pos (by rw [built]; rfl)]
      refine ⟨fun h => ⟨rule, rfl, ?_⟩, fun h => ?_⟩
      · cases h
        exact built
      · obtain ⟨_, same, failed⟩ := h
        cases same
        rw [built] at failed
        cases failed
        rfl
    | ok automaton =>
      rw [Rule.recognizer, built, List.find?_cons_of_neg (by simp [built, Except.isOk, Except.toBool]), ← ih]
      cases rest.mapM Rule.recognizer with
      | error refused => exact Iff.rfl
      | ok more =>
        refine ⟨fun h => ?_, fun h => ?_⟩
        · cases h
        · cases h

/-- **Rules are refused for the first by priority that has no automaton.** -/
theorem ofRules_eq_error_iff :
    ofRules rules = .error e ↔ ∃ rule, FirstByPriority Rule.Fails rules rule ∧ rule.automaton = .error e := by
  have fails : (fun rule : Rule => (!rule.automaton.isOk) = true) = Rule.Fails := by
    funext rule
    cases built : rule.automaton <;> simp [Rule.Fails, built, Except.isOk, Except.toBool]
  rw [← fails]
  simp only [← Rule.find?_byPriority_eq_some_iff, ← mapM_recognizer_eq_error_iff]
  cases recognized : (Rule.byPriority rules).mapM Rule.recognizer with
  | error refused =>
    rw [ofRules, recognized]
    exact ⟨fun h => by cases h; rfl, fun h => by cases h; rfl⟩
  | ok recognizers =>
    rw [ofRules, recognized]
    refine ⟨fun h => ?_, fun h => ?_⟩
    · cases h
    · cases h

end Lexer

/-- **Only the order inside each priority matters.** Of two lists that have the same rules of every priority in the same
order, both are refused, with the error of the rule that is for both the first by priority to have no automaton, or both
make lexers, and these give every text the same tokens or the same error. -/
theorem ofRules_of_tiesKept {rules others : List Rule} (same : Rule.TiesKept rules others) :
    (∃ rule e, FirstByPriority Rule.Fails rules rule ∧ FirstByPriority Rule.Fails others rule ∧
      rule.automaton = .error e ∧ Lexer.ofRules rules = .error e ∧ Lexer.ofRules others = .error e) ∨
    ∃ lexer other, Lexer.ofRules rules = .ok lexer ∧ Lexer.ofRules others = .ok other ∧
      ∀ source, lexer.tokenize source = other.tokenize source := by
  have agree : Lexer.ofRules rules = Lexer.ofRules others := by
    rw [Lexer.ofRules, Lexer.ofRules, Rule.byPriority_eq_iff.mpr same]
  cases built : Lexer.ofRules rules with
  | error e =>
    obtain ⟨rule, first, failed⟩ := Lexer.ofRules_eq_error_iff.mp built
    exact .inl ⟨rule, e, first, same.firstByPriority_iff.mp first, failed, rfl, agree.symm.trans built⟩
  | ok lexer => exact .inr ⟨lexer, lexer, rfl, agree.symm.trans built, fun _ => rfl⟩

/-- Two rules of priority -1 in one order around a third: both lexers try the pair before the name. Two rules without automata
at priority 0: both lists are refused for the one that is listed before the other. -/
theorem ofRules_of_tiesKept_below_zero :
    let pair : Rule := ⟨.keyword, .ok (.ofEdges "s" ["t"] [(("s", "a"), "m"), (("m", "a"), "t")]), -1⟩
    let name : Rule := ⟨.identifier, .ok (.ofEdges "s" ["t"] [(("s", "a"), "t"), (("t", "a"), "t")]), -1⟩
    let plus : Rule := ⟨.operator, .ok (.ofEdges "s" ["t"] [(("s", "+"), "t")]), 3⟩
    let unlabelled : Rule := ⟨.real, .error (.labelNotSingle "ab"), 0⟩
    let wordless : Rule := ⟨.keyword, .error .emptyKeyword, 0⟩
    (∃ lexer other, Lexer.ofRules [pair, plus, name] = .ok lexer ∧ Lexer.ofRules [plus, pair, name] = .ok other ∧
      lexer.tokenize "aa+a" =
        .ok [⟨.keyword, "aa", ⟨1, 1⟩⟩, ⟨.operator, "+", ⟨1, 3⟩⟩, ⟨.identifier, "a", ⟨1, 4⟩⟩] ∧
      other.tokenize "aa+a" = lexer.tokenize "aa+a") ∧
    Lexer.ofRules [pair, unlabelled, wordless, plus] = .error (.labelNotSingle "ab") ∧
    Lexer.ofRules [unlabelled, plus, wordless, pair] = .error (.labelNotSingle "ab") := by
  intro pair name plus unlabelled wordless
  have tries : Rule.TiesKept [pair, plus, name] [plus, pair, name] := Rule.byPriority_eq_iff.mp rfl
  have fails : Rule.TiesKept [pair, unlabelled, wordless, plus] [unlabelled, plus, wordless, pair] :=
    Rule.byPriority_eq_iff.mp rfl
  refine ⟨?_, ?_⟩
  · rcases ofRules_of_tiesKept tries with ⟨_, _, _, _, _, refused, _⟩ | ⟨lexer, other, built, builtOther, agree⟩
    · cases refused
    · have scanned : lexer.scan "aa+a" =
          ⟨[⟨.keyword, "aa", ⟨1, 1⟩⟩, ⟨.operator, "+", ⟨1, 3⟩⟩, ⟨.identifier, "a", ⟨1, 4⟩⟩], none⟩ := by
        cases built
        decide +kernel
      exact ⟨lexer, other, built, builtOther, by rw [Lexer.tokenize, scanned], (agree "aa+a").symm⟩
  · rcases ofRules_of_tiesKept fails with ⟨_, e, _, _, _, refused, refusedOther⟩ | ⟨_, _, built, _⟩
    · obtain rfl : ConstructionError.labelNotSingle "ab" = e := Except.error.inj refused
      exact ⟨refused, refusedOther⟩
    · cases built

end Mini
