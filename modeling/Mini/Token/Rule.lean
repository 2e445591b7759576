import Mini.Automaton.Standard
import Mini.Token.Basic

/-!
# Lexical rules

A rule names a kind of token, the automaton that recognizes its lexemes and a priority. Rules are tried from
the highest priority down; rules of one priority are tried in the order in which they were given. The standard
rules are those of the Mini language.

`byPriority` puts rules into that order. Its law is `filter_byPriority`: inside each priority nothing moves.
-/

namespace Mini

/-- A kind of token, what recognizes it, and how early it is tried. An automaton that could not be built
stays in the rule as the error. -/
structure Rule where
  kind : Kind
  automaton : Except ConstructionError Automaton
  priority : Int

namespace Rule

/-- The rules of the Mini language. -/
def standard : List Rule :=
  [⟨.identifier, Automaton.identifier, 50⟩,
   ⟨.real, Automaton.real, 40⟩,
   ⟨.integer, Automaton.integer, 30⟩,
   ⟨.assignment, Automaton.assignment, 20⟩,
   ⟨.operator, Automaton.operator, 10⟩]

/-- A rule put into an ordered list, before every rule of the same or a lower priority. -/
def insert (rule : Rule) : List Rule → List Rule
  | [] => [rule]
  | other :: rest =>
    if other.priority ≤ rule.priority then rule :: other :: rest else other :: rule.insert rest

/-- The rules in the order in which they are tried. -/
def byPriority (rules : List Rule) : List Rule :=
  rules.foldr insert []

theorem perm_insert (rule : Rule) (rules : List Rule) : (rule.insert rules).Perm (rule :: rules) := by
  induction rules with
  | nil => exact .refl _
  | cons other rest ih =>
    unfold insert
    split
    · exact .refl _
    · exact (ih.cons other).trans (.swap rule other rest)

/-- **Ordering loses no rule and adds none.** -/
theorem perm_byPriority (rules : List Rule) : (byPriority rules).Perm rules := by
  induction rules with
  | nil => exact .refl _
  | cons rule rest ih => exact (perm_insert rule (byPriority rest)).trans (ih.cons rule)

theorem pairwise_insert {rule : Rule} {rules : List Rule}
    (h : rules.Pairwise fun a b => b.priority ≤ a.priority) :
    (rule.insert rules).Pairwise fun a b => b.priority ≤ a.priority := by
  induction rules with
  | nil => simp [insert]
  | cons other rest ih =>
    obtain ⟨first, others⟩ := List.pairwise_cons.mp h
    unfold insert
    split
    · rename_i low
      refine List.pairwise_cons.mpr ⟨fun r mem => ?_, h⟩
      rcases List.mem_cons.mp mem with rfl | mem
      · exact low
      · exact Int.le_trans (first r mem) low
    · rename_i high
      refine List.pairwise_cons.mpr ⟨fun r mem => ?_, ih others⟩
      rcases List.mem_cons.mp ((perm_insert rule rest).mem_iff.mp mem) with rfl | mem
      · exact Int.le_of_lt (Int.not_le.mp high)
      · exact first r mem

/-- **Priorities only go down.** -/
theorem pairwise_byPriority (rules : List Rule) :
    (byPriority rules).Pairwise fun a b => b.priority ≤ a.priority := by
  induction rules with
  | nil => exact .nil
  | cons rule rest ih => exact pairwise_insert ih

/-- Among the rules of its own priority an inserted rule comes first. -/
theorem filter_insert (rule : Rule) (p : Int) (rules : List Rule) :
    (rule.insert rules).filter (·.priority = p) =
      if rule.priority = p then rule :: rules.filter (·.priority = p)
      else rules.filter (·.priority = p) := by
  induction rules with
  | nil => by_cases h : rule.priority = p <;> simp [insert, h]
  | cons other rest ih =>
    unfold insert
    split
    · by_cases h : rule.priority = p <;> simp [h]
    · rename_i high
      by_cases h : rule.priority = p
      · have : ¬ other.priority = p := by omega
        simpa [List.filter_cons, h, this] using ih
      · simp only [h, if_false] at ih
        simp [List.filter_cons, h, ih]

/-- **Inside each priority the order is the one given.** -/
theorem filter_byPriority (p : Int) (rules : List Rule) :
    (byPriority rules).filter (·.priority = p) = rules.filter (·.priority = p) := by
  induction rules with
  | nil => rfl
  | cons rule rest ih =>
    show (rule.insert (byPriority rest)).filter (·.priority = p) = _
    rw [filter_insert, ih]
    by_cases h : rule.priority = p <;> simp [h]

end Rule

end Mini
