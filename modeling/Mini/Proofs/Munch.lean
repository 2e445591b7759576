import Mathlib.Data.List.MinMax
import Mini.Proofs.Joined

/-!
# Maximal munch

In general the first rule with a match gives the next token, even if another rule would match more. With the automata of
Mini it makes no difference (`tokenize_maximal_munch`): whatever the priorities of the five rules and in whatever order
they are listed, as long as reals are tried before integers, the tokens are those of a lexer that takes the longest match
of all five at every offset and knows no priorities. So all these lexers agree with the standard one.

A word is munched at the beginning of a text when no word of any kind there is longer (`IsMunch`); there is one such word
at most, as no text is a word of two kinds. The rule that is tried first munches: two rules match at one place only if
they are the rules of numbers, and a real is longer than every integer that it begins with.
-/

namespace Mini

/-! ## A lexer without priorities -/

/-- The longest of the matches that the rules find, each by itself, at the beginning of a text. -/
def longestOf (rules : List Rule) (text : List Char) : Option Match :=
  (rules.filterMap fun rule => rule.match? text).argmax Match.length

/-- The tokens of a text that starts at a position, or its first illegal character, when every token is the longest match
of all rules. -/
def munchFrom (rules : List Rule) (position : Position) : List Char → Except LexicalError (List Token)
  | [] => .ok []
  | c :: rest =>
    if Text.isBlank c then
      munchFrom rules (position.advance c) rest
    else
      match longestOf rules (c :: rest) with
      | none => .error ⟨c, position⟩
      | some m =>
        -- A match is never empty, so its first character is `c`.
        let lexeme := c :: rest.take (m.length - 1)
        (munchFrom rules (position.advanceOver lexeme) (rest.drop (m.length - 1))).map fun tokens =>
          ⟨m.kind, String.ofList lexeme, position⟩ :: tokens
  termination_by text => text.length
  decreasing_by all_goals simp only [List.length_drop, List.length_cons]; omega

/-- The tokens of a text, or its first illegal character, when every token is the longest match of all rules. -/
def munch (rules : List Rule) (source : String) : Except LexicalError (List Token) :=
  munchFrom rules .start source.toList

section Cases

variable {rules : List Rule} {text : List Char} {m : Match} {c : Char} {rest : List Char}

theorem exists_rule_of_longestOf (h : longestOf rules text = some m) : ∃ rule ∈ rules, rule.match? text = some m :=
  List.mem_filterMap.mp (List.argmax_mem h)

theorem length_le_of_longestOf (h : longestOf rules text = some m) {rule : Rule} (mem : rule ∈ rules) {other : Match}
    (found : rule.match? text = some other) : other.length ≤ m.length :=
  List.le_of_mem_argmax (List.mem_filterMap.mpr ⟨rule, mem, found⟩) h

theorem longestOf_eq_none_iff : longestOf rules text = none ↔ ∀ rule ∈ rules, ¬ rule.Matches text := by
  rw [longestOf, List.argmax_eq_none, List.filterMap_eq_nil_iff]
  refine forall₂_congr fun rule _ => ?_
  rw [← Rule.match?_isSome_iff, Option.not_isSome_iff_eq_none]

theorem munchFrom_nil (rules : List Rule) (position : Position) : munchFrom rules position [] = .ok [] := by
  rw [munchFrom]

theorem munchFrom_blank (blank : Text.isBlank c = true) (position : Position) :
    munchFrom rules position (c :: rest) = munchFrom rules (position.advance c) rest := by
  rw [munchFrom, if_pos blank]

theorem munchFrom_illegal (notBlank : Text.isBlank c = false) (none : longestOf rules (c :: rest) = none)
    (position : Position) : munchFrom rules position (c :: rest) = .error ⟨c, position⟩ := by
  rw [munchFrom, if_neg (by simp [notBlank]), none]

theorem munchFrom_match (notBlank : Text.isBlank c = false) (longest : longestOf rules (c :: rest) = some m)
    (positive : 0 < m.length) (position : Position) :
    munchFrom rules position (c :: rest) =
      (munchFrom rules (position.advanceOver ((c :: rest).take m.length)) ((c :: rest).drop m.length)).map fun tokens =>
        ⟨m.kind, String.ofList ((c :: rest).take m.length), position⟩ :: tokens := by
  obtain ⟨n, length⟩ : ∃ n, m.length = n + 1 := Nat.exists_eq_add_one.mpr positive
  rw [munchFrom, if_neg (by simp [notBlank]), longest]
  simp only [length, Nat.add_sub_cancel, List.take_succ_cons, List.drop_succ_cons]

end Cases

/-- **A lexer that finds the longest match of all rules scans as one without priorities.** -/
theorem Lexer.scanFrom_of_munchFrom {lexer : Lexer} {rules : List Rule}
    (agree : ∀ text, lexer.match? text = longestOf rules text) (position : Position) (found : List Token)
    (text : List Char) :
    (∀ tokens, munchFrom rules position text = .ok tokens →
      lexer.scanFrom position found text = ⟨found.reverse ++ tokens, none⟩) ∧
    ∀ e, munchFrom rules position text = .error e → (lexer.scanFrom position found text).illegal = some e := by
  induction length : text.length using Nat.strongRecOn generalizing position found text with
  | ind n ih =>
    cases text with
    | nil =>
      rw [munchFrom_nil, scanFrom_nil]
      refine ⟨fun tokens h => ?_, fun e h => ?_⟩
      · cases h
        rw [List.append_nil]
      · cases h
    | cons c rest =>
      rw [List.length_cons] at length
      cases blank : Text.isBlank c with
      | true =>
        rw [munchFrom_blank blank, scanFrom_blank blank]
        exact ih rest.length (by omega) _ found rest rfl
      | false =>
        cases longest : longestOf rules (c :: rest) with
        | none =>
          rw [munchFrom_illegal blank longest, scanFrom_illegal blank ((agree _).trans longest)]
          refine ⟨fun tokens h => ?_, fun e h => ?_⟩
          · cases h
          · cases h
            rfl
        | some m =>
          have matched : lexer.match? (c :: rest) = some m := (agree _).trans longest
          have positive := (match?_bounds matched).1
          have shorter : ((c :: rest).drop m.length).length < n := by
            rw [List.length_drop, List.length_cons]
            omega
          obtain ⟨ok, error⟩ := ih _ shorter (position.advanceOver ((c :: rest).take m.length))
            (⟨m.kind, String.ofList ((c :: rest).take m.length), position⟩ :: found) _ rfl
          rw [munchFrom_match blank longest positive, scanFrom_match blank matched]
          cases behind : munchFrom rules (position.advanceOver ((c :: rest).take m.length)) ((c :: rest).drop m.length) with
          | ok tokens =>
            refine ⟨fun all h => ?_, fun e h => ?_⟩
            · cases h
              rw [ok tokens behind, List.reverse_cons, List.append_assoc, List.singleton_append]
            · cases h
          | error e =>
            refine ⟨fun all h => ?_, fun other h => ?_⟩
            · cases h
            · cases h
              exact error e behind

theorem Lexer.tokenize_eq_munch {lexer : Lexer} {rules : List Rule}
    (agree : ∀ text, lexer.match? text = longestOf rules text) (source : String) :
    lexer.tokenize source = munch rules source := by
  obtain ⟨ok, error⟩ := scanFrom_of_munchFrom agree .start [] source.toList
  cases answer : munch rules source with
  | ok tokens => exact tokenize_eq_ok_of_scan (ok tokens answer)
  | error e => exact tokenize_eq_error_of_scan (error e answer)

/-! ## The longest word -/

/-- Whether a lexeme is a word of a kind at the beginning of a text, and no word of any kind there is longer. -/
structure IsMunch (text : List Char) (kind : Kind) (lexeme : List Char) : Prop where
  isWord : kind.IsWord lexeme
  isPrefix : lexeme <+: text
  longest : ∀ (other : Kind) (word : List Char), other.IsWord word → word <+: text → word.length ≤ lexeme.length

/-- **There is one longest word at most.** -/
theorem IsMunch.unique {text lexeme word : List Char} {kind other : Kind} (h : IsMunch text kind lexeme)
    (ho : IsMunch text other word) : kind = other ∧ lexeme = word := by
  have le : lexeme.length ≤ word.length := ho.longest kind lexeme h.isWord h.isPrefix
  have ge : word.length ≤ lexeme.length := h.longest other word ho.isWord ho.isPrefix
  obtain rfl : lexeme = word :=
    (List.prefix_of_prefix_length_le h.isPrefix ho.isPrefix le).eq_of_length (Nat.le_antisymm le ge)
  exact ⟨h.isWord.unique ho.isWord, rfl⟩

/-- **Words of two kinds begin one text only if they are a real and an integer**, and then the real is longer. -/
theorem Kind.IsWord.numbers_of_ne {kind other : Kind} {text lexeme word : List Char} (h : kind.IsWord lexeme)
    (front : lexeme <+: text) (ho : other.IsWord word) (frontOther : word <+: text) (ne : kind ≠ other) :
    kind = .integer ∧ other = .real ∨ kind = .real ∧ other = .integer ∧ word.length ≤ lexeme.length := by
  have begins : kind.isNumber = true ∧ other.isNumber = true := by
    obtain ⟨c, rest, rfl, starts⟩ := h.exists_starts
    obtain ⟨d, more, rfl, startsOther⟩ := ho.exists_starts
    obtain ⟨_, rfl⟩ := front
    obtain rfl : d = c := (List.cons_prefix_cons.mp frontOther).1
    exact (eq_or_number starts startsOther).resolve_left ne
  obtain ⟨number, numberOther⟩ := begins
  cases kind <;> cases number <;> cases other <;> cases numberOther
  · exact absurd rfl ne
  · exact .inl ⟨rfl, rfl⟩
  · refine .inr ⟨rfl, rfl, ?_⟩
    rcases List.prefix_or_prefix_of_prefix frontOther front with shorter | ⟨more, rfl⟩
    · exact shorter.length_le
    · have numeral : IsNumeral (lexeme ++ more) := ho
      exact absurd ⟨h.ne_nil, (List.forall_mem_append.mp numeral.2).1⟩ (not_isNumeral_of_isDecimal h)
  · exact absurd rfl ne

/-! ## The five rules under other priorities -/

/-- Whether rules are those of the five kinds with their automata, each once, in any order and with any priorities by which
reals are tried before integers: a rule of reals has a higher priority, or the same and is listed earlier. -/
structure Rule.Rearranged (rules : List Rule) : Prop where
  each : (rules.map fun rule => (rule.kind, rule.automaton)).Perm
    (standard.map fun rule => (rule.kind, rule.automaton))
  realsFirst : ∀ before integer after, rules = before ++ integer :: after → integer.kind = .integer →
    ∃ real, real.kind = .real ∧
      (real ∈ before ∧ integer.priority ≤ real.priority ∨ real ∈ after ∧ integer.priority < real.priority)

namespace Rule.Rearranged

variable {rules : List Rule} {text lexeme : List Char} {kind : Kind}

theorem recognizes (five : Rearranged rules) {rule : Rule} (mem : rule ∈ rules) :
    Recognizes rule.automaton rule.kind.IsWord := by
  have same : (rule.kind, rule.automaton) ∈ standard.map fun rule => (rule.kind, rule.automaton) :=
    five.each.mem_iff.mp (List.mem_map_of_mem mem)
  obtain ⟨other, memOther, eq⟩ := List.mem_map.mp same
  obtain ⟨sameKind, sameAutomaton⟩ := Prod.mk.inj eq
  rw [← sameKind, ← sameAutomaton]
  exact standard_recognizes other memOther

theorem exists_rule (five : Rearranged rules) (isWord : kind.IsWord lexeme) : ∃ rule ∈ rules, rule.kind = kind := by
  obtain ⟨other, memOther, rfl⟩ := exists_mem_standard isWord
  have same : (other.kind, other.automaton) ∈ rules.map fun rule => (rule.kind, rule.automaton) :=
    five.each.mem_iff.mpr (List.mem_map_of_mem memOther)
  obtain ⟨rule, mem, eq⟩ := List.mem_map.mp same
  exact ⟨rule, mem, (Prod.mk.inj eq).1⟩

theorem exists_lexer (five : Rearranged rules) : ∃ lexer, Lexer.ofRules rules = .ok lexer :=
  Lexer.exists_ofRules fun _ mem =>
    let ⟨a, built, _⟩ := five.recognizes mem
    ⟨a, built⟩

/-- A rule matches where a word of its kind stands. -/
theorem matches_of_isWord (five : Rearranged rules) {rule : Rule} (mem : rule ∈ rules) (isWord : rule.kind.IsWord lexeme)
    (front : lexeme <+: text) : rule.Matches text :=
  (matches_iff (five.recognizes mem)).mpr ⟨lexeme, front, isWord⟩

theorem longest_iff (five : Rearranged rules) {rule : Rule} (mem : rule ∈ rules) :
    rule.Longest text lexeme ↔ rule.kind.IsWord lexeme ∧ lexeme <+: text ∧
      ∀ word, word <+: text → rule.kind.IsWord word → word.length ≤ lexeme.length :=
  longest_iff_of_recognizes (five.recognizes mem) fun _ => Kind.IsWord.ne_nil

/-- **What is tried first munches.** -/
theorem isMunch_of_nextToken (five : Rearranged rules) (next : NextToken rules text kind lexeme) :
    IsMunch text kind lexeme := by
  obtain ⟨rule, ⟨before, after, order, _, earlier, later⟩, rfl, longest⟩ := next
  have mem : rule ∈ rules := by simp [order]
  obtain ⟨isWord, front, last⟩ := (five.longest_iff mem).mp longest
  refine ⟨isWord, front, fun other word isWordOther frontOther => ?_⟩
  by_cases same : rule.kind = other
  · subst same
    exact last word frontOther isWordOther
  · rcases isWord.numbers_of_ne front isWordOther frontOther same with ⟨isInteger, rfl⟩ | ⟨_, _, le⟩
    · -- A rule of reals matches as well, and it is tried before.
      exfalso
      obtain ⟨real, isReal, tried⟩ := five.realsFirst before rule after order isInteger
      have isMatch : real ∈ rules → real.Matches text := by
        intro memReal
        rw [← isReal] at isWordOther
        exact five.matches_of_isWord memReal isWordOther frontOther
      rcases tried with ⟨memReal, le⟩ | ⟨memReal, lt⟩
      · have := earlier real memReal (isMatch (by simp [order, memReal]))
        omega
      · have := later real memReal (isMatch (by simp [order, memReal]))
        omega
    · exact le

/-- **The longest of all matches munches.** -/
theorem isMunch_of_longestOf (five : Rearranged rules) {m : Match} (h : longestOf rules text = some m) :
    ∃ lexeme, IsMunch text m.kind lexeme ∧ m.length = lexeme.length := by
  obtain ⟨rule, mem, found⟩ := exists_rule_of_longestOf h
  obtain ⟨lexeme, longest, rfl⟩ := match?_eq_some_iff.mp found
  obtain ⟨isWord, front, _⟩ := (five.longest_iff mem).mp longest
  refine ⟨lexeme, ⟨isWord, front, fun other word isWordOther frontOther => ?_⟩, rfl⟩
  obtain ⟨ruleOther, memOther, rfl⟩ := five.exists_rule isWordOther
  have isMatch := five.matches_of_isWord memOther isWordOther frontOther
  obtain ⟨found, foundOther⟩ := Option.isSome_iff_exists.mp (match?_isSome_iff.mpr isMatch)
  obtain ⟨longer, longestOther, rfl⟩ := match?_eq_some_iff.mp foundOther
  obtain ⟨_, _, last⟩ := (five.longest_iff memOther).mp longestOther
  have le : longer.length ≤ lexeme.length := length_le_of_longestOf h memOther foundOther
  exact Nat.le_trans (last word frontOther isWordOther) le

/-- Rules of the five kinds find nothing where no word begins, whatever their priorities. -/
theorem forall_not_matches_iff (five : Rearranged rules) :
    (∀ rule ∈ rules, ¬ rule.Matches text) ↔ ∀ (kind : Kind) (word : List Char), kind.IsWord word → ¬ word <+: text := by
  constructor
  · intro none kind word isWord front
    obtain ⟨rule, mem, rfl⟩ := five.exists_rule isWord
    exact none rule mem (five.matches_of_isWord mem isWord front)
  · intro none rule mem isMatch
    obtain ⟨word, front, isWord⟩ := (matches_iff (five.recognizes mem)).mp isMatch
    exact none rule.kind word isWord front

/-- **The first match by priority is the longest of all.** -/
theorem match?_eq_longestOf {others : List Rule} {lexer : Lexer} (five : Rearranged rules)
    (fiveOthers : Rearranged others) (built : Lexer.ofRules rules = .ok lexer) (text : List Char) :
    lexer.match? text = longestOf others text := by
  cases first : lexer.match? text with
  | none =>
    symm
    rw [longestOf_eq_none_iff, fiveOthers.forall_not_matches_iff, ← five.forall_not_matches_iff]
    exact (Lexer.match?_eq_none_iff built).mp first
  | some m =>
    obtain ⟨lexeme, next, length⟩ := (Lexer.match?_eq_some_iff built).mp first
    have isMunch := five.isMunch_of_nextToken next
    cases longest : longestOf others text with
    | none =>
      rw [longestOf_eq_none_iff, fiveOthers.forall_not_matches_iff] at longest
      exact absurd isMunch.isPrefix (longest m.kind lexeme isMunch.isWord)
    | some n =>
      obtain ⟨word, isMunchOther, lengthOther⟩ := fiveOthers.isMunch_of_longestOf longest
      obtain ⟨kind, rfl⟩ := isMunch.unique isMunchOther
      obtain ⟨kindM, lengthM⟩ := m
      obtain ⟨kindN, lengthN⟩ := n
      cases kind
      cases length
      cases lengthOther
      rfl

end Rule.Rearranged

/-- The standard rules are such rules. -/
theorem Rule.rearranged_standard : Rearranged standard := by
  refine ⟨.refl _, fun before integer after order isInteger => ?_⟩
  obtain ⟨real, memReal, isReal⟩ : ∃ real ∈ standard, real.kind = .real := by simp [standard]
  have lt : integer.priority < real.priority :=
    priority_lt_of_integer_of_real (by simp [order]) memReal isInteger isReal
  refine ⟨real, isReal, ?_⟩
  rw [order, List.mem_append, List.mem_cons] at memReal
  rcases memReal with mem | rfl | mem
  · exact .inl ⟨mem, Int.le_of_lt lt⟩
  · omega
  · exact .inr ⟨mem, lt⟩

/-- **First match by priority is maximal munch.** With the five automata of Mini under any priorities, listed in any order,
as long as reals are tried before integers, there is a lexer, and for every text it gives the tokens or the error of the
standard lexer, which are those of a lexer that takes the longest match of all five everywhere. -/
theorem tokenize_maximal_munch {rules : List Rule} (five : Rule.Rearranged rules) :
    ∃ lexer standard, Lexer.ofRules rules = .ok lexer ∧ Lexer.standard = .ok standard ∧
      ∀ source, lexer.tokenize source = standard.tokenize source ∧
        lexer.tokenize source = munch Rule.standard source := by
  obtain ⟨lexer, built⟩ := five.exists_lexer
  obtain ⟨standard, builtStandard⟩ := Lexer.exists_standard
  refine ⟨lexer, standard, built, builtStandard, fun source => ?_⟩
  have munched : lexer.tokenize source = munch Rule.standard source :=
    Lexer.tokenize_eq_munch (five.match?_eq_longestOf Rule.rearranged_standard built) source
  have munchedStandard : standard.tokenize source = munch Rule.standard source :=
    Lexer.tokenize_eq_munch (Rule.rearranged_standard.match?_eq_longestOf Rule.rearranged_standard builtStandard) source
  exact ⟨munched.trans munchedStandard.symm, munched⟩

/-- All rules at one priority, those of names listed last: the real is not cut short at its point. -/
theorem tokenize_maximal_munch_one_priority :
    let rules : List Rule := [⟨.real, Automaton.real, 0⟩, ⟨.integer, Automaton.integer, 0⟩,
      ⟨.assignment, Automaton.assignment, 0⟩, ⟨.operator, Automaton.operator, 0⟩, ⟨.identifier, Automaton.identifier, 0⟩]
    let tokens : List Token := [⟨.real, "1.5", ⟨1, 1⟩⟩, ⟨.identifier, "x", ⟨1, 4⟩⟩]
    Rule.Rearranged rules ∧ ∃ lexer, Lexer.ofRules rules = .ok lexer ∧ lexer.tokenize "1.5x" = .ok tokens ∧
      munch Rule.standard "1.5x" = .ok tokens := by
  intro rules tokens
  have five : Rule.Rearranged rules := by
    refine ⟨@List.perm_append_comm _ [_, _, _, _] [_], fun before integer after order isInteger => ?_⟩
    cases before with
    | nil =>
      obtain ⟨rfl, _⟩ := List.cons.inj order
      cases isInteger
    | cons real before =>
      obtain ⟨rfl, _⟩ := List.cons.inj order
      have mem : integer ∈ rules := by simp [order]
      have zero : ∀ rule ∈ rules, rule.priority = 0 := by simp [rules]
      exact ⟨_, rfl, .inl ⟨List.mem_cons_self, Int.le_of_eq (zero integer mem)⟩⟩
  obtain ⟨lexer, standard, built, builtStandard, agree⟩ := tokenize_maximal_munch five
  obtain ⟨same, munched⟩ := agree "1.5x"
  have answer : standard.tokenize "1.5x" = .ok tokens := by
    have real : NextToken Rule.standard (['1', '.', '5'] ++ ['x']) .real ['1', '.', '5'] :=
      nextToken_standard_iff.mpr ⟨⟨['1'], ['5'], rfl, isNumeral_cons_iff.mpr ⟨rfl, List.forall_mem_nil _⟩,
        isNumeral_cons_iff.mpr ⟨rfl, List.forall_mem_nil _⟩⟩, fun c mem => Option.some.inj mem ▸ rfl, nofun⟩
    have name : NextToken Rule.standard (['x'] ++ []) .identifier ['x'] :=
      nextToken_standard_iff.mpr ⟨isName_cons_iff.mpr ⟨rfl, List.forall_mem_nil _⟩, nofun, nofun⟩
    refine (Lexer.tokenize_eq_ok_iff builtStandard).mpr
      ⟨[⟨[], .real, ['1', '.', '5']⟩, ⟨[], .identifier, ['x']⟩], [], rfl, ?_, List.forall_mem_nil _, by decide⟩
    exact ⟨List.forall_mem_nil _, fun c mem => Option.some.inj mem ▸ rfl, real,
      List.forall_mem_nil _, fun c mem => Option.some.inj mem ▸ rfl, name, trivial⟩
  exact ⟨five, lexer, built, same.trans answer, munched.symm.trans (same.trans answer)⟩

end Mini
