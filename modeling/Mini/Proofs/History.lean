import Mini.Proofs.Registration

/-!
# Builders that are used on

`history_of_builder`: what holds of a builder after any requests, refused ones among them, and what one request more does
to it. Labels are single characters. Edges are never lost or changed, so an automaton that is built later has every edge
of one that was built before. An edge is refused exactly when its label is not one character or its place is taken, and
then nothing happens. A range is refused exactly when a bound is not one character, the bounds are in the wrong order, or
a place in it is taken; in the last case the first such place is reported, in words that name its character and both
targets, and the edges before it stay.

Refused or not, a request leaves what some granted edges to one target leave (`Builder.exists_builder_attempt_eq`). Both
invariants are read off that, first for one request and from there for a list of them.
-/

namespace Mini

namespace Builder

variable {b : Builder} {source target state : State} {key : State × Label}

/-! ## Edges up to a contradiction -/

/-- **Edges to one target stop at the first contradiction**, and what was added before it stays. -/
theorem exists_conflict_of_addEdges {characters : List Char} {e : ConstructionError}
    (h : (b.addEdges source target characters).refusal = some e) :
    ∃ before c after old, characters = before ++ c :: after ∧ (b.addEdges source target before).refusal = none ∧
      (b.addEdges source target characters).builder = (b.addEdges source target before).builder ∧
      b.table[(source, String.singleton c)]? = some old ∧ old ≠ target ∧
      e = .conflict source (String.singleton c) old target := by
  induction characters generalizing b with
  | nil => cases h
  | cons c rest ih =>
    cases added : b.addEdge source c target with
    | error refused =>
      obtain ⟨old, there, other, eq⟩ := addEdge_eq_error_iff.mp added
      rw [addEdges_cons_error added] at h
      cases h
      refine ⟨[], c, rest, old, rfl, rfl, ?_, there, other, eq⟩
      rw [addEdges_cons_error added]
      rfl
    | ok next =>
      rw [addEdges_cons_ok added] at h
      obtain ⟨before, d, after, old, rfl, granted, same, there, other, eq⟩ := ih h
      refine ⟨c :: before, d, after, old, rfl, ?_, ?_, ?_, other, eq⟩
      · rw [addEdges_cons_ok added, granted]
      · rw [addEdges_cons_ok added, addEdges_cons_ok added, same]
      · -- The edge that was just added leads to the target, so the contradiction was there before.
        rw [getElem?_of_addEdge added] at there
        split at there
        · exact absurd (Option.some.inj there).symm other
        · exact there

theorem attempt_edge (b : Builder) (source : State) (c : Char) (target : State) :
    b.attempt (.edge source (String.singleton c) target) = b.addEdges source target [c] := by
  rw [attempt, singleChar?_eq_some_iff.mpr rfl]

theorem attempt_range (b : Builder) (source : State) {lo hi : Char} (order : lo ≤ hi) (target : State) :
    b.attempt (.range source (String.singleton lo) (String.singleton hi) target) =
      b.addEdges source target (charsFrom lo hi) := by
  rw [attempt, singleChar?_eq_some_iff.mpr rfl, singleChar?_eq_some_iff.mpr rfl]
  exact if_pos order

/-- A request that is not proper is refused, and nothing happens. -/
theorem builder_attempt_of_not_isProper {request : Registration} (h : ¬ request.IsProper) :
    (b.attempt request).builder = b := by
  cases request with
  | edge source label target =>
    cases single : singleChar? label with
    | none => rw [attempt, single]
    | some c => exact absurd ⟨c, singleChar?_eq_some_iff.mp single⟩ h
  | range source first last target =>
    cases singleFirst : singleChar? first with
    | none => rw [attempt, singleFirst]
    | some lo =>
      cases singleLast : singleChar? last with
      | none => rw [attempt, singleFirst, singleLast]
      | some hi =>
        by_cases order : lo ≤ hi
        · exact absurd ⟨lo, hi, singleChar?_eq_some_iff.mp singleFirst, singleChar?_eq_some_iff.mp singleLast, order⟩ h
        · rw [attempt, singleFirst, singleLast]
          simp [order]

/-- **What a request leaves behind, refused or not, is what some granted edges leave.** -/
theorem exists_builder_attempt_eq (b : Builder) (request : Registration) :
    ∃ source target characters, (b.addEdges source target characters).refusal = none ∧
      (b.attempt request).builder = (b.addEdges source target characters).builder := by
  by_cases proper : request.IsProper
  · obtain ⟨source, target, characters, attempted, _⟩ := exists_attempt_eq_addEdges proper
    cases refusal : (b.addEdges source target characters).refusal with
    | none => exact ⟨source, target, characters, refusal, by rw [attempted]⟩
    | some e =>
      obtain ⟨before, _, _, _, _, granted, same, _⟩ := exists_conflict_of_addEdges refusal
      exact ⟨source, target, before, granted, by rw [attempted, same]⟩
  · exact ⟨"", "", [], rfl, builder_attempt_of_not_isProper proper⟩

/-! ## What requests keep -/

/-- The builder after requests in order, each tried whether or not those before it were refused. -/
def attemptAll (b : Builder) (requests : List Registration) : Builder :=
  requests.foldl (fun b request => (b.attempt request).builder) b

/-- Whether every edge is labelled with a single character. -/
def SingleLabels (b : Builder) : Prop :=
  ∀ (source : State) (label : Label) (state : State), b.table[(source, label)]? = some state →
    ∃ c, label = String.singleton c

theorem SingleLabels.attempt (h : b.SingleLabels) (request : Registration) :
    (b.attempt request).builder.SingleLabels := by
  obtain ⟨_, _, characters, granted, same⟩ := b.exists_builder_attempt_eq request
  intro source label state there
  rw [same, getElem?_of_addEdges granted] at there
  rcases there with there | ⟨⟨c, _, eq⟩, _⟩
  · exact h source label state there
  · exact ⟨c, congrArg Prod.snd eq⟩

/-- **All labels stay single characters.** -/
theorem SingleLabels.attemptAll (h : b.SingleLabels) (requests : List Registration) :
    (b.attemptAll requests).SingleLabels := by
  induction requests generalizing b with
  | nil => exact h
  | cons request requests ih => exact ih (h.attempt request)

theorem getElem?_mono_of_attempt (request : Registration) (there : b.table[key]? = some state) :
    (b.attempt request).builder.table[key]? = some state := by
  obtain ⟨source, target, characters, granted, same⟩ := b.exists_builder_attempt_eq request
  rw [same, getElem?_of_addEdges granted]
  exact .inl there

/-- **Edges that are there stay as they are**, whatever is requested. -/
theorem getElem?_mono_of_attemptAll (requests : List Registration) (there : b.table[key]? = some state) :
    (b.attemptAll requests).table[key]? = some state := by
  induction requests generalizing b with
  | nil => exact there
  | cons request requests ih => exact ih (getElem?_mono_of_attempt request there)

/-! ## What one request does -/

/-- Whether a state and a character lead elsewhere. -/
def Taken (b : Builder) (source : State) (c : Char) (target : State) : Prop :=
  ∃ old, b.table[(source, String.singleton c)]? = some old ∧ old ≠ target

/-- Whether a builder has the edges of another one and certain edges more. -/
def Gains (b after : Builder) (edges : State × Label → State → Prop) : Prop :=
  ∀ key state, after.table[key]? = some state ↔ b.table[key]? = some state ∨ edges key state

/-- What becomes of a builder that is asked for an edge. -/
structure EdgeEffect (b : Builder) (source : State) (label : Label) (target : State) (answer : Attempt) : Prop where
  /-- The edge is refused when its label is not one character, and when it would lead elsewhere than it does. -/
  refused_iff : answer.refusal ≠ none ↔
    (¬ ∃ c, label = String.singleton c) ∨ ∃ old, b.table[(source, label)]? = some old ∧ old ≠ target
  unchanged : answer.refusal ≠ none → answer.builder = b
  gains : answer.refusal = none → b.Gains answer.builder fun key state => key = (source, label) ∧ state = target

/-- What becomes of a builder that is asked for a range of edges. -/
structure RangeEffect (b : Builder) (source : State) (first last : String) (target : State) (answer : Attempt) :
    Prop where
  /-- The range is refused when a bound is not one character, when the bounds are in the wrong order, and when a place
  between them is taken. -/
  refused_iff : answer.refusal ≠ none ↔
    (¬ ∃ lo hi, first = String.singleton lo ∧ last = String.singleton hi) ∨
      ∃ lo hi, first = String.singleton lo ∧ last = String.singleton hi ∧
        (hi < lo ∨ ∃ c, lo ≤ c ∧ c ≤ hi ∧ b.Taken source c target)
  /-- Bounds that make no range change nothing. -/
  unchanged : (¬ ∃ lo hi, first = String.singleton lo ∧ last = String.singleton hi ∧ lo ≤ hi) → answer.builder = b
  /-- Otherwise the first place that is taken is reported, with where it leads and where it should, and there are the edges
  before it. -/
  gains_before : ∀ lo hi, first = String.singleton lo → last = String.singleton hi → lo ≤ hi → answer.refusal ≠ none →
    ∃ c old, lo ≤ c ∧ c ≤ hi ∧ b.table[(source, String.singleton c)]? = some old ∧ old ≠ target ∧
      (∀ d, lo ≤ d → d < c → ¬ b.Taken source d target) ∧
      answer.refusal = some (.conflict source (String.singleton c) old target) ∧
      answer.refusal.map ConstructionError.message = some ("Conflicting transition from " ++ source ++ " on " ++
        Text.quote (String.singleton c) ++ ": " ++ old ++ " vs " ++ target) ∧
      b.Gains answer.builder fun key state =>
        (∃ d, lo ≤ d ∧ d < c ∧ key = (source, String.singleton d)) ∧ state = target
  gains : ∀ lo hi, first = String.singleton lo → last = String.singleton hi → answer.refusal = none →
    b.Gains answer.builder fun key state =>
      (∃ c, lo ≤ c ∧ c ≤ hi ∧ key = (source, String.singleton c)) ∧ state = target

/-! ### Edges -/

theorem refusal_attempt_edge_iff {label : Label} :
    (b.attempt (.edge source label target)).refusal ≠ none ↔
      (¬ ∃ c, label = String.singleton c) ∨ ∃ old, b.table[(source, label)]? = some old ∧ old ≠ target := by
  rw [ne_eq, refusal_attempt_eq_none_iff, Classical.not_and_iff_not_or_not]
  refine or_congr Iff.rfl ⟨fun h => ?_, fun h => ?_⟩
  · refine Classical.byContradiction fun free => h fun key new asks old there => ?_
    obtain ⟨rfl, rfl⟩ := asks
    exact Classical.byContradiction fun other => free ⟨old, there, other⟩
  · obtain ⟨old, there, other⟩ := h
    exact fun agrees => other (agrees (source, label) target ⟨rfl, rfl⟩ old there)

/-- A refused edge changes nothing. -/
theorem builder_attempt_edge_of_refusal {label : Label}
    (refused : (b.attempt (.edge source label target)).refusal ≠ none) :
    (b.attempt (.edge source label target)).builder = b := by
  by_cases single : ∃ c, label = String.singleton c
  · obtain ⟨c, rfl⟩ := single
    rw [attempt_edge] at refused ⊢
    obtain ⟨e, refusal⟩ := Option.ne_none_iff_exists'.mp refused
    obtain ⟨before, _, _, _, eq, _, same, _⟩ := exists_conflict_of_addEdges refusal
    -- The contradiction is at the one edge that there is, so nothing stands before it.
    have first : before = [] := by
      cases before with
      | nil => rfl
      | cons d before => simp at eq
    rw [same, first]
    rfl
  · exact builder_attempt_of_not_isProper single

theorem edgeEffect_attempt (b : Builder) (source : State) (label : Label) (target : State) :
    b.EdgeEffect source label target (b.attempt (.edge source label target)) where
  refused_iff := refusal_attempt_edge_iff
  unchanged := builder_attempt_edge_of_refusal
  gains granted _ _ := getElem?_of_attempt granted

/-! ### Ranges -/

/-- The characters of a range before one of them are those that stand before it in the list. -/
theorem mem_before_iff_of_charsFrom_eq {lo hi c d : Char} {before after : List Char}
    (eq : charsFrom lo hi = before ++ c :: after) : d ∈ before ↔ lo ≤ d ∧ d < c := by
  obtain ⟨_, sortedBehind, ascending⟩ := List.pairwise_append.mp (eq ▸ pairwise_charsFrom lo hi)
  have below : c ≤ hi := (mem_charsFrom_iff.mp (by rw [eq]; simp)).2
  refine ⟨fun mem => ⟨?_, ascending d mem c List.mem_cons_self⟩, fun bounds => ?_⟩
  · exact (mem_charsFrom_iff.mp (by rw [eq]; simp [mem])).1
  · have mem : d ∈ before ++ c :: after :=
      eq ▸ mem_charsFrom_iff.mpr ⟨bounds.1, Char.le_trans (Char.not_lt.mp (Char.lt_asymm bounds.2)) below⟩
    rcases List.mem_append.mp mem with mem | mem
    · exact mem
    · rcases List.mem_cons.mp mem with rfl | mem
      · exact absurd bounds.2 (Char.lt_irrefl d)
      · exact absurd ((List.pairwise_cons.mp sortedBehind).1 d mem) (Char.lt_asymm bounds.2)

/-- **A range that is refused for an edge stops at the first place that is taken**, and the edges before it stay. -/
theorem exists_taken_of_refusal_attempt_range {lo hi : Char} (order : lo ≤ hi) {answer : Attempt}
    (attempted : b.attempt (.range source (String.singleton lo) (String.singleton hi) target) = answer)
    (refused : answer.refusal ≠ none) :
    ∃ c old, lo ≤ c ∧ c ≤ hi ∧ b.table[(source, String.singleton c)]? = some old ∧ old ≠ target ∧
      (∀ d, lo ≤ d → d < c → ¬ b.Taken source d target) ∧
      answer.refusal = some (.conflict source (String.singleton c) old target) ∧
      answer.refusal.map ConstructionError.message = some ("Conflicting transition from " ++ source ++ " on " ++
        Text.quote (String.singleton c) ++ ": " ++ old ++ " vs " ++ target) ∧
      b.Gains answer.builder fun key state =>
        (∃ d, lo ≤ d ∧ d < c ∧ key = (source, String.singleton d)) ∧ state = target := by
  rw [attempt_range b source order] at attempted
  subst attempted
  obtain ⟨e, refusal⟩ := Option.ne_none_iff_exists'.mp refused
  obtain ⟨before, c, after, old, eq, granted, same, there, other, rfl⟩ := exists_conflict_of_addEdges refusal
  have between : lo ≤ c ∧ c ≤ hi := mem_charsFrom_iff.mp (by rw [eq]; simp)
  refine ⟨c, old, between.1, between.2, there, other, ?_, refusal, ?_, ?_⟩
  · rintro d above below ⟨taken, thereD, otherD⟩
    have mem : d ∈ before := (mem_before_iff_of_charsFrom_eq eq).mpr ⟨above, below⟩
    exact otherD (refusal_addEdges_eq_none_iff.mp granted d mem taken thereD)
  · rw [refusal]
    rfl
  · intro key state
    rw [same, getElem?_of_addEdges granted]
    simp only [mem_before_iff_of_charsFrom_eq eq, and_assoc]

theorem refusal_attempt_range_iff {first last : String} :
    (b.attempt (.range source first last target)).refusal ≠ none ↔
      (¬ ∃ lo hi, first = String.singleton lo ∧ last = String.singleton hi) ∨
        ∃ lo hi, first = String.singleton lo ∧ last = String.singleton hi ∧
          (hi < lo ∨ ∃ c, lo ≤ c ∧ c ≤ hi ∧ b.Taken source c target) := by
  refine ⟨fun refused => ?_, fun h granted => ?_⟩
  · by_cases single : ∃ lo hi, first = String.singleton lo ∧ last = String.singleton hi
    · obtain ⟨lo, hi, rfl, rfl⟩ := single
      refine .inr ⟨lo, hi, rfl, rfl, ?_⟩
      by_cases order : lo ≤ hi
      · obtain ⟨c, old, above, below, there, other, _⟩ := exists_taken_of_refusal_attempt_range order rfl refused
        exact .inr ⟨c, above, below, old, there, other⟩
      · exact .inl (Char.not_le.mp order)
    · exact .inl single
  · obtain ⟨⟨lo, hi, singleFirst, singleLast, order⟩, agrees⟩ := refusal_attempt_eq_none_iff.mp granted
    rcases h with notSingle | ⟨low, high, rfl, rfl, reversed | ⟨c, above, below, old, there, other⟩⟩
    · exact notSingle ⟨lo, hi, singleFirst, singleLast⟩
    · rw [String.singleton_inj.mp singleFirst, String.singleton_inj.mp singleLast] at reversed
      exact Char.not_le.mpr reversed order
    · exact other (agrees _ _ ⟨⟨low, high, c, rfl, rfl, above, below, rfl⟩, rfl⟩ old there)

theorem rangeEffect_attempt (b : Builder) (source : State) (first last : String) (target : State) :
    b.RangeEffect source first last target (b.attempt (.range source first last target)) where
  refused_iff := refusal_attempt_range_iff
  unchanged notProper := builder_attempt_of_not_isProper notProper
  gains_before := by
    rintro lo hi rfl rfl order refused
    exact exists_taken_of_refusal_attempt_range order rfl refused
  gains := by
    rintro lo hi rfl rfl granted key state
    rw [getElem?_of_attempt granted]
    simp [Registration.Asks, String.singleton_inj]

end Builder

/-- **The history of a builder.** After any requests, refused ones among them, every label is a single character; no
request takes an edge away or leads it elsewhere, so automata built later have every edge of those built before; and
every edge and every range that is asked for next has the effect that the builder's edges decide. -/
theorem history_of_builder (history : List Registration) :
    let b := Builder.empty.attemptAll history
    b.SingleLabels ∧
    (∀ more start accepting startLater acceptingLater source label state,
      (b.build start accepting).step source label = some state →
        ((b.attemptAll more).build startLater acceptingLater).step source label = some state) ∧
    (∀ source label target, b.EdgeEffect source label target (b.attempt (.edge source label target))) ∧
    (∀ source first last target,
      b.RangeEffect source first last target (b.attempt (.range source first last target))) := by
  intro b
  have fresh : Builder.empty.SingleLabels := by
    intro source label state there
    simp [Builder.empty] at there
  refine ⟨fresh.attemptAll history, ?_, b.edgeEffect_attempt, b.rangeEffect_attempt⟩
  intro more start accepting startLater acceptingLater source label state there
  exact Builder.getElem?_mono_of_attemptAll more there

/-- A range that stopped half-way: the edge before the place that was taken is there, and it stays. -/
theorem history_of_builder_half_way :
    let b := Builder.empty.attemptAll [.edge "s" "b" "t", .range "s" "a" "c" "u", .edge "s" "ab" "t"]
    (b.build "s" []).step "s" "a" = some "u" ∧ (b.build "s" []).step "s" "c" = none ∧
      ((b.attemptAll [.edge "s" "a" "t", .range "s" "a" "d" "u"]).build "t" ["u"]).step "s" "a" = some "u" ∧
      (b.attempt (.edge "s" "a" "t")).builder = b ∧
      (b.attempt (.range "s" "a" "d" "u")).refusal ≠ none := by
  intro b
  obtain ⟨_, keeps, edge, range⟩ :=
    history_of_builder [.edge "s" "b" "t", .range "s" "a" "c" "u", .edge "s" "ab" "t"]
  have there : (b.build "s" []).step "s" "a" = some "u" := by decide +kernel
  have missing : (b.build "s" []).step "s" "c" = none := by decide +kernel
  have other : "u" ≠ "t" := by decide
  have refused : (b.attempt (.edge "s" "a" "t")).refusal ≠ none :=
    (edge "s" "a" "t").refused_iff.mpr (.inr ⟨"u", there, other⟩)
  have taken : b.Taken "s" 'b' "u" := ⟨"t", by decide +kernel, other.symm⟩
  refine ⟨there, missing, keeps _ "s" [] "t" ["u"] "s" "a" "u" there, (edge "s" "a" "t").unchanged refused, ?_⟩
  exact (range "s" "a" "d" "u").refused_iff.mpr
    (.inr ⟨'a', 'd', rfl, rfl, .inr ⟨'b', by decide, by decide, taken⟩⟩)

end Mini
