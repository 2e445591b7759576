import Mini.Automaton.Builder

/-!
# What requests register

The edges that a request asks for, said without a builder (`Registration.Asks`), and what becomes of them. A request
that is not refused leaves exactly the edges that were there and those it asks for (`Builder.getElem?_of_attempt`),
and it is refused exactly when it is not proper or asks for an edge that leads elsewhere already
(`Builder.refusal_attempt_eq_none_iff`). From one request this passes to a list of them, and so to an automaton:
where the requests agree with a function from states and characters to states, they build the automaton that
reads by this function (`Automaton.exists_follows_of_asks`).
-/

namespace Mini

namespace Registration

/-- Whether a request asks for an edge from a state on a label to a target. -/
def Asks : Registration → State × Label → State → Prop
  | .edge source label target, key, state => key = (source, label) ∧ state = target
  | .range source first last target, key, state =>
    (∃ lo hi c, first = String.singleton lo ∧ last = String.singleton hi ∧ lo ≤ c ∧ c ≤ hi ∧
      key = (source, String.singleton c)) ∧ state = target

theorem asks_edge_iff {source state target asked : State} {c : Char} (label : Label) (d : Char)
    (single : label = String.singleton d) :
    (edge source label target).Asks (state, String.singleton c) asked ↔
      state = source ∧ c = d ∧ asked = target := by
  simp [Asks, single, String.singleton_inj, and_assoc]

theorem asks_range_iff {source state target asked : State} {c : Char} (first last : Label) (lo hi : Char)
    (singleFirst : first = String.singleton lo) (singleLast : last = String.singleton hi) :
    (range source first last target).Asks (state, String.singleton c) asked ↔
      state = source ∧ (lo ≤ c ∧ c ≤ hi) ∧ asked = target := by
  simp only [Asks, singleFirst, singleLast, String.singleton_inj, Prod.mk.injEq]
  constructor
  · rintro ⟨⟨_, _, _, rfl, rfl, above, below, rfl, rfl⟩, rfl⟩
    exact ⟨rfl, ⟨above, below⟩, rfl⟩
  · rintro ⟨rfl, ⟨above, below⟩, rfl⟩
    exact ⟨⟨lo, hi, c, rfl, rfl, above, below, rfl, rfl⟩, rfl⟩

/-- Whether the labels of a request are single characters, in order if they are bounds. -/
def IsProper : Registration → Prop
  | .edge _ label _ => ∃ c, label = String.singleton c
  | .range _ first last _ => ∃ lo hi, first = String.singleton lo ∧ last = String.singleton hi ∧ lo ≤ hi

theorem exists_char_of_asks {request : Registration} (proper : request.IsProper) {key : State × Label}
    {state : State} (asks : request.Asks key state) : ∃ source c, key = (source, String.singleton c) := by
  cases request with
  | edge source label target =>
    obtain ⟨c, rfl⟩ := proper
    exact ⟨source, c, asks.1⟩
  | range source first last target =>
    obtain ⟨⟨_, _, c, _, _, _, _, eq⟩, _⟩ := asks
    exact ⟨source, c, eq⟩

end Registration

namespace Builder

/-! ## One state, one target -/

variable {b after : Builder} {source target : State} {key : State × Label} {state : State}

theorem addEdges_nil : b.addEdges source target [] = ⟨b, none⟩ := rfl

theorem addEdges_cons_ok {c : Char} (h : b.addEdge source c target = .ok after) (rest : List Char) :
    b.addEdges source target (c :: rest) = after.addEdges source target rest := by
  rw [addEdges, h]

theorem addEdges_cons_error {c : Char} {e : ConstructionError} (h : b.addEdge source c target = .error e)
    (rest : List Char) : b.addEdges source target (c :: rest) = ⟨b, some e⟩ := by
  rw [addEdges, h]

/-- **Edges that are not refused are added to those that are there.** -/
theorem getElem?_of_addEdges {characters : List Char}
    (h : (b.addEdges source target characters).refusal = none) :
    (b.addEdges source target characters).builder.table[key]? = some state ↔
      b.table[key]? = some state ∨ (∃ c ∈ characters, key = (source, String.singleton c)) ∧ state = target := by
  induction characters generalizing b with
  | nil => simp [addEdges_nil]
  | cons c rest ih =>
    cases added : b.addEdge source c target with
    | error e =>
      rw [addEdges_cons_error added] at h
      cases h
    | ok next =>
      rw [addEdges_cons_ok added] at h ⊢
      have now := getElem?_of_addEdge added key
      rw [ih h]
      simp only [List.mem_cons, exists_eq_or_imp]
      by_cases here : key = (source, String.singleton c)
      · rw [if_pos here] at now
        have before : b.table[key]? = some state → state = target := by
          intro there
          rw [getElem?_mono_of_addEdge added there, Option.some.injEq] at now
          exact now
        rw [now, Option.some.injEq, eq_comm (a := target)]
        grind
      · rw [now, if_neg here]
        grind

/-- **Edges to one target are refused exactly when one of them leads elsewhere already**: they do not contradict
each other. -/
theorem refusal_addEdges_eq_none_iff {characters : List Char} :
    (b.addEdges source target characters).refusal = none ↔
      ∀ c ∈ characters, ∀ old, b.table[(source, String.singleton c)]? = some old → old = target := by
  induction characters generalizing b with
  | nil => simp [addEdges_nil]
  | cons c rest ih =>
    rw [List.forall_mem_cons]
    cases added : b.addEdge source c target with
    | error e =>
      obtain ⟨old, there, other, _⟩ := addEdge_eq_error_iff.mp added
      rw [addEdges_cons_error added]
      refine ⟨fun h => ?_, fun h => ?_⟩
      · cases h
      · exact absurd (h.1 old there) other
    | ok next =>
      rw [addEdges_cons_ok added, ih]
      have here : ∀ old, b.table[(source, String.singleton c)]? = some old → old = target := by
        intro old there
        have now := getElem?_mono_of_addEdge added there
        rw [getElem?_of_addEdge added, if_pos rfl, Option.some.injEq] at now
        exact now.symm
      refine ⟨fun h => ⟨here, ?_⟩, fun h d mem old there => ?_⟩
      · intro d mem old there
        exact h d mem old (getElem?_mono_of_addEdge added there)
      · rw [getElem?_of_addEdge added] at there
        split at there
        · exact (Option.some.inj there).symm
        · exact h.2 d mem old there

/-! ## One request -/

/-- A proper request is a list of edges to one target. -/
theorem exists_attempt_eq_addEdges {request : Registration} (proper : request.IsProper) :
    ∃ source target characters, (∀ b : Builder, b.attempt request = b.addEdges source target characters) ∧
      ∀ key state, request.Asks key state ↔
        (∃ c ∈ characters, key = (source, String.singleton c)) ∧ state = target := by
  cases request with
  | edge source label target =>
    obtain ⟨c, rfl⟩ := proper
    refine ⟨source, target, [c], fun b => ?_, fun key state => ?_⟩
    · rw [attempt, singleChar?_eq_some_iff.mpr rfl]
    · simp [Registration.Asks]
  | range source first last target =>
    obtain ⟨lo, hi, rfl, rfl, order⟩ := proper
    refine ⟨source, target, charsFrom lo hi, fun b => ?_, fun key state => ?_⟩
    · rw [attempt, singleChar?_eq_some_iff.mpr rfl, singleChar?_eq_some_iff.mpr rfl]
      exact if_pos order
    · simp [Registration.Asks, mem_charsFrom_iff, and_assoc]

theorem isProper_of_refusal_eq_none {request : Registration} (h : (b.attempt request).refusal = none) :
    request.IsProper := by
  cases request with
  | edge source label target =>
    cases single : singleChar? label with
    | none =>
      rw [attempt, single] at h
      cases h
    | some c => exact ⟨c, singleChar?_eq_some_iff.mp single⟩
  | range source first last target =>
    cases singleFirst : singleChar? first with
    | none =>
      rw [attempt, singleFirst] at h
      cases h
    | some lo =>
      cases singleLast : singleChar? last with
      | none =>
        rw [attempt, singleFirst, singleLast] at h
        cases h
      | some hi =>
        by_cases order : lo ≤ hi
        · exact ⟨lo, hi, singleChar?_eq_some_iff.mp singleFirst, singleChar?_eq_some_iff.mp singleLast, order⟩
        · rw [attempt, singleFirst, singleLast] at h
          simp [order] at h

/-- **A request is granted exactly when it is proper and asks for no edge that leads elsewhere already.** -/
theorem refusal_attempt_eq_none_iff {request : Registration} :
    (b.attempt request).refusal = none ↔
      request.IsProper ∧ ∀ key new, request.Asks key new → ∀ old, b.table[key]? = some old → old = new := by
  by_cases proper : request.IsProper
  · obtain ⟨source, target, characters, attempted, asks⟩ := exists_attempt_eq_addEdges proper
    rw [attempted, refusal_addEdges_eq_none_iff]
    simp only [asks]
    refine ⟨fun h => ⟨proper, ?_⟩, fun h c mem old there => ?_⟩
    · rintro _ _ ⟨⟨c, mem, rfl⟩, rfl⟩ old there
      exact h c mem old there
    · exact h.2 _ target ⟨⟨c, mem, rfl⟩, rfl⟩ old there
  · exact ⟨fun h => absurd (isProper_of_refusal_eq_none h) proper, fun h => absurd h.1 proper⟩

/-- **What is asked for and granted is added to what is there.** -/
theorem getElem?_of_attempt {request : Registration} (h : (b.attempt request).refusal = none) :
    (b.attempt request).builder.table[key]? = some state ↔
      b.table[key]? = some state ∨ request.Asks key state := by
  obtain ⟨source, target, characters, attempted, asks⟩ :=
    exists_attempt_eq_addEdges (isProper_of_refusal_eq_none h)
  rw [attempted] at h ⊢
  rw [getElem?_of_addEdges h, asks]

/-! ## A list of requests -/

theorem register_eq_ok_iff {request : Registration} :
    b.register request = .ok after ↔
      (b.attempt request).refusal = none ∧ (b.attempt request).builder = after := by
  rw [register]
  cases attempted : b.attempt request with
  | mk next refusal => cases refusal <;> simp

theorem registerAll_cons_eq_ok_iff {request : Registration} {requests : List Registration} :
    b.registerAll (request :: requests) = .ok after ↔
      (b.attempt request).refusal = none ∧ (b.attempt request).builder.registerAll requests = .ok after := by
  rw [registerAll, List.foldlM_cons]
  cases registered : b.register request with
  | error e =>
    refine ⟨fun h => ?_, fun h => ?_⟩
    · cases h
    · rw [register_eq_ok_iff.mpr ⟨h.1, rfl⟩] at registered
      cases registered
  | ok next =>
    obtain ⟨granted, rfl⟩ := register_eq_ok_iff.mp registered
    exact ⟨fun h => ⟨granted, h⟩, fun h => h.2⟩

/-- **A builder that was not refused holds what was there and what was asked for.** -/
theorem getElem?_of_registerAll {requests : List Registration} (h : b.registerAll requests = .ok after) :
    after.table[key]? = some state ↔ b.table[key]? = some state ∨ ∃ r ∈ requests, r.Asks key state := by
  induction requests generalizing b with
  | nil =>
    cases h
    simp
  | cons request requests ih =>
    obtain ⟨granted, others⟩ := registerAll_cons_eq_ok_iff.mp h
    rw [ih others, getElem?_of_attempt granted, or_assoc]
    simp only [List.mem_cons, exists_eq_or_imp]

/-- Whether no state and label lead to two targets, in a table or by requests. -/
def Consistent (b : Builder) (requests : List Registration) : Prop :=
  ∀ key first second, (b.table[key]? = some first ∨ ∃ r ∈ requests, r.Asks key first) →
    (b.table[key]? = some second ∨ ∃ r ∈ requests, r.Asks key second) → first = second

/-- **Requests are granted exactly when all are proper and no two contradict each other**, in whatever order. -/
theorem exists_registerAll_eq_ok_iff {requests : List Registration} :
    (∃ after, b.registerAll requests = .ok after) ↔
      (∀ r ∈ requests, r.IsProper) ∧ b.Consistent requests := by
  constructor
  · rintro ⟨after, h⟩
    refine ⟨?_, fun key first second askedFirst askedSecond => ?_⟩
    · induction requests generalizing b with
      | nil => exact List.forall_mem_nil _
      | cons request requests ih =>
        obtain ⟨granted, others⟩ := registerAll_cons_eq_ok_iff.mp h
        exact List.forall_mem_cons.mpr ⟨isProper_of_refusal_eq_none granted, ih others⟩
    · have thereFirst := (getElem?_of_registerAll h).mpr askedFirst
      rw [(getElem?_of_registerAll h).mpr askedSecond] at thereFirst
      exact (Option.some.inj thereFirst).symm
  · rintro ⟨proper, consistent⟩
    induction requests generalizing b with
    | nil => exact ⟨b, rfl⟩
    | cons request requests ih =>
      obtain ⟨here, others⟩ := List.forall_mem_cons.mp proper
      have granted : (b.attempt request).refusal = none :=
        refusal_attempt_eq_none_iff.mpr ⟨here, fun key new asked old there =>
          consistent key old new (.inl there) (.inr ⟨request, List.mem_cons_self, asked⟩)⟩
      have still : (b.attempt request).builder.Consistent requests := by
        intro key first second
        simp only [getElem?_of_attempt granted, or_assoc]
        have := consistent key first second
        simp only [List.mem_cons, exists_eq_or_imp] at this
        exact this
      obtain ⟨after, registered⟩ := ih others still
      exact ⟨after, registerAll_cons_eq_ok_iff.mpr ⟨granted, registered⟩⟩

end Builder

/-! ## Automata -/

namespace Automaton

variable {start : State} {accepting : List State} {requests : List Registration} {a : Automaton}

theorem ofRegistrations_eq_ok_iff :
    ofRegistrations start accepting requests = .ok a ↔
      ∃ b, Builder.empty.registerAll requests = .ok b ∧ b.build start accepting = a := by
  cases registered : Builder.empty.registerAll requests with
  | error e =>
    rw [ofRegistrations, registered]
    refine ⟨fun h => ?_, fun h => ?_⟩
    · cases h
    · obtain ⟨_, impossible, _⟩ := h
      cases impossible
  | ok b =>
    rw [ofRegistrations, registered]
    refine ⟨fun h => ?_, fun h => ?_⟩
    · cases h
      exact ⟨b, rfl, rfl⟩
    · obtain ⟨_, same, rfl⟩ := h
      cases same
      rfl

/-- An automaton reads exactly what was asked for. -/
theorem step_of_ofRegistrations (built : ofRegistrations start accepting requests = .ok a) {source target : State}
    {label : Label} :
    a.step source label = some target ↔ ∃ r ∈ requests, r.Asks (source, label) target := by
  obtain ⟨b, registered, rfl⟩ := ofRegistrations_eq_ok_iff.mp built
  show b.table[(source, label)]? = some target ↔ _
  rw [Builder.getElem?_of_registerAll registered]
  simp [Builder.empty]

/-- Whether an automaton has a start, accepting states and edges, the edges given as a function. -/
structure Follows (a : Automaton) (start : State) (accepting : List State)
    (graph : State → Char → Option State) : Prop where
  start : a.start = start
  accepting : ∀ state, a.isAccepting state = accepting.contains state
  read : ∀ state c, a.read state c = graph state c

/-- **Requests that agree with a function build the automaton that reads by it.** -/
theorem exists_follows_of_asks (start : State) (accepting : List State) {requests : List Registration}
    {graph : State → Char → Option State} (proper : ∀ r ∈ requests, r.IsProper)
    (asks : ∀ source c target, (∃ r ∈ requests, r.Asks (source, String.singleton c) target) ↔
      graph source c = some target) :
    ∃ a, ofRegistrations start accepting requests = .ok a ∧ a.Follows start accepting graph := by
  have consistent : Builder.empty.Consistent requests := by
    intro key first second askedFirst askedSecond
    obtain ⟨r, mem, asksFirst⟩ := askedFirst.resolve_left (by simp [Builder.empty])
    obtain ⟨source, c, rfl⟩ := Registration.exists_char_of_asks (proper r mem) asksFirst
    have graphFirst := (asks source c first).mp ⟨r, mem, asksFirst⟩
    rw [(asks source c second).mp (askedSecond.resolve_left (by simp [Builder.empty]))] at graphFirst
    exact (Option.some.inj graphFirst).symm
  obtain ⟨b, registered⟩ := Builder.exists_registerAll_eq_ok_iff.mpr ⟨proper, consistent⟩
  have built : ofRegistrations start accepting requests = .ok (b.build start accepting) :=
    ofRegistrations_eq_ok_iff.mpr ⟨b, registered, rfl⟩
  refine ⟨_, built, rfl, fun state => ?_, fun source c => ?_⟩
  · exact Std.ExtTreeSet.contains_ofList
  · refine Option.ext fun target => ?_
    rw [← asks, ← step_of_ofRegistrations built]
    rfl

end Automaton

end Mini
