import Mini.Proofs.Canonical

/-!
# Levels of precedence

Every level of precedence has the same law (`Production.Reads`): its production reads an expression exactly when
the expression has the shape of the level, the tokens begin with those of the expression, and no operator that
could go on follows. `Production.Reads.chain` gets the law of a level from that of its operands, whichever way
the level groups; what it asks for is that the two levels share no sign.

What shapes the levels of Mini have is not decided here.
-/

namespace Mini

/-! ## What an outcome says -/

namespace Production

variable {α β : Type} {tokens rest : List Token}

theorem read_expect_eq_ok_iff {kind : Kind} {fault : Fault} {t : Token} :
    (expect kind fault).read tokens = .ok (t, rest) ↔ t.kind = kind ∧ tokens = t :: rest := by
  cases tokens with
  | nil => exact ⟨fun h => (nomatch h), fun h => (nomatch h.2)⟩
  | cons first more =>
    show (if first.kind = kind then _ else _) = _ ↔ _
    by_cases same : first.kind = kind
    · rw [if_pos same]
      refine ⟨fun h => ?_, fun h => ?_⟩
      · cases h
        exact ⟨same, rfl⟩
      · obtain ⟨_, eq⟩ := h
        cases eq
        rfl
    · rw [if_neg same]
      refine ⟨fun h => ?_, fun h => ?_⟩
      · cases h
      · obtain ⟨isKind, eq⟩ := h
        cases eq
        exact absurd isKind same

theorem read_expect_eq_error_iff {kind : Kind} {fault : Fault} {failure : Failure} :
    (expect kind fault).read tokens = .error failure ↔
      failure = ⟨fault, tokens⟩ ∧ ∀ t ∈ tokens.head?, t.kind ≠ kind := by
  cases tokens with
  | nil =>
    refine ⟨fun h => ?_, fun h => ?_⟩
    · cases h
      exact ⟨rfl, fun t mem => nomatch mem⟩
    · obtain ⟨rfl, _⟩ := h
      rfl
  | cons first more =>
    show (if first.kind = kind then _ else _) = _ ↔ _
    by_cases same : first.kind = kind
    · rw [if_pos same]
      refine ⟨fun h => ?_, fun h => ?_⟩
      · cases h
      · obtain ⟨_, other⟩ := h
        exact absurd same (other first rfl)
    · rw [if_neg same]
      refine ⟨fun h => ?_, fun h => ?_⟩
      · cases h
        exact ⟨rfl, fun t mem => Option.some.inj mem ▸ same⟩
      · obtain ⟨rfl, _⟩ := h
        rfl

theorem read_andThen_eq_ok_iff {p : Production α} {q : α → Production β} {value : β} :
    (p.andThen q).read tokens = .ok (value, rest) ↔
      ∃ first between, p.read tokens = .ok (first, between) ∧ (q first).read between = .ok (value, rest) := by
  refine ⟨fun h => ?_, fun h => ?_⟩
  · cases read : p.read tokens with
    | error failure =>
      rw [read_andThen_error read] at h
      cases h
    | ok result =>
      obtain ⟨first, between⟩ := result
      exact ⟨first, between, rfl, by rw [← read_andThen_ok read, h]⟩
  · obtain ⟨first, between, read, second⟩ := h
    rw [read_andThen_ok read, second]

theorem read_andThen_eq_error_iff {p : Production α} {q : α → Production β} {failure : Failure} :
    (p.andThen q).read tokens = .error failure ↔
      p.read tokens = .error failure ∨
        ∃ first between, p.read tokens = .ok (first, between) ∧ (q first).read between = .error failure := by
  cases read : p.read tokens with
  | error other => simp [read_andThen_error read]
  | ok result =>
    obtain ⟨first, between⟩ := result
    simp only [read_andThen_ok read, Except.ok.injEq, Prod.mk.injEq, reduceCtorEq, false_or]
    refine ⟨fun h => ?_, fun h => ?_⟩
    · exact ⟨first, between, ⟨rfl, rfl⟩, h⟩
    · obtain ⟨_, _, ⟨rfl, rfl⟩, h⟩ := h
      exact h

theorem read_map_eq_ok_iff {f : α → β} {p : Production α} {value : β} :
    (p.map f).read tokens = .ok (value, rest) ↔ ∃ first, p.read tokens = .ok (first, rest) ∧ f first = value := by
  rw [read_map]
  refine ⟨fun h => ?_, fun h => ?_⟩
  · cases read : p.read tokens with
    | error failure =>
      rw [read] at h
      cases h
    | ok result =>
      rw [read] at h
      cases h
      exact ⟨result.1, rfl, rfl⟩
  · obtain ⟨first, read, rfl⟩ := h
    rw [read]
    rfl

theorem read_map_eq_error_iff {f : α → β} {p : Production α} {failure : Failure} :
    (p.map f).read tokens = .error failure ↔ p.read tokens = .error failure := by
  rw [read_map]
  cases p.read tokens <;> simp [Except.map]

theorem read_chain_eq_ok_iff {p : Production Expr} {signs : List String} {chain : Chain} :
    (p.chain signs).read tokens = .ok (chain, rest) ↔
      ∃ between, p.read tokens = .ok (chain.first, between) ∧
        p.links signs [] between = .ok (chain.links, rest) := by
  refine ⟨fun h => ?_, fun h => ?_⟩
  · cases read : p.read tokens with
    | error failure =>
      rw [read_chain_error read] at h
      cases h
    | ok result =>
      rw [read_chain_ok read] at h
      cases linked : p.links signs [] result.2 with
      | error failure =>
        rw [linked] at h
        cases h
      | ok pair =>
        rw [linked] at h
        cases h
        exact ⟨result.2, rfl, linked⟩
  · obtain ⟨between, read, linked⟩ := h
    rw [read_chain_ok read, linked]
    rfl

theorem read_chain_eq_error_iff {p : Production Expr} {signs : List String} {failure : Failure} :
    (p.chain signs).read tokens = .error failure ↔
      p.read tokens = .error failure ∨
        ∃ first between, p.read tokens = .ok (first, between) ∧ p.links signs [] between = .error failure := by
  cases read : p.read tokens with
  | error other => simp [read_chain_error read]
  | ok result =>
    obtain ⟨first, between⟩ := result
    simp only [read_chain_ok read, Except.ok.injEq, Prod.mk.injEq, reduceCtorEq, false_or]
    refine ⟨fun h => ?_, fun h => ?_⟩
    · refine ⟨first, between, ⟨rfl, rfl⟩, ?_⟩
      cases linked : p.links signs [] between with
      | error other =>
        rw [linked] at h
        cases h
        rfl
      | ok links =>
        rw [linked] at h
        cases h
    · obtain ⟨_, _, ⟨rfl, rfl⟩, linked⟩ := h
      rw [linked]
      rfl

end Production

/-! ## Where a level stops -/

/-- Whether no operator with one of the signs comes next. -/
def Stops (signs : List String) (rest : List Token) : Prop :=
  ∀ t ∈ rest.head?, t.isOperator signs = false

theorem stops_nil (signs : List String) : Stops signs [] := by
  intro t mem
  cases mem

theorem stops_cons_iff {signs : List String} {t : Token} {rest : List Token} :
    Stops signs (t :: rest) ↔ t.isOperator signs = false := by
  simp [Stops]

theorem isOperator_iff {signs : List String} {t : Token} :
    t.isOperator signs = true ↔ t.kind = .operator ∧ t.lexeme ∈ signs := by
  simp [Token.isOperator]

theorem isOperator_append (first second : List String) (t : Token) :
    t.isOperator (first ++ second) = (t.isOperator first || t.isOperator second) := by
  rw [Bool.eq_iff_iff, Bool.or_eq_true]
  simp only [isOperator_iff, List.mem_append, and_or_left]

theorem stops_append_iff {first second : List String} {rest : List Token} :
    Stops (first ++ second) rest ↔ Stops first rest ∧ Stops second rest := by
  cases rest with
  | nil => exact ⟨fun _ => ⟨stops_nil first, stops_nil second⟩, fun _ => stops_nil _⟩
  | cons t rest => simp only [stops_cons_iff, isOperator_append, Bool.or_eq_false_iff]

/-- What begins with anything but an operator stops every level. -/
theorem stops_of_kind_ne {t : Token} (h : t.kind ≠ .operator) (signs : List String) (rest : List Token) :
    Stops signs (t :: rest) := by
  simp [stops_cons_iff, Token.isOperator, h]

/-! ## Chains and their tokens -/

/-- The tokens of links: each operator before those of its operand. -/
def linkTokens (links : List (Token × Expr)) : List Token :=
  links.flatMap fun link => link.1 :: link.2.tokens

/-- Operators of a level, each with an operand of a shape. -/
def LinksOf (shape : Expr → Prop) (signs : List String) (links : List (Token × Expr)) : Prop :=
  ∀ link ∈ links, link.1.isOperator signs = true ∧ shape link.2

theorem linksOf_nil (shape : Expr → Prop) (signs : List String) : LinksOf shape signs [] := by
  intro link mem
  cases mem

/-- Operands of a shape, with operators of a level between them. -/
structure Chain.Of (shape : Expr → Prop) (signs : List String) (chain : Chain) : Prop where
  first : shape chain.first
  links : LinksOf shape signs chain.links

theorem linkTokens_cons (link : Token × Expr) (links : List (Token × Expr)) :
    linkTokens (link :: links) = link.1 :: (link.2.tokens ++ linkTokens links) := by
  simp [linkTokens]

theorem Expr.tokens_join {signs : List String} {operator : Token} (h : operator.isOperator signs = true)
    (left right : Expr) : (left.join operator right).tokens = left.tokens ++ operator :: right.tokens := by
  obtain ⟨kind, lexeme, position⟩ := operator
  obtain rfl : kind = .operator := (isOperator_iff.mp h).1
  rfl

/-- **Grouping from the left keeps the tokens.** -/
theorem Chain.tokens_groupLeft {shape : Expr → Prop} {signs : List String} {chain : Chain}
    (h : chain.Of shape signs) :
    chain.groupLeft.tokens = chain.first.tokens ++ linkTokens chain.links := by
  obtain ⟨first, links⟩ := chain
  have operators := h.links
  clear h
  show (links.foldl (fun left link => left.join link.1 link.2) first).tokens = _
  induction links generalizing first with
  | nil => exact (List.append_nil _).symm
  | cons link links ih =>
    obtain ⟨here, others⟩ := List.forall_mem_cons.mp operators
    rw [List.foldl_cons, ih _ others, Expr.tokens_join here.1, linkTokens_cons, List.append_assoc,
      List.cons_append]

/-- **Grouping from the right keeps the tokens.** -/
theorem Chain.tokens_groupRight {shape : Expr → Prop} {signs : List String} {chain : Chain}
    (h : chain.Of shape signs) :
    chain.groupRight.tokens = chain.first.tokens ++ linkTokens chain.links := by
  obtain ⟨first, links⟩ := chain
  have operators := h.links
  clear h
  show (groupRightFrom first links).tokens = _
  induction links generalizing first with
  | nil => exact (List.append_nil _).symm
  | cons link links ih =>
    obtain ⟨here, others⟩ := List.forall_mem_cons.mp operators
    rw [groupRightFrom, Expr.tokens_join here.1, ih _ others, linkTokens_cons]

/-! ## The law of a level -/

/-- The production reads the expressions of a shape, as far as no operator with one of the signs follows. -/
def Production.Reads (p : Production Expr) (shape : Expr → Prop) (signs : List String) : Prop :=
  ∀ tokens e rest, p.read tokens = .ok (e, rest) ↔ shape e ∧ tokens = e.tokens ++ rest ∧ Stops signs rest

namespace Production

/-- Behind an operand come the links, so the operand stops there if the levels share no sign. -/
theorem stops_linkTokens {shape : Expr → Prop} {inner signs : List String} (apart : ∀ s ∈ signs, s ∉ inner)
    {links : List (Token × Expr)} {rest : List Token} (operators : LinksOf shape signs links)
    (stops : Stops inner rest) : Stops inner (linkTokens links ++ rest) := by
  cases links with
  | nil => exact stops
  | cons link links =>
    have sign := isOperator_iff.mp (List.forall_mem_cons.mp operators).1.1
    rw [linkTokens_cons, List.cons_append, stops_cons_iff, Bool.eq_false_iff]
    intro operator
    exact apart _ sign.2 (isOperator_iff.mp operator).2

variable {p : Production Expr} {shape : Expr → Prop} {inner signs : List String}

/-- What the loop finds are links, and it stops where neither the operand nor the level goes on. -/
theorem links_sound (reads : p.Reads shape inner) {found links : List (Token × Expr)}
    {tokens rest : List Token} (start : Stops inner tokens)
    (h : p.links signs found tokens = .ok (links, rest)) :
    ∃ more, links = found.reverse ++ more ∧ LinksOf shape signs more ∧
      tokens = linkTokens more ++ rest ∧ Stops (inner ++ signs) rest := by
  fun_induction p.links signs found tokens with
  | case1 found =>
    cases h
    exact ⟨[], (List.append_nil _).symm, linksOf_nil shape signs, rfl, stops_nil _⟩
  | case2 found token after isOperator failure next => cases h
  | case3 found token after isOperator value left next ih =>
    obtain ⟨hasShape, rfl, stops⟩ := (reads _ _ _).mp next
    obtain ⟨more, rfl, operators, rfl, ending⟩ := ih stops h
    refine ⟨(token, value) :: more, ?_, List.forall_mem_cons.mpr ⟨⟨isOperator, hasShape⟩, operators⟩, ?_, ending⟩
    · rw [List.reverse_cons, List.append_assoc, List.singleton_append]
    · rw [linkTokens_cons, List.cons_append, List.append_assoc]
  | case4 found token after notOperator =>
    cases h
    have stops : Stops signs (token :: after) := stops_cons_iff.mpr (Bool.eq_false_iff.mpr notOperator)
    exact ⟨[], (List.append_nil _).symm, linksOf_nil shape signs, rfl, stops_append_iff.mpr ⟨start, stops⟩⟩

theorem links_complete (reads : p.Reads shape inner) (apart : ∀ s ∈ signs, s ∉ inner)
    {more : List (Token × Expr)} {rest : List Token} (operators : LinksOf shape signs more)
    (ending : Stops (inner ++ signs) rest) (found : List (Token × Expr)) :
    p.links signs found (linkTokens more ++ rest) = .ok (found.reverse ++ more, rest) := by
  obtain ⟨stopsInner, stops⟩ := stops_append_iff.mp ending
  induction more generalizing found with
  | nil =>
    rw [List.append_nil]
    cases rest with
    | nil => exact p.links_nil signs found
    | cons t rest => exact links_stop (stops_cons_iff.mp stops) found rest
  | cons link more ih =>
    obtain ⟨here, others⟩ := List.forall_mem_cons.mp operators
    have next : p.read (link.2.tokens ++ (linkTokens more ++ rest)) = .ok (link.2, linkTokens more ++ rest) :=
      (reads _ _ _).mpr ⟨here.2, rfl, stops_linkTokens apart others stopsInner⟩
    rw [linkTokens_cons, List.cons_append, List.append_assoc, links_ok here.1 next found, ih others,
      List.reverse_cons, List.append_assoc, List.singleton_append]

/-- **A chain is read exactly when its operands are and no operator of its level follows.** -/
theorem Reads.read_chain_eq_ok_iff (reads : p.Reads shape inner) (apart : ∀ s ∈ signs, s ∉ inner)
    {tokens rest : List Token} {chain : Chain} :
    (p.chain signs).read tokens = .ok (chain, rest) ↔
      chain.Of shape signs ∧ tokens = chain.first.tokens ++ linkTokens chain.links ++ rest ∧
        Stops (inner ++ signs) rest := by
  rw [Production.read_chain_eq_ok_iff]
  refine ⟨fun h => ?_, fun h => ?_⟩
  · obtain ⟨between, read, linked⟩ := h
    obtain ⟨hasShape, rfl, stops⟩ := (reads _ _ _).mp read
    obtain ⟨more, eq, operators, rfl, ending⟩ := links_sound reads stops linked
    obtain rfl : chain.links = more := eq
    exact ⟨⟨hasShape, operators⟩, (List.append_assoc _ _ _).symm, ending⟩
  · obtain ⟨⟨hasShape, operators⟩, rfl, ending⟩ := h
    have stops := stops_linkTokens apart operators (stops_append_iff.mp ending).1
    refine ⟨linkTokens chain.links ++ rest, ?_, links_complete reads apart operators ending []⟩
    exact (reads _ _ _).mpr ⟨hasShape, List.append_assoc _ _ _, stops⟩

/-- **The law of a level from that of its operands**: grouped chains are read as far as neither goes on. -/
theorem Reads.chain (reads : p.Reads shape inner) (apart : ∀ s ∈ signs, s ∉ inner) {group : Chain → Expr}
    (keeps : ∀ {c : Chain}, c.Of shape signs → (group c).tokens = c.first.tokens ++ linkTokens c.links) :
    ((p.chain signs).map group).Reads (fun e => ∃ c : Chain, c.Of shape signs ∧ group c = e)
      (inner ++ signs) := by
  intro tokens e rest
  rw [read_map_eq_ok_iff]
  refine ⟨fun h => ?_, fun h => ?_⟩
  · obtain ⟨c, read, rfl⟩ := h
    obtain ⟨isChain, eq, ending⟩ := (reads.read_chain_eq_ok_iff apart).mp read
    exact ⟨⟨c, isChain, rfl⟩, by rw [keeps isChain, eq], ending⟩
  · obtain ⟨⟨c, isChain, rfl⟩, eq, ending⟩ := h
    rw [keeps isChain] at eq
    exact ⟨c, (reads.read_chain_eq_ok_iff apart).mpr ⟨isChain, eq, ending⟩, rfl⟩

end Production

end Mini
