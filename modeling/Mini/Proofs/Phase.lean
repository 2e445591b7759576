import Mini.Proofs.Reading

/-!
# Where reading fails

A failure is named at the first token that makes the input hopeless (`error_blames_first_hopeless`): what was read
before it can be completed to a program, and nothing that goes on with it can. What was expected there depends
on the tokens before it alone.

The reason is that what can come next depends on little. `Phase` is that little: whether a statement may begin,
a name waits for its assignment sign, an operand is due, or an operand could be the last. A phase and a token
give the next phase or nothing (`Phase.next`), so the tokens of programs are recognized without trees. Reading
fails where the phases do (`Grammar.statements_explained`), and every phase can be completed (`Phase.completion`).
-/

namespace Mini

/-- What the tokens read so far leave open. -/
inductive Phase where
  /-- Nothing has been read. -/
  | start
  /-- A name begins a statement. -/
  | named (name : String)
  /-- An operand is due. -/
  | due
  /-- An operand was read, which may be the last of its statement. -/
  | complete
  deriving DecidableEq, Repr

namespace Phase

/-- The phase behind one more token, if the token can come next. -/
def next : Phase → Token → Option Phase
  | .start, t => if t.kind = .identifier then some (.named t.lexeme) else none
  | .named _, t => if t.kind = .assignment then some .due else none
  | .due, t => if (Grammar.operand? t).isSome then some .complete else none
  | .complete, t =>
    if t.isOperator operatorSigns then some .due
    else if t.kind = .identifier then some (.named t.lexeme) else none

/-- The phase behind more tokens. -/
def after (phase : Phase) (tokens : List Token) : Option Phase :=
  tokens.foldlM next phase

/-- Whether the tokens may end. -/
def accepting : Phase → Bool
  | .start => true
  | .named _ => false
  | .due => false
  | .complete => true

/-- What is missing where the tokens cannot go on, which for an operand depends on whether they end. -/
def fault (phase : Phase) (rest : List Token) : Fault :=
  match phase with
  | .start => .statementExpected
  | .named name => .assignmentExpected name
  | .due => if rest.isEmpty then .operandMissing else .operandExpected
  | .complete => .statementExpected

/-- Whether what comes next can neither go on nor be the end. -/
def Stuck (phase : Phase) : List Token → Prop
  | [] => phase.accepting = false
  | t :: _ => phase.next t = none

/-- Whether a failure lies where the phases end, and expects what is missing there. -/
def Explains (phase : Phase) (tokens : List Token) (failure : Failure) : Prop :=
  ∃ consumed reached, tokens = consumed ++ failure.rest ∧ phase.after consumed = some reached ∧
    reached.Stuck failure.rest ∧ failure.fault = reached.fault failure.rest

theorem after_cons (phase : Phase) (t : Token) (tokens : List Token) :
    phase.after (t :: tokens) = (phase.next t).bind fun reached => reached.after tokens := by
  simp [after]

theorem after_append (phase : Phase) (first second : List Token) :
    phase.after (first ++ second) = (phase.after first).bind fun reached => reached.after second := by
  simp [after]

theorem Explains.behind {phase reached : Phase} {before tokens : List Token} {failure : Failure}
    (read : phase.after before = some reached) (h : reached.Explains tokens failure) :
    phase.Explains (before ++ tokens) failure := by
  obtain ⟨consumed, last, rfl, run, stuck, fault⟩ := h
  refine ⟨before ++ consumed, last, (List.append_assoc _ _ _).symm, ?_, stuck, fault⟩
  rw [after_append, read]
  exact run

theorem Explains.here {phase : Phase} {tokens : List Token} (stuck : phase.Stuck tokens) :
    phase.Explains tokens ⟨phase.fault tokens, tokens⟩ :=
  ⟨[], phase, rfl, rfl, stuck, rfl⟩

/-- **An expression takes the phases from its first operand to its last.** -/
theorem after_expr {e : Expr} (h : e.isCanonical = true) : due.after e.tokens = some complete := by
  induction e with
  | number form lexeme position => cases form <;> rfl
  | name text position => rfl
  | binary left operator right position ihl ihr =>
    obtain ⟨canonicalLeft, canonicalRight, placed⟩ := isCanonical_binary_iff.mp h
    have sign : operator ∈ operatorSigns := by
      rw [operatorSigns, List.mem_append, List.mem_append]
      rcases mem_of_joins placed with sum | product | power
      · exact .inr sum
      · exact .inl (.inr product)
      · exact .inl (.inl power)
    have step : complete.next ⟨.operator, operator, position⟩ = some due :=
      if_pos (isOperator_iff.mpr ⟨rfl, sign⟩)
    rw [Expr.tokens, after_append, ihl canonicalLeft, Option.bind_some, after_cons, step, Option.bind_some,
      ihr canonicalRight]

end Phase

/-! ## Failures of expressions -/

/-- Whether every failure of a production that reads expressions is explained by an operand that is due. -/
def Production.FailsDue (p : Production Expr) : Prop :=
  ∀ tokens failure, p.read tokens = .error failure → Phase.due.Explains tokens failure

namespace Production

variable {p : Production Expr} {shape : Expr → Prop} {inner signs : List String}

/-- The loop over links fails only where an operand behind an operator does. -/
theorem links_explained (reads : p.Reads shape inner) (fails : p.FailsDue)
    (canonical : ∀ e, shape e → e.isCanonical = true) (known : ∀ s ∈ signs, s ∈ operatorSigns)
    {found : List (Token × Expr)} {tokens : List Token} {failure : Failure}
    (h : p.links signs found tokens = .error failure) : Phase.complete.Explains tokens failure := by
  have step : ∀ t : Token, t.isOperator signs = true → Phase.complete.after [t] = some .due := by
    intro t isOperator
    obtain ⟨kind, sign⟩ := isOperator_iff.mp isOperator
    rw [Phase.after_cons, Phase.next, if_pos (isOperator_iff.mpr ⟨kind, known _ sign⟩)]
    rfl
  fun_induction p.links signs found tokens with
  | case1 found => cases h
  | case2 found token after isOperator other next =>
    cases h
    exact .behind (step token isOperator) (fails _ _ next)
  | case3 found token after isOperator value left next ih =>
    obtain ⟨hasShape, rfl, _⟩ := (reads _ _ _).mp next
    exact .behind (step token isOperator) (.behind (Phase.after_expr (canonical value hasShape)) (ih h))
  | case4 found token after notOperator => cases h

/-- **A level fails only where an operand is due**, if its operands do. -/
theorem FailsDue.chain (reads : p.Reads shape inner) (fails : p.FailsDue)
    (canonical : ∀ e, shape e → e.isCanonical = true) (known : ∀ s ∈ signs, s ∈ operatorSigns)
    (group : Chain → Expr) : ((p.chain signs).map group).FailsDue := by
  intro tokens failure h
  rcases read_chain_eq_error_iff.mp (read_map_eq_error_iff.mp h) with failed | ⟨first, between, read, failed⟩
  · exact fails tokens failure failed
  · obtain ⟨hasShape, rfl, _⟩ := (reads _ _ _).mp read
    exact .behind (Phase.after_expr (canonical first hasShape)) (links_explained reads fails canonical known failed)

end Production

namespace Grammar

theorem operand_failsDue : operand.FailsDue := by
  intro tokens failure h
  cases tokens with
  | nil =>
    cases h
    exact .here rfl
  | cons t more =>
    cases found : operand? t with
    | some e =>
      rw [read_operand_some found] at h
      cases h
    | none =>
      rw [read_operand_none found] at h
      cases h
      have stuck : Phase.due.Stuck (t :: more) := by
        show (if (operand? t).isSome then _ else _) = none
        rw [found]
        rfl
      exact .here stuck

theorem power_failsDue : power.FailsDue :=
  .chain operand_reads operand_failsDue (fun _ leaf => leaf.isPower.1) (by decide) Chain.groupRight

theorem term_failsDue : term.FailsDue :=
  .chain power_reads power_failsDue (fun _ isPower => isPower.1) (by decide) Chain.groupLeft

theorem expression_failsDue : expression.FailsDue :=
  .chain term_reads term_failsDue (fun _ isTerm => isTerm.1) (by decide) Chain.groupLeft

end Grammar

/-! ## Failures of statements -/

/-- Whether a statement may begin: at the start, or behind an expression that does not go on. -/
def Phase.Ready (phase : Phase) (tokens : List Token) : Prop :=
  phase = .start ∨ phase = .complete ∧ Stops operatorSigns tokens

theorem Phase.next_of_ready {phase : Phase} {t : Token} {more : List Token} (ready : phase.Ready (t :: more)) :
    phase.next t = if t.kind = .identifier then some (.named t.lexeme) else none := by
  rcases ready with rfl | ⟨rfl, stops⟩
  · rfl
  · exact if_neg (Bool.eq_false_iff.mp (stops_cons_iff.mp stops))

/-- A name opens only where a statement may begin. -/
theorem Phase.of_next_eq_named {phase : Phase} {t : Token} {name : String}
    (h : phase.next t = some (.named name)) :
    phase.accepting = true ∧ t.kind = .identifier ∧ t.lexeme = name := by
  cases phase with
  | start =>
    by_cases isName : t.kind = .identifier
    · rw [Phase.next, if_pos isName] at h
      cases h
      exact ⟨rfl, isName, rfl⟩
    · rw [Phase.next, if_neg isName] at h
      cases h
  | named other =>
    simp [Phase.next] at h
  | due => simp [Phase.next] at h
  | complete =>
    by_cases isOperator : t.isOperator operatorSigns = true
    · rw [Phase.next, if_pos isOperator] at h
      cases h
    · by_cases isName : t.kind = .identifier
      · rw [Phase.next, if_neg isOperator, if_pos isName] at h
        cases h
        exact ⟨rfl, isName, rfl⟩
      · rw [Phase.next, if_neg isOperator, if_neg isName] at h
        cases h

theorem Phase.fault_of_ready {phase : Phase} {tokens : List Token} (ready : phase.Ready tokens)
    (rest : List Token) : phase.fault rest = .statementExpected := by
  rcases ready with rfl | ⟨rfl, _⟩ <;> rfl

namespace Grammar

variable {phase : Phase} {tokens : List Token}

/-- The tokens of a statement take the phases from where it may begin to its last operand. -/
theorem after_statement {a : Assignment} {rest : List Token} (ready : phase.Ready tokens)
    (read : statement.read tokens = .ok (a, rest)) :
    ∃ consumed, tokens = consumed ++ rest ∧ phase.after consumed = some .complete ∧
      Phase.complete.Ready rest := by
  obtain ⟨canonical, stops, sign, isSign, rfl⟩ := read_statement_eq_ok_iff.mp read
  refine ⟨⟨.identifier, a.name, a.position⟩ :: sign :: a.value.tokens, rfl, ?_, .inr ⟨rfl, stops⟩⟩
  have step : (Phase.named a.name).next sign = some .due := if_pos isSign
  rw [Phase.after_cons, Phase.next_of_ready ready, if_pos rfl, Option.bind_some, Phase.after_cons, step,
    Option.bind_some, Phase.after_expr canonical]

/-- A statement that fails does so at its name, at its assignment sign or in its expression. -/
theorem statement_explained {failure : Failure} (ready : phase.Ready tokens) (nonempty : tokens ≠ [])
    (h : statement.read tokens = .error failure) : phase.Explains tokens failure := by
  rcases Production.read_andThen_eq_error_iff.mp h with noName | ⟨name, afterName, read, behindName⟩
  · obtain ⟨rfl, other⟩ := Production.read_expect_eq_error_iff.mp noName
    obtain ⟨t, more, rfl⟩ := List.exists_cons_of_ne_nil nonempty
    have stuck : phase.Stuck (t :: more) := by
      show phase.next t = none
      rw [Phase.next_of_ready ready, if_neg (other t rfl)]
    rw [← Phase.fault_of_ready ready (t :: more)]
    exact .here stuck
  · obtain ⟨isName, rfl⟩ := Production.read_expect_eq_ok_iff.mp read
    have atName : phase.after [name] = some (.named name.lexeme) := by
      rw [Phase.after_cons, Phase.next_of_ready ready, if_pos isName]
      rfl
    refine .behind atName ?_
    rcases Production.read_andThen_eq_error_iff.mp behindName with noSign | ⟨sign, afterSign, read, behindSign⟩
    · obtain ⟨rfl, other⟩ := Production.read_expect_eq_error_iff.mp noSign
      have stuck : (Phase.named name.lexeme).Stuck afterName := by
        cases afterName with
        | nil => rfl
        | cons t more => exact if_neg (other t rfl)
      exact .here stuck
    · obtain ⟨isSign, rfl⟩ := Production.read_expect_eq_ok_iff.mp read
      have atSign : (Phase.named name.lexeme).after [sign] = some .due := by
        rw [Phase.after_cons, Phase.next, if_pos isSign]
        rfl
      exact .behind atSign (expression_failsDue _ _ (Production.read_map_eq_error_iff.mp behindSign))

/-- **Reading fails where the phases end.** -/
theorem statementsFrom_explained {found : List Assignment} {failure : Failure} (ready : phase.Ready tokens)
    (h : statementsFrom found tokens = .error failure) : phase.Explains tokens failure := by
  fun_induction statementsFrom found tokens generalizing phase with
  | case1 found => cases h
  | case2 found t more other read =>
    cases h
    exact statement_explained ready (List.cons_ne_nil t more) read
  | case3 found t more next rest read ih =>
    obtain ⟨consumed, eq, run, readyNext⟩ := after_statement ready read
    rw [eq]
    exact .behind run (ih readyNext h)

/-- **What is read leaves the phases where the tokens may end.** -/
theorem after_statements {found all : List Assignment} (ready : phase.Ready tokens)
    (h : statementsFrom found tokens = .ok all) :
    ∃ reached, phase.after tokens = some reached ∧ reached.accepting = true := by
  fun_induction statementsFrom found tokens generalizing phase with
  | case1 found =>
    refine ⟨phase, rfl, ?_⟩
    rcases ready with rfl | ⟨rfl, _⟩ <;> rfl
  | case2 found t more failure read => cases h
  | case3 found t more next rest read ih =>
    obtain ⟨consumed, eq, run, readyNext⟩ := after_statement ready read
    rw [eq, Phase.after_append, run]
    exact ih readyNext h

end Grammar

/-! ## Accepted tokens -/

/-- Whether the tokens are a program. -/
def Accepted (tokens : List Token) : Prop :=
  ∃ program, Program.ofTokens tokens = .ok program

/-- Whether the tokens are a program and the name that begins one more statement. -/
def EndsInName (tokens : List Token) (name : String) : Prop :=
  ∃ before t, tokens = before ++ [t] ∧ Accepted before ∧ t.kind = .identifier ∧ t.lexeme = name

theorem accepted_iff_statements {tokens : List Token} :
    Accepted tokens ↔ ∃ statements, Grammar.statements tokens = .ok statements := by
  refine ⟨fun h => ?_, fun h => ?_⟩
  · obtain ⟨program, h⟩ := h
    exact ⟨_, (ofTokens_eq_ok_iff.mp h).1⟩
  · obtain ⟨statements, h⟩ := h
    exact ⟨⟨statements, Cursor.programPosition tokens⟩, ofTokens_eq_ok_iff.mpr ⟨h, rfl⟩⟩

/-- **The phases recognize the tokens of programs.** -/
theorem accepted_iff {tokens : List Token} :
    Accepted tokens ↔ ∃ reached, Phase.start.after tokens = some reached ∧ reached.accepting = true := by
  rw [accepted_iff_statements]
  refine ⟨fun h => ?_, fun h => ?_⟩
  · obtain ⟨statements, h⟩ := h
    exact Grammar.after_statements (.inl rfl) h
  · obtain ⟨reached, run, ends⟩ := h
    cases read : Grammar.statements tokens with
    | ok statements => exact ⟨statements, rfl⟩
    | error failure =>
      exfalso
      obtain ⟨consumed, last, eq, here, stuck, _⟩ := Grammar.statementsFrom_explained (.inl rfl) read
      rw [eq, Phase.after_append, here, Option.bind_some] at run
      cases rest : failure.rest with
      | nil =>
        rw [rest] at run stuck
        cases run
        exact Bool.false_ne_true (stuck.symm.trans ends)
      | cons t more =>
        rw [rest] at run stuck
        rw [Phase.after_cons, show last.next t = none from stuck] at run
        cases run

/-- A name is open exactly behind the tokens of a program and a name. -/
theorem endsInName_iff {tokens : List Token} {name : String} :
    EndsInName tokens name ↔ Phase.start.after tokens = some (.named name) := by
  refine ⟨fun h => ?_, fun run => ?_⟩
  · obtain ⟨before, t, rfl, accepted, isName, rfl⟩ := h
    obtain ⟨reached, run, ends⟩ := accepted_iff.mp accepted
    have ready : reached.Ready [t] := by
      cases reached with
      | start => exact .inl rfl
      | complete =>
        refine .inr ⟨rfl, stops_of_kind_ne (fun operator => ?_) operatorSigns []⟩
        rw [isName] at operator
        cases operator
      | named _ => cases ends
      | due => cases ends
    rw [Phase.after_append, run, Option.bind_some, Phase.after_cons, Phase.next_of_ready ready, if_pos isName]
    rfl
  · rcases List.eq_nil_or_concat tokens with rfl | ⟨before, t, rfl⟩
    · cases run
    · rw [List.concat_eq_append] at run ⊢
      rw [Phase.after_append] at run
      obtain ⟨reached, here, last⟩ := Option.bind_eq_some_iff.mp run
      rw [Phase.after_cons] at last
      obtain ⟨_, step, eq⟩ := Option.bind_eq_some_iff.mp last
      cases eq
      obtain ⟨ends, isName, same⟩ := Phase.of_next_eq_named step
      exact ⟨before, t, rfl, accepted_iff.mpr ⟨reached, here, ends⟩, isName, same⟩

end Mini
