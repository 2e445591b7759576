import Mini.Proofs.Reading

/-!
# Readings one after another

A cursor can be asked for a program, a statement or an expression again and again, also after a reading that failed.
`readings_between_places` says what comes of the next reading, whatever was asked for before: an expression is read,
and the cursor moves from one place to another, exactly when its tokens stand between the two and no operator goes
on with it. There is only one such place. Where there is none the reading fails somewhere from the cursor on, and
names the token there by its position, unless this has too many digits to be written
(`expression_error_without_position`).

The readings before matter only for where they leave the cursor. One reading moves it on over the same tokens
(`Cursor.movesTo_after`), so any number do (`Cursor.movesTo_afterAll`). The rest is the grammar, with places for the
endings that productions leave (`Cursor.read_eq_ok_iff`).
-/

namespace Mini

/-! ## Places in a list of tokens -/

/-- An operator that goes on with an expression. -/
def Token.GoesOn (t : Token) : Prop :=
  t.kind = .operator ∧ t.lexeme ∈ ["+", "-", "*", "/", "^"]

instance : DecidablePred Token.GoesOn := fun _ => inferInstanceAs (Decidable (_ ∧ _))

/-- Whether an expression may stop at a place: the tokens end there, or what comes next does not go on with it. -/
def MayStopAt (tokens : List Token) (place : Nat) : Prop :=
  place = tokens.length ∨ ∃ t, tokens[place]? = some t ∧ ¬ t.GoesOn

/-- Whether the tokens between two places are those of an expression that may stop there. -/
structure ExpressionAt (tokens : List Token) (first last : Nat) (e : Expr) : Prop where
  canonical : e.isCanonical = true
  between : tokens.extract first last = e.tokens
  stops : MayStopAt tokens last

/-- Whether the tokens between two places are a name, an assignment sign and an expression that may stop there. -/
structure StatementAt (tokens : List Token) (first last : Nat) (a : Assignment) : Prop where
  canonical : a.value.isCanonical = true
  between : ∃ sign : Token, sign.kind = .assignment ∧
    tokens.extract first last = ⟨.identifier, a.name, a.position⟩ :: sign :: a.value.tokens
  stops : MayStopAt tokens last

/-- Whether an error is for want of any token, or else names the position of a token. Where the position cannot be
written, the error is this. -/
def ParseError.Blames (error : ParseError) : Option Token → Prop
  | none => error = .noTokens
  | some t => (∃ fault writable, error = .unexpected fault t.position writable) ∨
      ¬ t.position.IsWritable ∧ error = .unwritable .tooManyDigits

/-- Whether a reading has failed at some place from another on, and blames the token there, or at the end of the
tokens the last of them. -/
def FailsFrom {α : Type} (tokens : List Token) (first : Nat) (outcome : Except ParseError α × Cursor) : Prop :=
  ∃ error last, outcome = (.error error, ⟨tokens, last⟩) ∧ first ≤ last ∧ last ≤ tokens.length ∧
    error.Blames (tokens[last]?.or tokens.getLast?)

theorem isOperator_operatorSigns_eq_false_iff {t : Token} : t.isOperator operatorSigns = false ↔ ¬ t.GoesOn := by
  have signs : operatorSigns.Perm ["+", "-", "*", "/", "^"] := by decide
  rw [Bool.eq_false_iff, Ne, isOperator_iff, signs.mem_iff]
  exact Iff.rfl

theorem mayStopAt_iff {tokens : List Token} {place : Nat} :
    MayStopAt tokens place ↔ place ≤ tokens.length ∧ Stops operatorSigns (tokens.drop place) := by
  unfold MayStopAt
  rcases Nat.lt_trichotomy place tokens.length with before | rfl | behind
  · have next : tokens[place]? = some tokens[place] := List.getElem?_eq_getElem before
    rw [List.drop_eq_getElem_cons before, stops_cons_iff, isOperator_operatorSigns_eq_false_iff, next]
    simp [Nat.ne_of_lt before, Nat.le_of_lt before]
  · simp [stops_nil]
  · simp [Nat.ne_of_gt behind, Nat.not_le_of_gt behind, List.getElem?_eq_none (Nat.le_of_lt behind)]

/-- What stands between two places, said of what is left at each. -/
theorem extract_eq_iff {tokens between : List Token} {first last : Nat} (nonempty : between ≠ []) :
    tokens.extract first last = between ↔ tokens.drop first = between ++ tokens.drop last := by
  have split : first ≤ last → tokens.drop first = tokens.extract first last ++ tokens.drop last := by
    intro forward
    rw [List.extract_eq_take_drop, ← Nat.add_sub_cancel' forward, Nat.add_sub_cancel_left, ← List.drop_drop,
      List.take_append_drop]
  refine ⟨fun h => ?_, fun h => ?_⟩
  · have forward : first ≤ last := by
      refine Nat.le_of_not_lt fun backward => nonempty ?_
      rw [← h, List.extract_eq_take_drop, Nat.sub_eq_zero_of_le (Nat.le_of_lt backward), List.take_zero]
    exact h ▸ split forward
  · have forward : first ≤ last := by
      have lengths := congrArg List.length h
      rw [List.length_append, List.length_drop, List.length_drop] at lengths
      have := List.length_pos_iff.mpr nonempty
      omega
    exact List.append_cancel_right ((split forward).symm.trans h)

/-! ## What a cursor can be asked for -/

namespace Cursor

/-- What a cursor can be asked for. -/
inductive Call where
  | program
  | statement
  | expression
  deriving DecidableEq, Repr

/-- The cursor behind a reading, whether it succeeds or fails. -/
def after (cursor : Cursor) : Call → Cursor
  | .program => cursor.program.2
  | .statement => cursor.statement.2
  | .expression => cursor.expression.2

/-- The cursor behind several readings. -/
def afterAll (cursor : Cursor) (calls : List Call) : Cursor :=
  calls.foldl after cursor

/-- Whether a cursor has moved on over the same tokens, at most to their end. -/
structure MovesTo (cursor next : Cursor) : Prop where
  tokens : next.tokens = cursor.tokens
  forward : cursor.consumed ≤ next.consumed
  inside : next.consumed ≤ cursor.tokens.length

variable {cursor : Cursor}

theorem MovesTo.trans {between next : Cursor} (h : cursor.MovesTo between) (more : between.MovesTo next) :
    cursor.MovesTo next :=
  ⟨more.tokens.trans h.tokens, Nat.le_trans h.forward more.forward, h.tokens ▸ more.inside⟩

theorem movesTo_leaving (inside : cursor.consumed ≤ cursor.tokens.length) {rest : List Token}
    (h : rest <:+ cursor.rest) : cursor.MovesTo (cursor.leaving rest) := by
  refine ⟨rfl, ?_, consumed_leaving_le cursor rest⟩
  have shorter : rest.length ≤ cursor.tokens.length - cursor.consumed := List.length_drop ▸ h.length_le
  show cursor.consumed ≤ cursor.tokens.length - rest.length
  omega

theorem movesTo_read (inside : cursor.consumed ≤ cursor.tokens.length) {α : Type} (p : Production α) :
    cursor.MovesTo (cursor.read p).2 := by
  cases read : p.read cursor.rest with
  | error failure =>
    rw [read_error read]
    exact movesTo_leaving inside (p.leaves read)
  | ok result =>
    rw [read_ok read]
    exact movesTo_leaving inside (p.suffix read)

theorem movesTo_program (inside : cursor.consumed ≤ cursor.tokens.length) :
    cursor.MovesTo cursor.program.2 := by
  cases read : Grammar.statements cursor.rest with
  | error failure =>
    rw [program_error read]
    exact movesTo_leaving inside (Grammar.statementsFrom_leaves read)
  | ok statements =>
    rw [program_ok read]
    exact movesTo_leaving inside List.nil_suffix

/-- **Every reading moves the cursor on**, at most to the end of the tokens, and so does one that fails. -/
theorem movesTo_after (inside : cursor.consumed ≤ cursor.tokens.length) (call : Call) :
    cursor.MovesTo (cursor.after call) := by
  cases call with
  | program => exact movesTo_program inside
  | statement => exact movesTo_read inside Grammar.statement
  | expression => exact movesTo_read inside Grammar.expression

/-- **So do readings one after another.** -/
theorem movesTo_afterAll (inside : cursor.consumed ≤ cursor.tokens.length) (calls : List Call) :
    cursor.MovesTo (cursor.afterAll calls) := by
  induction calls generalizing cursor with
  | nil => exact ⟨rfl, Nat.le_refl _, inside⟩
  | cons call calls ih =>
    have step := movesTo_after inside call
    exact step.trans (ih (step.tokens ▸ step.inside))

/-! ## What comes of a reading -/

/-- A reading succeeds and stops at a place exactly when its production leaves the tokens from there on. -/
theorem read_eq_ok_iff {α : Type} {p : Production α} {value : α} {last : Nat} :
    cursor.read p = (.ok value, ⟨cursor.tokens, last⟩) ↔
      last ≤ cursor.tokens.length ∧ p.read cursor.rest = .ok (value, cursor.tokens.drop last) := by
  refine ⟨fun h => ?_, fun h => ?_⟩
  · cases read : p.read cursor.rest with
    | error failure =>
      rw [read_error read] at h
      cases h
    | ok result =>
      obtain ⟨found, rest⟩ := result
      rw [read_ok read] at h
      obtain ⟨same, place⟩ := Prod.mk.inj h
      cases same
      have left : cursor.tokens.drop last = rest := by
        rw [← rest_leaving (p.suffix read), place]
        rfl
      obtain rfl : (cursor.leaving rest).consumed = last := congrArg consumed place
      exact ⟨consumed_leaving_le cursor rest, by rw [left]⟩
  · obtain ⟨inside, read⟩ := h
    have place : (cursor.leaving (cursor.tokens.drop last)).consumed = last := by
      show cursor.tokens.length - (cursor.tokens.drop last).length = last
      rw [List.length_drop]
      omega
    rw [read_ok read]
    exact congrArg (fun n => (Except.ok value, Cursor.mk cursor.tokens n)) place

/-- The token at the point of failure is to blame, or else the last one, and where there is none the error is for want
of any. -/
theorem blames_blame (failure : Failure) :
    (cursor.blame failure).Blames (failure.rest.head?.or cursor.tokens.getLast?) := by
  cases blamed : failure.rest.head?.or cursor.tokens.getLast? with
  | none =>
    rw [blame, blamed]
    rfl
  | some token =>
    rw [blame_eq blamed]
    by_cases writable : token.position.IsWritable
    · exact .inl ⟨failure.fault, writable, ParseError.blaming_of_isWritable writable _⟩
    · exact .inr ⟨writable, ParseError.blaming_of_not_isWritable writable _⟩

/-- What does not succeed at any place fails at some. -/
theorem failsFrom_read (inside : cursor.consumed ≤ cursor.tokens.length) {α : Type} {p : Production α}
    (never : ¬ ∃ value last, cursor.read p = (.ok value, ⟨cursor.tokens, last⟩)) :
    FailsFrom cursor.tokens cursor.consumed (cursor.read p) := by
  have moves := movesTo_read inside p
  cases read : p.read cursor.rest with
  | ok result => exact absurd ⟨result.1, _, read_ok read⟩ never
  | error failure =>
    rw [read_error read] at moves ⊢
    have next : cursor.tokens[(cursor.leaving failure.rest).consumed]? = failure.rest.head? := by
      rw [← List.head?_drop]
      exact congrArg List.head? (rest_leaving (p.leaves read))
    exact ⟨_, _, rfl, moves.forward, moves.inside, next ▸ blames_blame failure⟩

theorem expression_eq_ok_iff {e : Expr} {last : Nat} :
    cursor.expression = (.ok e, ⟨cursor.tokens, last⟩) ↔ ExpressionAt cursor.tokens cursor.consumed last e := by
  unfold expression
  rw [read_eq_ok_iff, Grammar.expression_reads]
  refine ⟨fun h => ?_, fun h => ?_⟩
  · obtain ⟨inside, canonical, eq, stops⟩ := h
    exact ⟨canonical, (extract_eq_iff e.tokens_ne_nil).mpr eq, mayStopAt_iff.mpr ⟨inside, stops⟩⟩
  · obtain ⟨inside, stops⟩ := mayStopAt_iff.mp h.stops
    exact ⟨inside, h.canonical, (extract_eq_iff e.tokens_ne_nil).mp h.between, stops⟩

theorem statement_eq_ok_iff {a : Assignment} {last : Nat} :
    cursor.statement = (.ok a, ⟨cursor.tokens, last⟩) ↔ StatementAt cursor.tokens cursor.consumed last a := by
  unfold statement
  rw [read_eq_ok_iff, Grammar.read_statement_eq_ok_iff]
  refine ⟨fun h => ?_, fun h => ?_⟩
  · obtain ⟨inside, canonical, stops, sign, isSign, eq⟩ := h
    exact ⟨canonical, ⟨sign, isSign, (extract_eq_iff (List.cons_ne_nil _ _)).mpr eq⟩, mayStopAt_iff.mpr ⟨inside, stops⟩⟩
  · obtain ⟨inside, stops⟩ := mayStopAt_iff.mp h.stops
    obtain ⟨sign, isSign, between⟩ := h.between
    exact ⟨inside, h.canonical, stops, sign, isSign, (extract_eq_iff (List.cons_ne_nil _ _)).mp between⟩

end Cursor

section Unique

variable {tokens : List Token} {first last other : Nat}

theorem ExpressionAt.unique {e e' : Expr} (h : ExpressionAt tokens first last e)
    (ho : ExpressionAt tokens first other e') : last = other ∧ e = e' := by
  have here : (Cursor.mk tokens first).expression = _ := Cursor.expression_eq_ok_iff.mpr h
  have there : (Cursor.mk tokens first).expression = _ := Cursor.expression_eq_ok_iff.mpr ho
  cases here.symm.trans there
  exact ⟨rfl, rfl⟩

theorem StatementAt.unique {a a' : Assignment} (h : StatementAt tokens first last a)
    (ho : StatementAt tokens first other a') : last = other ∧ a = a' := by
  have here : (Cursor.mk tokens first).statement = _ := Cursor.statement_eq_ok_iff.mpr h
  have there : (Cursor.mk tokens first).statement = _ := Cursor.statement_eq_ok_iff.mpr ho
  cases here.symm.trans there
  exact ⟨rfl, rfl⟩

end Unique

/-- **Readings are exact, whatever was asked for before.** From the place that any readings have left the cursor at, an
expression is read exactly when its tokens stand there and no operator goes on with it, and a statement exactly
when a name, an assignment sign and such an expression do; the cursor is then behind these tokens, and no other
place will do. In every other case the reading fails, at some place that is not before the cursor, and its error
names the position of the token at this place, or of the last one if there is none; where that cannot be written, the
error is this. No reading moves the cursor back or off the tokens. -/
theorem readings_between_places (tokens : List Token) (calls : List Cursor.Call) :
    let cursor := (Cursor.start tokens).afterAll calls
    let first := cursor.consumed
    (∀ e last, cursor.expression = (.ok e, ⟨tokens, last⟩) ↔ ExpressionAt tokens first last e) ∧
    (∀ a last, cursor.statement = (.ok a, ⟨tokens, last⟩) ↔ StatementAt tokens first last a) ∧
    (∀ e e' last last', ExpressionAt tokens first last e → ExpressionAt tokens first last' e' →
      last = last' ∧ e = e') ∧
    (∀ a a' last last', StatementAt tokens first last a → StatementAt tokens first last' a' →
      last = last' ∧ a = a') ∧
    ((¬ ∃ e last, ExpressionAt tokens first last e) → FailsFrom tokens first cursor.expression) ∧
    ((¬ ∃ a last, StatementAt tokens first last a) → FailsFrom tokens first cursor.statement) ∧
    (∀ call, (cursor.after call).tokens = tokens ∧ first ≤ (cursor.after call).consumed ∧
      (cursor.after call).consumed ≤ tokens.length) := by
  have start : (Cursor.start tokens).consumed ≤ (Cursor.start tokens).tokens.length := Nat.zero_le _
  have reached := Cursor.movesTo_afterAll start calls
  intro cursor first
  have same : cursor.tokens = tokens := reached.tokens
  have inside : cursor.consumed ≤ cursor.tokens.length := same ▸ reached.inside
  clear_value cursor
  subst same
  have expression (e : Expr) (last : Nat) :
      cursor.expression = (.ok e, ⟨cursor.tokens, last⟩) ↔ ExpressionAt cursor.tokens first last e :=
    Cursor.expression_eq_ok_iff
  have statement (a : Assignment) (last : Nat) :
      cursor.statement = (.ok a, ⟨cursor.tokens, last⟩) ↔ StatementAt cursor.tokens first last a :=
    Cursor.statement_eq_ok_iff
  refine ⟨expression, statement, ?_, ?_, ?_, ?_, ?_⟩
  · exact fun _ _ _ _ here there => here.unique there
  · exact fun _ _ _ _ here there => here.unique there
  · intro never
    apply Cursor.failsFrom_read inside
    intro found
    obtain ⟨e, last, read⟩ := found
    exact never ⟨e, last, (expression e last).mp read⟩
  · intro never
    apply Cursor.failsFrom_read inside
    intro found
    obtain ⟨a, last, read⟩ := found
    exact never ⟨a, last, (statement a last).mp read⟩
  · intro call
    have moves := Cursor.movesTo_after inside call
    exact ⟨moves.tokens, moves.forward, moves.inside⟩

/-- A statement has failed at the second token. From there an expression is read, up to a sign that the language
does not have, but no statement. -/
theorem readings_behind_failed_statement :
    let tokens : List Token := [⟨.identifier, "x", ⟨1, 1⟩⟩, ⟨.identifier, "y", ⟨1, 3⟩⟩, ⟨.operator, "^", ⟨1, 5⟩⟩,
      ⟨.integer, "2", ⟨1, 7⟩⟩, ⟨.operator, "%", ⟨1, 9⟩⟩]
    let cursor := (Cursor.start tokens).afterAll [.statement]
    let square : Expr := .binary (.name "y" ⟨1, 3⟩) "^" (.number .integer "2" ⟨1, 7⟩) ⟨1, 5⟩
    cursor.consumed = 1 ∧ cursor.expression = (.ok square, ⟨tokens, 4⟩) ∧ FailsFrom tokens 1 cursor.statement := by
  intro tokens cursor square
  have place : cursor.consumed = 1 := by decide +kernel
  obtain ⟨expression, _, _, _, _, fails, _⟩ := readings_between_places tokens [.statement]
  refine ⟨place, (expression square 4).mpr ?_, place ▸ fails ?_⟩
  · have stops : MayStopAt tokens 4 := .inr ⟨⟨.operator, "%", ⟨1, 9⟩⟩, rfl, by decide⟩
    exact place ▸ ⟨rfl, rfl, stops⟩
  · intro found
    obtain ⟨a, last, statement⟩ := found
    obtain ⟨sign, isSign, between⟩ := (place ▸ statement : StatementAt tokens 1 last a).between
    obtain ⟨_, behind⟩ := List.cons.inj ((extract_eq_iff (List.cons_ne_nil _ _)).mp between)
    obtain ⟨rfl, _⟩ := List.cons.inj behind
    cases isSign

/-- An operator begins no expression, but on a line whose number has too many digits it is not named. -/
theorem expression_error_without_position :
    let line : Nat := Nat.pow 10 mostDigits
    let tokens : List Token := [⟨.operator, "+", ⟨line, 1⟩⟩]
    (Cursor.start tokens).expression = (.error (.unwritable .tooManyDigits), Cursor.start tokens) ∧
      ¬ ∀ e, (Cursor.start tokens).expression.1 = .error e →
        e.position? = (tokens[(Cursor.start tokens).expression.2.consumed]?.or tokens.getLast?).map Token.position := by
  intro line tokens
  have long : ¬ IsWritable line := not_isWritable_pow
  clear_value line
  have fails : (Cursor.start tokens).expression = (.error (.unwritable .tooManyDigits), Cursor.start tokens) := by
    have read : Grammar.expression.read (Cursor.start tokens).rest = .error ⟨.operandExpected, tokens⟩ := rfl
    have unnamed : (Cursor.start tokens).blame ⟨.operandExpected, tokens⟩ = .unwritable .tooManyDigits := by
      rw [Cursor.blame_eq rfl]
      exact ParseError.blaming_of_not_isWritable (fun h => long h.1) _
    rw [Cursor.expression, Cursor.read_error read, unnamed]
    rfl
  refine ⟨fails, fun claimed => ?_⟩
  rw [fails] at claimed
  cases claimed _ rfl

end Mini
