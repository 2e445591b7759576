import Mini.Proofs.Appended

/-!
# Readings from a place on

`readings_afresh`: a cursor remembers nothing but its place. Whatever it was asked for before, and whether these readings
succeeded or failed, from a place inside the tokens it goes on as a cursor does that starts on the tokens from there on,
with the same values, the same errors, and places that are further on by as much. Only programs tell the two apart, since
the position of a program is that of the first token of all.

One of the two cursors has left tokens behind that the other never had (`Cursor.Trails`). Every reading comes to the same
for both and keeps them so (`Cursor.Trails.read`, `Cursor.Trails.program`), and then any number of readings do
(`Cursor.Trails.afterAll`). An error looks at the last token of all, which is why the place has to be inside: at the end
of its tokens a cursor blames the last of them, where one without tokens has none to blame.
-/

namespace Mini

namespace Cursor

variable {cursor alone : Cursor} {passed : List Token}

/-- Whether a cursor stands as another one does, but for tokens it has passed that the other never had. -/
structure Trails (passed : List Token) (cursor alone : Cursor) : Prop where
  tokens : cursor.tokens = passed ++ alone.tokens
  consumed : cursor.consumed = passed.length + alone.consumed
  nonempty : alone.tokens ≠ []

/-- A cursor that is inside its tokens stands as one does at the start of those from there on. -/
theorem trails_start (inside : cursor.consumed < cursor.tokens.length) :
    Trails (cursor.tokens.take cursor.consumed) cursor (start (cursor.tokens.drop cursor.consumed)) where
  tokens := (List.take_append_drop _ _).symm
  consumed := (List.length_take_of_le (Nat.le_of_lt inside)).symm
  nonempty := List.ne_nil_of_length_pos (List.length_drop ▸ Nat.sub_pos_of_lt inside)

/-- What is left is the same. -/
theorem Trails.rest_eq (h : Trails passed cursor alone) : cursor.rest = alone.rest := by
  rw [rest, rest, h.tokens, h.consumed, List.drop_length_add_append]

/-- The same token is to blame. -/
theorem Trails.blame_eq (h : Trails passed cursor alone) (failure : Failure) :
    cursor.blame failure = alone.blame failure := by
  have blamed : (start (passed ++ alone.tokens)).blame failure = (start alone.tokens).blame failure :=
    blame_start_append h.nonempty failure
  rwa [← h.tokens] at blamed

/-- Both cursors move on alike. -/
theorem Trails.leaving (h : Trails passed cursor alone) {rest : List Token} (ending : rest <:+ alone.rest) :
    Trails passed (cursor.leaving rest) (alone.leaving rest) where
  tokens := h.tokens
  consumed := by
    have moved : ((start (passed ++ alone.tokens)).leaving rest).consumed =
        passed.length + ((start alone.tokens).leaving rest).consumed :=
      consumed_leaving_start_append (ending.trans (List.drop_suffix _ _))
    rwa [← h.tokens] at moved
  nonempty := h.nonempty

/-- **A production reads the same from both cursors.** -/
theorem Trails.read (h : Trails passed cursor alone) {α : Type} (p : Production α) :
    (cursor.read p).1 = (alone.read p).1 ∧ Trails passed (cursor.read p).2 (alone.read p).2 := by
  cases reads : p.read alone.rest with
  | error failure =>
    rw [read_error reads, read_error (h.rest_eq.symm ▸ reads)]
    exact ⟨congrArg Except.error (h.blame_eq failure), h.leaving (p.leaves reads)⟩
  | ok result =>
    rw [read_ok reads, read_ok (h.rest_eq.symm ▸ reads)]
    exact ⟨rfl, h.leaving (p.suffix reads)⟩

/-- **So does a program**, but for its position. -/
theorem Trails.program (h : Trails passed cursor alone) :
    cursor.program.1 = alone.program.1.map (fun p => ⟨p.statements, programPosition cursor.tokens⟩) ∧
      Trails passed cursor.program.2 alone.program.2 := by
  cases reads : Grammar.statements alone.rest with
  | error failure =>
    rw [program_error reads, program_error (h.rest_eq.symm ▸ reads)]
    exact ⟨congrArg Except.error (h.blame_eq failure), h.leaving (Grammar.statementsFrom_leaves reads)⟩
  | ok statements =>
    rw [program_ok reads, program_ok (h.rest_eq.symm ▸ reads)]
    exact ⟨rfl, h.leaving List.nil_suffix⟩

theorem Trails.after (h : Trails passed cursor alone) (call : Call) :
    Trails passed (cursor.after call) (alone.after call) := by
  cases call with
  | program => exact h.program.2
  | statement => exact (h.read Grammar.statement).2
  | expression => exact (h.read Grammar.expression).2

/-- **Readings one after another keep both cursors alike.** -/
theorem Trails.afterAll (h : Trails passed cursor alone) (calls : List Call) :
    Trails passed (cursor.afterAll calls) (alone.afterAll calls) := by
  induction calls generalizing cursor alone with
  | nil => exact h
  | cons call calls ih => exact ih (h.after call)

theorem afterAll_append (cursor : Cursor) (calls later : List Call) :
    cursor.afterAll (calls ++ later) = (cursor.afterAll calls).afterAll later :=
  List.foldl_append

theorem programPosition_eq {tokens : List Token} {t : Token} (h : tokens.head? = some t) :
    programPosition tokens = t.position := by
  rw [programPosition, h]
  rfl

/-- A program has the position of the first token, wherever the cursor was. -/
theorem position_of_program {p : Program} (h : cursor.program.1 = .ok p) :
    p.position = programPosition cursor.tokens := by
  cases reads : Grammar.statements cursor.rest with
  | error failure =>
    rw [program_error reads] at h
    cases h
  | ok statements =>
    rw [program_ok reads] at h
    cases h
    rfl

end Cursor

/-- **A cursor has no memory but its place.** Readings, successful or not, have left a cursor inside its tokens, and
others may have followed. What it reads then is what a cursor reads that was started on the tokens from that place on and
asked for the others only: the same value, or the same error. Its place is further on by as many tokens as the other has
not got, and its programs have the position of the first token of all, where the other's have that of its own first. -/
theorem readings_afresh {tokens : List Token} {calls : List Cursor.Call}
    (inside : ((Cursor.start tokens).afterAll calls).consumed < tokens.length) (others : List Cursor.Call) :
    let place := ((Cursor.start tokens).afterAll calls).consumed
    let cursor := (Cursor.start tokens).afterAll (calls ++ others)
    let fresh := (Cursor.start (tokens.drop place)).afterAll others
    cursor.expression.1 = fresh.expression.1 ∧
    cursor.statement.1 = fresh.statement.1 ∧
    (∀ e, fresh.program.1 = .error e → cursor.program.1 = .error e) ∧
    (∀ p, fresh.program.1 = .ok p → ∃ first here, tokens[0]? = some first ∧ tokens[place]? = some here ∧
      p.position = here.position ∧ cursor.program.1 = .ok { p with position := first.position }) ∧
    (∀ call, (cursor.after call).tokens = tokens ∧
      (cursor.after call).consumed = place + (fresh.after call).consumed) := by
  intro place cursor fresh
  have start : ∀ ts, (Cursor.start ts).consumed ≤ (Cursor.start ts).tokens.length := fun _ => Nat.zero_le _
  have reached := Cursor.movesTo_afterAll (start tokens) calls
  have moved := Cursor.movesTo_afterAll (start tokens) (calls ++ others)
  have rest : fresh.tokens = tokens.drop place := (Cursor.movesTo_afterAll (start (tokens.drop place)) others).tokens
  have trails : Cursor.Trails (tokens.take place) cursor fresh := by
    have here := Cursor.trails_start (Nat.lt_of_lt_of_eq inside (congrArg List.length reached.tokens.symm))
    rw [reached.tokens] at here
    have both : cursor = ((Cursor.start tokens).afterAll calls).afterAll others := Cursor.afterAll_append _ calls others
    exact both ▸ here.afterAll others
  refine ⟨(trails.read Grammar.expression).1, (trails.read Grammar.statement).1, ?_, ?_, ?_⟩
  · intro e fails
    rw [trails.program.1, fails]
    rfl
  · intro p succeeds
    have nonempty : 0 < tokens.length := Nat.zero_lt_of_lt inside
    have first : tokens[0]? = some tokens[0] := List.getElem?_eq_getElem nonempty
    have here : tokens[place]? = some tokens[place] := List.getElem?_eq_getElem inside
    refine ⟨_, _, first, here, ?_, ?_⟩
    · rw [Cursor.position_of_program succeeds, rest]
      exact Cursor.programPosition_eq (List.head?_drop ▸ here)
    · have position : Cursor.programPosition cursor.tokens = tokens[0].position :=
        Cursor.programPosition_eq (moved.tokens ▸ List.head?_eq_getElem? ▸ first)
      rw [trails.program.1, succeeds, position]
      rfl
  · intro call
    have next := Cursor.movesTo_after (moved.tokens.symm ▸ moved.inside) call
    refine ⟨next.tokens.trans moved.tokens, ?_⟩
    rw [(trails.after call).consumed, List.length_take_of_le (Nat.le_of_lt inside)]

/-- A statement has failed at the second token. From there a program is read, and behind it no expression. -/
theorem readings_afresh_behind_failed_statement :
    let tokens : List Token := [⟨.identifier, "x", ⟨1, 1⟩⟩, ⟨.identifier, "y", ⟨1, 3⟩⟩, ⟨.assignment, ":=", ⟨1, 5⟩⟩,
      ⟨.integer, "2", ⟨1, 8⟩⟩]
    let calls : List Cursor.Call := [.statement]
    let cursor := (Cursor.start tokens).afterAll calls
    let ended := (Cursor.start tokens).afterAll (calls ++ [.program])
    cursor.consumed < tokens.length ∧
    cursor.program.1 = .ok ⟨[⟨"y", .number .integer "2" ⟨1, 8⟩, ⟨1, 3⟩⟩], ⟨1, 1⟩⟩ ∧
    (cursor.after .program).consumed = 4 ∧ ended.expression.1 = .error (.unexpected .operandMissing ⟨1, 8⟩) := by
  intro tokens calls cursor ended
  have place : cursor.consumed = 1 := by decide +kernel
  have inside : cursor.consumed < tokens.length := place ▸ by decide
  have read : Grammar.statements (tokens.drop 1) = .ok [⟨"y", .number .integer "2" ⟨1, 8⟩, ⟨1, 3⟩⟩] :=
    Grammar.statementsFrom_eq_ok_iff.mpr ⟨_, rfl, by decide, rfl⟩
  have alone : (Cursor.start (tokens.drop cursor.consumed)).program =
      (.ok ⟨[⟨"y", .number .integer "2" ⟨1, 8⟩, ⟨1, 3⟩⟩], ⟨1, 3⟩⟩, ⟨tokens.drop 1, 3⟩) :=
    place ▸ Cursor.program_ok read
  obtain ⟨_, _, _, program, consumed⟩ := readings_afresh inside []
  obtain ⟨expression, _⟩ := readings_afresh inside [.program]
  refine ⟨inside, ?_, ?_, expression.trans ?_⟩
  · obtain ⟨first, _, isFirst, _, _, eq⟩ := program _ (congrArg Prod.fst alone)
    cases isFirst
    exact eq
  · have further : (cursor.after .program).consumed =
        cursor.consumed + (Cursor.start (tokens.drop cursor.consumed)).program.2.consumed := (consumed .program).2
    rw [further, alone, place]
    rfl
  · have ending : (Cursor.mk (tokens.drop 1) 3).expression.1 = .error (.unexpected .operandMissing ⟨1, 8⟩) := rfl
    exact (congrArg (·.2.expression.1) alone).trans ending

end Mini
