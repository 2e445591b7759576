import Mini.Proofs.Session

/-!
# Programs one after another

`ofTokens_append`: behind the tokens of a program other tokens are read as they are alone, if no operator begins them.
If they are a program, its statements come behind those of the first; if they are not, the error is the same, and all
the tokens of the first program have been consumed too.

The last expression of the first program was read up to the end of the tokens and now has a token behind it. It stops
there all the same (`Stops.append`), so every statement of the first program is read as before
(`Grammar.statementsFrom_append`). What is read behind them does not depend on the statements found
(`Grammar.statementsFrom_eq_map`).
-/

namespace Mini

theorem Stops.append {signs : List String} {rest second : List Token} (h : Stops signs rest)
    (stops : Stops signs second) : Stops signs (rest ++ second) := by
  cases rest with
  | nil => exact stops
  | cons t rest => exact h

namespace Grammar

variable {first second rest : List Token}

/-- A statement is read as before when more tokens follow. -/
theorem read_statement_append {a : Assignment} (stops : Stops operatorSigns second)
    (read : statement.read first = .ok (a, rest)) : statement.read (first ++ second) = .ok (a, rest ++ second) := by
  obtain ⟨canonical, ending, sign, isSign, rfl⟩ := read_statement_eq_ok_iff.mp read
  refine read_statement_eq_ok_iff.mpr ⟨canonical, ending.append stops, sign, isSign, ?_⟩
  rw [List.cons_append, List.cons_append, List.append_assoc]

/-- **Statements are read as before when more tokens follow**, and reading goes on behind them. -/
theorem statementsFrom_append {found all : List Assignment} (stops : Stops operatorSigns second)
    (read : statementsFrom found first = .ok all) :
    statementsFrom found (first ++ second) = statementsFrom all.reverse second := by
  fun_induction statementsFrom found first with
  | case1 found =>
    cases read
    rw [List.nil_append, List.reverse_reverse]
  | case2 found token more failure fails => cases read
  | case3 found token more next rest reads ih => rw [statementsFrom_ok (read_statement_append stops reads), ih read]

/-- A failure does not depend on the statements found before. -/
theorem statementsFrom_eq_error {found : List Assignment} {failure : Failure}
    (read : statementsFrom found first = .error failure) (others : List Assignment) :
    statementsFrom others first = .error failure := by
  fun_induction statementsFrom found first generalizing others with
  | case1 found => cases read
  | case2 found token more failed fails =>
    cases read
    exact statementsFrom_error (List.cons_ne_nil _ _) fails others
  | case3 found token more next rest reads ih =>
    rw [statementsFrom_ok reads, ih read]

/-- The statements found before come before those that are read. -/
theorem statementsFrom_eq_map (found : List Assignment) (tokens : List Token) :
    statementsFrom found tokens = (statements tokens).map (found.reverse ++ ·) := by
  cases read : statements tokens with
  | error failure => exact statementsFrom_eq_error read found
  | ok all =>
    obtain ⟨_, rfl, canonical, kept⟩ := statementsFrom_eq_ok_iff.mp read
    exact statementsFrom_eq_ok_iff.mpr ⟨all, rfl, canonical, kept⟩

/-- What is read behind a program is what is read alone, behind the statements of the program. -/
theorem statements_append {before : List Assignment} (stops : Stops operatorSigns second)
    (read : statements first = .ok before) :
    statements (first ++ second) = (statements second).map (before ++ ·) := by
  unfold statements at read ⊢
  rw [statementsFrom_append stops read, statementsFrom_eq_map, List.reverse_reverse]
  rfl

end Grammar

/-! ## Errors and places behind a program -/

namespace Cursor

variable {first second : List Token}

/-- Tokens in front of others do not change which of these is to blame. -/
theorem blame_start_append (nonempty : second ≠ []) (failure : Failure) :
    (start (first ++ second)).blame failure = (start second).blame failure := by
  have last : (first ++ second).getLast? = second.getLast? := by
    rw [List.getLast?_append, List.getLast?_eq_some_getLast nonempty, Option.some_or]
  unfold blame start
  rw [last]

/-- The same ending is left further on by the tokens in front. -/
theorem consumed_leaving_start_append {rest : List Token} (h : rest <:+ second) :
    ((start (first ++ second)).leaving rest).consumed = first.length + ((start second).leaving rest).consumed := by
  show (first ++ second).length - rest.length = first.length + (second.length - rest.length)
  rw [List.length_append, Nat.add_sub_assoc h.length_le]

end Cursor

/-- **Programs one after another are a program.** Behind the tokens of a program come tokens that no operator begins.
If these are a program by themselves, then all together are one, of the statements of both as they were, and it
stands where the first token does. If they are not, all together are not either: the error is the same, and so many
more tokens have been consumed as the first program has. -/
theorem ofTokens_append {first more : List Token} {t : Token} {p : Program}
    (accepted : Program.ofTokens first = .ok p) (other : ¬ t.GoesOn) :
    (∀ q, Program.ofTokens (t :: more) = .ok q → Program.ofTokens (first ++ t :: more) =
      .ok ⟨p.statements ++ q.statements, if first = [] then q.position else p.position⟩) ∧
    (∀ e, Program.ofTokens (t :: more) = .error e → Program.ofTokens (first ++ t :: more) = .error e) ∧
    (Cursor.start (first ++ t :: more)).program.2.consumed =
      first.length + (Cursor.start (t :: more)).program.2.consumed := by
  obtain ⟨before, place⟩ := ofTokens_eq_ok_iff.mp accepted
  have stops : Stops operatorSigns (t :: more) :=
    stops_cons_iff.mpr (isOperator_operatorSigns_eq_false_iff.mpr other)
  have together := Grammar.statements_append stops before
  refine ⟨?_, ?_, ?_⟩
  · intro q read
    obtain ⟨behind, position⟩ := ofTokens_eq_ok_iff.mp read
    rw [behind] at together
    refine ofTokens_eq_ok_iff.mpr ⟨together, ?_⟩
    cases first with
    | nil => exact position
    | cons t first => exact place
  · intro e read
    obtain ⟨failure, behind, rfl⟩ := ofTokens_eq_error_iff.mp read
    rw [behind] at together
    exact ofTokens_eq_error_iff.mpr ⟨failure, together, Cursor.blame_start_append (List.cons_ne_nil _ _) failure⟩
  · cases behind : Grammar.statements (t :: more) with
    | error failure =>
      rw [behind] at together
      have alone : (Cursor.start (t :: more)).program = _ := Cursor.program_error behind
      have all : (Cursor.start (first ++ t :: more)).program = _ := Cursor.program_error together
      rw [alone, all]
      exact Cursor.consumed_leaving_start_append (Grammar.statementsFrom_leaves behind)
    | ok statements =>
      rw [behind] at together
      have alone : (Cursor.start (t :: more)).program = _ := Cursor.program_ok behind
      have all : (Cursor.start (first ++ t :: more)).program = _ := Cursor.program_ok together
      rw [alone, all]
      exact Cursor.consumed_leaving_start_append List.nil_suffix

/-- Behind an assignment comes another, and then one without a value, which lacks it at the same place as alone. -/
theorem ofTokens_append_assignment :
    let first : List Token := [⟨.identifier, "x", ⟨1, 1⟩⟩, ⟨.assignment, ":=", ⟨1, 3⟩⟩, ⟨.integer, "1", ⟨1, 6⟩⟩]
    let second : List Token := [⟨.identifier, "y", ⟨5, 1⟩⟩, ⟨.assignment, ":=", ⟨5, 3⟩⟩]
    Program.ofTokens (first ++ (second ++ [⟨.identifier, "x", ⟨5, 6⟩⟩])) =
      .ok ⟨[⟨"x", .number .integer "1" ⟨1, 6⟩, ⟨1, 1⟩⟩, ⟨"y", .name "x" ⟨5, 6⟩, ⟨5, 1⟩⟩], ⟨1, 1⟩⟩ ∧
    Program.ofTokens (first ++ second) = .error (.unexpected .operandMissing ⟨5, 3⟩) ∧
    (Cursor.start (first ++ second)).program.2.consumed = 5 := by
  intro first second
  have accepted : Program.ofTokens first = .ok ⟨[⟨"x", .number .integer "1" ⟨1, 6⟩, ⟨1, 1⟩⟩], ⟨1, 1⟩⟩ :=
    ofTokens_eq_ok_iff.mpr ⟨Grammar.statementsFrom_eq_ok_iff.mpr ⟨_, rfl, by decide, rfl⟩, rfl⟩
  have other : ¬ Token.GoesOn ⟨.identifier, "y", ⟨5, 1⟩⟩ := by decide
  obtain ⟨succeeds, _, _⟩ := @ofTokens_append first [⟨.assignment, ":=", ⟨5, 3⟩⟩, ⟨.identifier, "x", ⟨5, 6⟩⟩] _ _
    accepted other
  obtain ⟨_, fails, consumed⟩ := @ofTokens_append first [⟨.assignment, ":=", ⟨5, 3⟩⟩] _ _ accepted other
  have unfinished : Grammar.statements second = .error ⟨.operandMissing, []⟩ :=
    Grammar.statementsFrom_error (List.cons_ne_nil _ _) rfl []
  refine ⟨succeeds ⟨[⟨"y", .name "x" ⟨5, 6⟩, ⟨5, 1⟩⟩], ⟨5, 1⟩⟩ ?_, fails _ ?_, consumed.trans ?_⟩
  · exact ofTokens_eq_ok_iff.mpr ⟨Grammar.statementsFrom_eq_ok_iff.mpr ⟨_, rfl, by decide, rfl⟩, rfl⟩
  · exact ofTokens_eq_error_iff.mpr ⟨_, unfinished, rfl⟩
  · have alone : (Cursor.start second).program = _ := Cursor.program_error unfinished
    exact congrArg (fun outcome => 3 + outcome.2.consumed) alone

end Mini
