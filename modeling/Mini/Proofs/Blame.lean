import Mini.Proofs.Phase

/-!
# The token to blame

`error_blames_first_hopeless`: when tokens are not a program, the tokens that were consumed can be completed to one,
with the next token they cannot, and it is this token that the error names; if there is no next token, the
error names the last. The wording of the error depends on what was consumed, and for an operand that is missing
on whether the tokens end there.

The token is named by its position. Where that has too many digits to be written, the error is that it has
(`ofTokens_error_without_position`).

The error says nothing of whether the tokens behind the one it names could be part of a program.
-/

namespace Mini

/-! ## What every phase can still become -/

/-- Tokens that complete what was read. -/
def Phase.completion : Phase → List Token
  | .start => []
  | .named _ => [assignmentSign, ⟨.identifier, "x", .start⟩]
  | .due => [⟨.identifier, "x", .start⟩]
  | .complete => []

/-- **Every phase can be completed.** -/
theorem Phase.accepted_completion {phase : Phase} {tokens : List Token}
    (h : Phase.start.after tokens = some phase) : Accepted (tokens ++ phase.completion) := by
  rw [accepted_iff, Phase.after_append, h]
  cases phase with
  | start => exact ⟨.start, rfl, rfl⟩
  | named name => exact ⟨.complete, rfl, rfl⟩
  | due => exact ⟨.complete, rfl, rfl⟩
  | complete => exact ⟨.complete, rfl, rfl⟩

/-- A token that cannot come next cannot be made good. -/
theorem Phase.not_accepted_of_next_eq_none {phase : Phase} {tokens : List Token} {t : Token}
    (h : Phase.start.after tokens = some phase) (blocked : phase.next t = none) {more : List Token} :
    ¬ Accepted (tokens ++ t :: more) := by
  rw [accepted_iff, Phase.after_append, h, Option.bind_some, Phase.after_cons, blocked]
  rintro ⟨reached, impossible, _⟩
  cases impossible

/-! ## What an error says -/

/-- A text that differs early from the beginning of another differs from it. -/
theorem append_ne_of_take_ne (opening : String) (n : Nat) {more other : String}
    (long : n ≤ opening.toList.length) (differ : opening.toList.take n ≠ other.toList.take n) : opening ++ more ≠ other := by
  rintro rfl
  rw [String.toList_append, List.take_append_of_le_length long] at differ
  exact differ rfl

theorem Fault.message_eq_statementExpected_iff {f : Fault} :
    f.message = "Expected identifier at the start of a statement" ↔ f = .statementExpected := by
  constructor
  · intro h
    cases f with
    | statementExpected => rfl
    | assignmentExpected name =>
      exact absurd h (append_ne_of_take_ne "Expected ':=' after identifier " 10 (by decide) (by decide))
    | operandExpected => exact absurd h (by decide)
    | operandMissing => exact absurd h (by decide)
  · rintro rfl
    rfl

theorem Fault.eq_assignmentExpected_of_message {f : Fault} {quoted : String}
    (h : f.message = "Expected ':=' after identifier " ++ quoted) : ∃ name, f = .assignmentExpected name := by
  have other : ∀ s : String, s.toList.take 10 ≠ "Expected ':=' after identifier ".toList.take 10 →
      s ≠ "Expected ':=' after identifier " ++ quoted := by
    intro s differ
    exact (append_ne_of_take_ne _ 10 (by decide) differ.symm).symm
  cases f with
  | statementExpected => exact absurd h (other _ (by decide))
  | assignmentExpected name => exact ⟨name, rfl⟩
  | operandExpected => exact absurd h (other _ (by decide))
  | operandMissing => exact absurd h (other _ (by decide))

theorem Phase.fault_eq_statementExpected_iff {phase : Phase} {rest : List Token} :
    phase.fault rest = .statementExpected ↔ phase.accepting = true := by
  cases phase with
  | start => simp [fault, accepting]
  | named name => simp [fault, accepting]
  | due => cases rest <;> simp [fault, accepting]
  | complete => simp [fault, accepting]

theorem Phase.fault_eq_assignmentExpected_iff {phase : Phase} {rest : List Token} {name : String} :
    phase.fault rest = .assignmentExpected name ↔ phase = .named name := by
  cases phase with
  | start => simp [fault]
  | named other => simp [fault]
  | due => cases rest <;> simp [fault]
  | complete => simp [fault]

/-- In every other phase an operand is due. -/
theorem Phase.eq_due {phase : Phase} (notAccepting : ¬ phase.accepting = true)
    (notNamed : ¬ ∃ name, phase = .named name) : phase = .due := by
  cases phase with
  | start => exact absurd rfl notAccepting
  | named name => exact absurd ⟨name, rfl⟩ notNamed
  | due => rfl
  | complete => exact absurd rfl notAccepting

theorem Phase.message_fault_due (consumed rest : List Token) :
    (Phase.due.fault rest).message = if consumed.length < (consumed ++ rest).length
      then "Expected expression (identifier or number)"
      else "Unexpected end of input while parsing expression" := by
  rw [List.length_append]
  cases rest with
  | nil =>
    rw [if_neg (by simp)]
    rfl
  | cons first more =>
    rw [if_pos (by simp)]
    rfl

/-! ## Where an error lies -/

/-- **A failed reading has consumed what the phases go along with**, and names the token behind it or the
last one. -/
theorem error_explained {tokens : List Token} {e : ParseError} (h : Program.ofTokens tokens = .error e) :
    ∃ consumed rest phase blamed, tokens = consumed ++ rest ∧
      (Cursor.start tokens).program.2.consumed = consumed.length ∧
      Phase.start.after consumed = some phase ∧ phase.Stuck rest ∧
      rest.head?.or tokens.getLast? = some blamed ∧ e = .blaming (phase.fault rest) blamed := by
  obtain ⟨failure, read, rfl⟩ := ofTokens_eq_error_iff.mp h
  have fails : (Cursor.start tokens).program = _ := Cursor.program_error read
  obtain ⟨consumed, phase, eq, run, stuck, fault⟩ := Grammar.statementsFrom_explained (.inl rfl) read
  have nonempty : tokens ≠ [] := by
    rintro rfl
    rw [Grammar.statements, Grammar.statementsFrom_nil] at read
    cases read
  obtain ⟨blamed, here⟩ : ∃ blamed, failure.rest.head?.or tokens.getLast? = some blamed := by
    rw [List.getLast?_eq_some_getLast nonempty]
    exact Option.isSome_iff_exists.mp (by simp)
  refine ⟨consumed, failure.rest, phase, blamed, eq, ?_, run, stuck, here, ?_⟩
  · rw [fails]
    show tokens.length - failure.rest.length = consumed.length
    rw [eq, List.length_append, Nat.add_sub_cancel]
  · rw [Cursor.blame_eq here, fault]

/-- **The error names the first token that makes the input hopeless.** When reading fails, what it has consumed
begins some program. If a token is left, nothing that begins with the consumed tokens and this one is a program,
and the error names this token; if none is left, the error names the last. What the error says was expected is
decided by the consumed tokens: a statement where they are a program, the assignment sign where they are a
program and a name, and otherwise an operand, for which it matters whether a token is left. A position that cannot be
written is not named, and then the error is this. -/
theorem error_blames_first_hopeless {tokens : List Token} {e : ParseError}
    (h : Program.ofTokens tokens = .error e) :
    ∃ k wording blamed, (Cursor.start tokens).program.2.consumed = k ∧ k ≤ tokens.length ∧
      (blamed.position.IsWritable → e.position? = some blamed.position ∧
        e.message = wording ++ " at line " ++ toString blamed.position.line ++
          ", column " ++ toString blamed.position.column) ∧
      (¬ blamed.position.IsWritable → e = .unwritable .tooManyDigits) ∧
      (∃ other, tokens.take k <+: other ∧ Accepted other) ∧
      (∀ next, tokens[k]? = some next → blamed = next ∧
        ∀ other, tokens.take (k + 1) <+: other → ¬ Accepted other) ∧
      (k = tokens.length → tokens.getLast? = some blamed) ∧
      (wording = "Expected identifier at the start of a statement" ↔ Accepted (tokens.take k)) ∧
      ((∃ quoted, wording = "Expected ':=' after identifier " ++ quoted) ↔
        ∃ name, EndsInName (tokens.take k) name) ∧
      (∀ name, EndsInName (tokens.take k) name →
        wording = "Expected ':=' after identifier " ++ Text.quote name) ∧
      (¬ Accepted (tokens.take k) → (¬ ∃ name, EndsInName (tokens.take k) name) →
        wording = if k < tokens.length then "Expected expression (identifier or number)"
          else "Unexpected end of input while parsing expression") := by
  obtain ⟨consumed, rest, phase, blamed, rfl, cursor, run, stuck, here, rfl⟩ := error_explained h
  have front : (consumed ++ rest).take consumed.length = consumed := List.take_left
  have accepted : Accepted consumed ↔ phase.accepting = true := by
    rw [accepted_iff, run]
    simp
  have named : ∀ name, EndsInName consumed name ↔ phase = .named name := by
    intro name
    rw [endsInName_iff, run, Option.some.injEq]
  refine ⟨consumed.length, (phase.fault rest).message, blamed, cursor, ?_, fun writable => ?_, fun unwritable => ?_,
    ?_, ?_, ?_, ?_⟩
  · rw [List.length_append]
    exact Nat.le_add_right _ _
  · rw [ParseError.blaming_of_isWritable writable]
    exact ⟨rfl, rfl⟩
  · exact ParseError.blaming_of_not_isWritable unwritable _
  · rw [front]
    exact ⟨_, List.prefix_append _ _, phase.accepted_completion run⟩
  · intro t next
    rw [List.getElem?_append_right (Nat.le_refl _), Nat.sub_self] at next
    cases rest with
    | nil => cases next
    | cons first more =>
      cases next
      cases here
      refine ⟨rfl, ?_⟩
      have front : (consumed ++ blamed :: more).take (consumed.length + 1) = consumed ++ [blamed] := by
        rw [List.take_length_add_append]
        rfl
      rintro _ ⟨behind, rfl⟩
      rw [front, List.append_assoc]
      exact Phase.not_accepted_of_next_eq_none run stuck
  · intro ends
    have nothing : rest = [] := by
      rw [List.length_append] at ends
      exact List.length_eq_zero_iff.mp (by omega)
    rw [nothing] at here ⊢
    exact here
  · simp only [front, accepted, named]
    refine ⟨?_, ?_, ?_, ?_⟩
    · exact Fault.message_eq_statementExpected_iff.trans Phase.fault_eq_statementExpected_iff
    · refine ⟨fun h => ?_, fun h => ?_⟩
      · obtain ⟨quoted, wording⟩ := h
        obtain ⟨name, fault⟩ := Fault.eq_assignmentExpected_of_message wording
        exact ⟨name, Phase.fault_eq_assignmentExpected_iff.mp fault⟩
      · obtain ⟨name, rfl⟩ := h
        exact ⟨Text.quote name, rfl⟩
    · rintro name rfl
      rfl
    · intro notAccepted notNamed
      obtain rfl : phase = .due := Phase.eq_due notAccepted notNamed
      exact Phase.message_fault_due consumed rest

/-- At a name that no assignment sign follows: the fifth token is to blame, whatever comes behind it. -/
theorem error_blames_sign_of_second_statement :
    let tokens : List Token := [⟨.identifier, "x", ⟨1, 1⟩⟩, ⟨.assignment, "=", ⟨7, 0⟩⟩, ⟨.real, "y", ⟨1, 6⟩⟩,
      ⟨.identifier, "it's", ⟨-2, 1⟩⟩, ⟨.operator, "^", ⟨3, 9⟩⟩, ⟨.identifier, "z", ⟨3, 10⟩⟩]
    Program.ofTokens tokens = .error (.unexpected (.assignmentExpected "it's") ⟨3, 9⟩) ∧
      (Cursor.start tokens).program.2.consumed = 4 ∧
      ∀ other, tokens.take 5 <+: other → ¬ Accepted other := by
  intro tokens
  have report : (match Program.ofTokens tokens with | .ok _ => none | .error e => some e) =
      some (.unexpected (.assignmentExpected "it's") ⟨3, 9⟩) := by decide +kernel
  have fails : Program.ofTokens tokens = .error (.unexpected (.assignmentExpected "it's") ⟨3, 9⟩) := by
    cases read : Program.ofTokens tokens with
    | ok program =>
      rw [read] at report
      cases report
    | error e =>
      rw [read] at report
      exact congrArg Except.error (Option.some.inj report)
  have consumed : (Cursor.start tokens).program.2.consumed = 4 := by decide +kernel
  obtain ⟨k, wording, blamed, cursor, _, _, _, _, blames, _⟩ := error_blames_first_hopeless fails
  obtain rfl : k = 4 := cursor.symm.trans consumed
  exact ⟨fails, consumed, (blames _ rfl).2⟩

/-- A number begins no statement, but on a line whose number has too many digits it is not named. -/
theorem ofTokens_error_without_position :
    let line : Nat := Nat.pow 10 mostDigits
    let tokens : List Token := [⟨.integer, "1", ⟨line, 1⟩⟩]
    Program.ofTokens tokens = .error (.unwritable .tooManyDigits) ∧
      ¬ ∀ e, Program.ofTokens tokens = .error e → ∃ position, e.position? = some position := by
  intro line tokens
  have long : ¬ IsWritable line := not_isWritable_pow
  clear_value line
  have fails : Program.ofTokens tokens = .error (.unwritable .tooManyDigits) := by
    have read : Grammar.statements tokens = .error ⟨.statementExpected, tokens⟩ :=
      Grammar.statementsFrom_error (List.cons_ne_nil _ _) rfl []
    refine ofTokens_eq_error_iff.mpr ⟨_, read, ?_⟩
    rw [Cursor.blame_eq rfl]
    exact ParseError.blaming_of_not_isWritable (fun h => long h.1) _
  refine ⟨fails, fun claimed => ?_⟩
  obtain ⟨position, named⟩ := claimed _ fails
  cases named

end Mini
