import Mini.Compilation
import Mini.Proofs.Blame
import Mini.Proofs.Place

/-!
# Positions that are written

`positions_written`: what comes of a text has positions that can be written, unless even the number of its characters has
too many digits. A line or a column of an offset is at most one more than there are characters
(`Position.natAbs_atOffset_le`), and tokens and illegal characters stand at offsets. So every token of the text is shown by
its line, and where the tokens are not a program the error names one of them.
-/

namespace Mini

/-- The lines and columns of a text go no further than one behind its characters. -/
theorem Position.natAbs_atOffset_le (text : List Char) (offset : Nat) :
    (atOffset text offset).line.natAbs ≤ text.length + 1 ∧ (atOffset text offset).column.natAbs ≤ text.length + 1 := by
  have lines : (text.take offset).count '\n' ≤ (text.take offset).length := List.count_le_length
  have columns := (List.takeWhile_sublist (· ≠ '\n') (l := (text.take offset).reverse)).length_le
  rw [List.length_reverse] at columns
  have front := List.length_take_le' offset text
  constructor
  · show Int.natAbs (1 + _) ≤ _
    omega
  · show Int.natAbs (1 + _) ≤ _
    omega

/-- **Every offset of a text that is not too long has a position that can be written.** -/
theorem Position.isWritable_atOffset {text : List Char} (short : Mini.IsWritable (text.length + 1)) (offset : Nat) :
    (atOffset text offset).IsWritable := by
  obtain ⟨line, column⟩ := natAbs_atOffset_le text offset
  exact ⟨short.of_natAbs_le line, short.of_natAbs_le column⟩

/-- Where all positions can be written, the error names one. -/
theorem ofTokens_ne_unwritable {tokens : List Token} (writable : ∀ t ∈ tokens, t.position.IsWritable)
    (error : DecimalError) : Program.ofTokens tokens ≠ .error (.unwritable error) := by
  intro fails
  obtain ⟨consumed, rest, phase, blamed, eq, _, _, _, here, named⟩ := error_explained fails
  have mem : blamed ∈ tokens := by
    rcases Option.or_eq_some_iff.mp here with next | ⟨_, last⟩
    · exact eq ▸ List.mem_append_right consumed (List.mem_of_mem_head? next)
    · exact List.mem_of_mem_getLast? last
  rw [ParseError.blaming_of_isWritable (writable blamed mem)] at named
  cases named

section Texts

variable {rules : List Rule} {lexer : Lexer} {source : String} (built : Lexer.ofRules rules = .ok lexer)
  (short : IsWritable (source.toList.length + 1))

include built short

theorem Lexer.isWritable_of_tokenize {tokens : List Token} (cut : lexer.tokenize source = .ok tokens) :
    ∀ t ∈ tokens, t.position.IsWritable := by
  obtain ⟨pieces, final, whole, _, _, rfl⟩ := (tokenize_eq_ok_iff built).mp cut
  have places : tokensFrom .start pieces = (located 0 pieces).map (tokenAt (textOf pieces ++ final)) :=
    tokensFrom_eq_located [] pieces final
  rw [places, ← whole]
  exact List.forall_mem_map.mpr fun place _ => Position.isWritable_atOffset short place.1

theorem Lexer.isWritable_of_tokenize_error {e : LexicalError} (refused : lexer.tokenize source = .error e) :
    e.position.IsWritable := by
  obtain ⟨pieces, gap, rest, whole, _, _, _, place⟩ := (tokenize_eq_error_iff built).mp refused
  rw [← List.append_assoc] at whole
  rw [place, ← Position.atOffset_append _ (e.character :: rest), ← whole]
  exact Position.isWritable_atOffset short _

/-- **What comes of a text has positions that can be written**, if the number of its characters can: its tokens are shown
by their lines, an illegal character is named with its position, and so is the token to blame if the tokens are not a
program. -/
theorem positions_written :
    (∀ tokens, lexer.tokenize source = .ok tokens → ∀ t ∈ tokens, t.render = .ok t.line) ∧
    (∀ e, lexer.tokenize source = .error e → e.position.IsWritable) ∧
    ∀ error, compileWith rules source ≠ .error (.parse (.unwritable error)) := by
  refine ⟨fun tokens cut t mem => ?_, fun e refused => ?_, fun error failed => ?_⟩
  · exact Token.renderWith_of_isWritable (Lexer.isWritable_of_tokenize built short cut t mem) _
  · exact Lexer.isWritable_of_tokenize_error built short refused
  · have result := tokenizeWith_of_ofRules built source
    cases cut : lexer.tokenize source with
    | error e =>
      rw [cut] at result
      rw [compileWith_of_tokenizeWith_error result] at failed
      cases failed
    | ok tokens =>
      rw [cut] at result
      rw [compileWith_of_tokenizeWith result] at failed
      cases read : Program.ofTokens tokens with
      | ok program =>
        rw [read] at failed
        cases failed
      | error e =>
        rw [read] at failed
        cases failed
        exact ofTokens_ne_unwritable (Lexer.isWritable_of_tokenize built short cut) error read

end Texts

end Mini
