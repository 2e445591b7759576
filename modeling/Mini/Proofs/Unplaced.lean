import Mini.Proofs.Cut
import Mini.Proofs.Reading

/-!
# Trees without positions

What is left of a tree when its positions are forgotten (`Program.unplaced`). Whether it is canonical is decided by
that alone, and what its tokens say is decided by their words. `Program.exists_ofTokens` puts these together: tokens
with the words of a canonical program are read as this program, up to positions.

The positions of a tree can be any, so nothing is said here about where its tokens stand.
-/

namespace Mini

/-! ## Forgetting positions -/

/-- An expression with all its positions forgotten. -/
def Expr.unplaced : Expr → Expr
  | .number form lexeme _ => .number form lexeme .start
  | .name text _ => .name text .start
  | .binary left operator right _ => .binary left.unplaced operator right.unplaced .start

/-- An assignment with all its positions forgotten. -/
def Assignment.unplaced (a : Assignment) : Assignment :=
  ⟨a.name, a.value.unplaced, .start⟩

/-- A program with all its positions forgotten. -/
def Program.unplaced (p : Program) : Program :=
  ⟨p.statements.map Assignment.unplaced, .start⟩

namespace Expr

@[simp] theorem isLeaf_unplaced (e : Expr) : e.unplaced.isLeaf = e.isLeaf := by
  cases e <;> rfl

@[simp] theorem rootIn_unplaced (e : Expr) (signs : List String) : e.unplaced.rootIn signs = e.rootIn signs := by
  cases e <;> rfl

@[simp] theorem joins_unplaced (left : Expr) (operator : String) (right : Expr) :
    joins left.unplaced operator right.unplaced = joins left operator right := by
  simp only [joins, isLeaf_unplaced, rootIn_unplaced]

@[simp] theorem isCanonical_unplaced (e : Expr) : e.unplaced.isCanonical = e.isCanonical := by
  induction e with
  | number form lexeme position => rfl
  | name text position => rfl
  | binary left operator right position ihl ihr =>
    rw [unplaced, isCanonical, isCanonical, ihl, ihr, joins_unplaced]

end Expr

theorem Program.isCanonical_unplaced (p : Program) : p.unplaced.isCanonical = p.isCanonical := by
  simp [isCanonical, unplaced, Assignment.unplaced, Function.comp_def]

/-! ## Tokens with the same words -/

/-- Tokens that differ from those of an expression in their positions are those of an expression that differs from
it in its positions. -/
theorem Expr.exists_placed {e : Expr} {tokens : List Token} (same : tokens.map Token.word = e.tokens.map Token.word) :
    ∃ placed : Expr, placed.tokens = tokens ∧ placed.unplaced = e.unplaced := by
  induction e generalizing tokens with
  | number form lexeme position =>
    obtain ⟨⟨kind, text, place⟩, _, rfl, word, nothing⟩ := List.map_eq_cons_iff.mp same
    obtain rfl := List.map_eq_nil_iff.mp nothing
    cases word
    exact ⟨.number form lexeme place, rfl, rfl⟩
  | name text position =>
    obtain ⟨⟨kind, text, place⟩, _, rfl, word, nothing⟩ := List.map_eq_cons_iff.mp same
    obtain rfl := List.map_eq_nil_iff.mp nothing
    cases word
    exact ⟨.name text place, rfl, rfl⟩
  | binary left operator right position ihl ihr =>
    rw [Expr.tokens, List.map_append, List.map_cons] at same
    obtain ⟨front, _, rfl, sameFront, same⟩ := List.map_eq_append_iff.mp same
    obtain ⟨⟨kind, text, place⟩, back, rfl, word, sameBack⟩ := List.map_eq_cons_iff.mp same
    cases word
    obtain ⟨placedLeft, rfl, forgottenLeft⟩ := ihl sameFront
    obtain ⟨placedRight, rfl, forgottenRight⟩ := ihr sameBack
    refine ⟨.binary placedLeft operator placedRight place, rfl, ?_⟩
    rw [Expr.unplaced, Expr.unplaced, forgottenLeft, forgottenRight]

/-- The same of an assignment, as far as its tokens are kept. -/
theorem Assignment.exists_placed {a : Assignment} {tokens : List Token}
    (same : tokens.map Token.word = a.tokens.map Token.word) :
    ∃ placed : Assignment, placed.tokens = tokens.map Token.kept ∧ placed.unplaced = a.unplaced := by
  obtain ⟨⟨kind, text, place⟩, _, rfl, word, behind⟩ := List.map_eq_cons_iff.mp same
  cases word
  obtain ⟨sign, value, rfl, isSign, sameValue⟩ := List.map_eq_cons_iff.mp behind
  obtain ⟨placed, rfl, forgotten⟩ := Expr.exists_placed sameValue
  refine ⟨⟨a.name, placed, place⟩, ?_, congrArg (Assignment.mk a.name · .start) forgotten⟩
  rw [List.map_cons, List.map_cons, Token.kept_eq_sign_iff.mpr (congrArg Prod.fst isSign), Expr.map_kept_tokens]
  rfl

/-- The same of several assignments. -/
theorem exists_placed_statements {statements : List Assignment} {tokens : List Token}
    (same : tokens.map Token.word = (statements.flatMap Assignment.tokens).map Token.word) :
    ∃ placed : List Assignment, placed.flatMap Assignment.tokens = tokens.map Token.kept ∧
      placed.map Assignment.unplaced = statements.map Assignment.unplaced := by
  induction statements generalizing tokens with
  | nil =>
    obtain rfl := List.map_eq_nil_iff.mp same
    exact ⟨[], rfl, rfl⟩
  | cons a rest ih =>
    rw [List.flatMap_cons, List.map_append] at same
    obtain ⟨front, back, rfl, sameFront, sameBack⟩ := List.map_eq_append_iff.mp same
    obtain ⟨placed, tokensPlaced, forgotten⟩ := Assignment.exists_placed sameFront
    obtain ⟨others, tokensOthers, forgottenOthers⟩ := ih sameBack
    refine ⟨placed :: others, ?_, ?_⟩
    · rw [List.flatMap_cons, tokensPlaced, tokensOthers, List.map_append]
    · rw [List.map_cons, List.map_cons, forgotten, forgottenOthers]

/-- **Reading goes by words**: tokens with the words of a canonical program are read as this program, up to
positions. -/
theorem Program.exists_ofTokens {p : Program} {tokens : List Token} (canonical : p.isCanonical = true)
    (same : tokens.map Token.word = p.tokens.map Token.word) :
    ∃ q : Program, Program.ofTokens tokens = .ok q ∧ q.unplaced = p.unplaced := by
  obtain ⟨placed, keptTokens, forgotten⟩ := exists_placed_statements same
  have unplacedEq : ∀ place, (⟨placed, place⟩ : Program).unplaced = p.unplaced := fun _ =>
    congrArg (Program.mk · .start) forgotten
  have canonicalPlaced : (⟨placed, .start⟩ : Program).isCanonical = true := by
    rw [← isCanonical_unplaced, unplacedEq, isCanonical_unplaced, canonical]
  have read : Grammar.statements tokens = .ok placed :=
    Grammar.statementsFrom_eq_ok_iff.mpr ⟨placed, rfl, List.all_eq_true.mp canonicalPlaced, keptTokens.symm⟩
  exact ⟨⟨placed, Cursor.programPosition tokens⟩, ofTokens_eq_ok_iff.mpr ⟨read, rfl⟩, unplacedEq _⟩

end Mini
