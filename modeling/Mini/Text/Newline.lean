/-!
# Line endings

Text that comes from outside ends its lines with a line feed, with a carriage return, or with the pair of
both. `unifyNewlines` writes each of them as one line feed; the pair counts once, as the equations below say.
-/

namespace Mini.Text

/-- The text with its line endings unified, behind the text before it, which comes reversed. -/
def unifyNewlinesOnto : List Char → List Char → List Char
  | before, [] => before.reverse
  | before, '\r' :: '\n' :: rest => unifyNewlinesOnto ('\n' :: before) rest
  | before, '\r' :: rest => unifyNewlinesOnto ('\n' :: before) rest
  | before, c :: rest => unifyNewlinesOnto (c :: before) rest

/-- Every line ending as one line feed. -/
def unifyNewlines (text : List Char) : List Char :=
  unifyNewlinesOnto [] text

theorem unifyNewlinesOnto_append (near far text : List Char) :
    unifyNewlinesOnto (near ++ far) text = far.reverse ++ unifyNewlinesOnto near text := by
  fun_induction unifyNewlinesOnto near text with
  | case1 near => simp [unifyNewlinesOnto]
  | case2 near rest ih => simpa [unifyNewlinesOnto] using ih
  | case3 near rest notPair ih => simpa [unifyNewlinesOnto, notPair] using ih
  | case4 near c rest notPair notReturn ih => simpa [unifyNewlinesOnto, notPair, notReturn] using ih

theorem unifyNewlines_pair (rest : List Char) :
    unifyNewlines ('\r' :: '\n' :: rest) = '\n' :: unifyNewlines rest := by
  simpa [unifyNewlines, unifyNewlinesOnto] using unifyNewlinesOnto_append [] ['\n'] rest

/-- A carriage return without a line feed behind it is a line ending of its own. -/
theorem unifyNewlines_return {rest : List Char} (h : rest.head? ≠ some '\n') :
    unifyNewlines ('\r' :: rest) = '\n' :: unifyNewlines rest := by
  have notPair : ∀ more, rest = '\n' :: more → False := by rintro more rfl; exact h rfl
  simpa [unifyNewlines, unifyNewlinesOnto, notPair] using unifyNewlinesOnto_append [] ['\n'] rest

theorem unifyNewlines_cons {c : Char} (h : c ≠ '\r') (rest : List Char) :
    unifyNewlines (c :: rest) = c :: unifyNewlines rest := by
  simpa [unifyNewlines, unifyNewlinesOnto, h] using unifyNewlinesOnto_append [] [c] rest

end Mini.Text
