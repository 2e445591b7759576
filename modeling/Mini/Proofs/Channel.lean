import Mini.CommandLine.Run
import Mini.Proofs.Encoding

/-!
# Input channels

`channels_agree`: a program can be given in words, in one word, in a file, or on standard input, and however it comes in, a
command line answers the same. What it answers is decided by the text of the program and by the flags in front.

Two facts carry this. Flags that say what to show leave nothing behind but themselves (`Reading.follow_flags`), so what
comes behind them is read as if it stood alone. And an answer does not depend on where the text came from
(`Settings.answer_ofFlags`).
-/

namespace Mini.CommandLine

/-! ## Flags -/

/-- A reading after some flags have taken effect. -/
def Reading.withFlags (r : Reading) (flags : List String) : Reading :=
  { r with tokens := r.tokens || flags.contains "--tokens", verbose := r.verbose || flags.contains "-v" }

/-- Before the program begins, a word that is not plain changes nothing by itself. -/
theorem Reading.interrupt_of_words_eq_nil {r : Reading} (empty : r.words = []) (notClosed : r.closed = false) :
    r.interrupt = r := by
  obtain ⟨tokens, verbose, file, words, closed, unrecognized⟩ := r
  cases empty
  cases notClosed
  rfl

theorem Reading.withFlags_cons (r : Reading) (flag : String) (more : List String) :
    (r.withFlags [flag]).withFlags more = r.withFlags (flag :: more) := by
  simp [withFlags, Bool.or_assoc]

/-- A flag that says what to show takes effect, and nothing else is changed. -/
theorem Reading.follow_flag {flag : String} (shown : flag = "--tokens" ∨ flag = "-v") :
    ∃ word, Word.ofString flag = .ok word ∧ ∀ (r : Reading) (rest : List Word), r.words = [] → r.closed = false →
      r.follow (word :: rest) = (r.withFlags [flag]).follow rest := by
  rcases shown with rfl | rfl
  · refine ⟨.known (.flag .tokens) .long none, rfl, fun r rest empty notClosed => ?_⟩
    rw [follow_tokens, interrupt_of_words_eq_nil empty notClosed]
    simp [withFlags]
  · refine ⟨.known (.flag .verbose) .letter none, rfl, fun r rest empty notClosed => ?_⟩
    rw [follow_verbose, interrupt_of_words_eq_nil empty notClosed]
    simp [withFlags]

/-- **Flags that say what to show take effect one after the other**, and what follows them is read behind them. -/
theorem Reading.follow_flags {flags : List String} (shown : ∀ flag ∈ flags, flag = "--tokens" ∨ flag = "-v") :
    ∃ classified, flags.mapM Word.ofString = .ok classified ∧
      ∀ (r : Reading) (rest : List Word), r.words = [] → r.closed = false →
        r.follow (classified ++ rest) = (r.withFlags flags).follow rest := by
  induction flags with
  | nil =>
    refine ⟨[], rfl, fun r rest _ _ => ?_⟩
    rw [List.nil_append, withFlags, List.contains_nil, List.contains_nil, Bool.or_false, Bool.or_false]
  | cons flag more ih =>
    obtain ⟨shownFirst, shownBehind⟩ := List.forall_mem_cons.mp shown
    obtain ⟨word, isWord, follow⟩ := follow_flag shownFirst
    obtain ⟨classified, isClassified, followBehind⟩ := ih shownBehind
    refine ⟨word :: classified, ?_, fun r rest empty notClosed => ?_⟩
    · rw [List.mapM_cons, isWord, isClassified]
      rfl
    · rw [List.cons_append, follow r _ empty notClosed, followBehind (r.withFlags [flag]) rest empty notClosed,
        withFlags_cons]

/-! ## What is asked for -/

/-- What flags ask to show of a source. -/
def Settings.ofFlags (flags : List String) (source : Source) : Settings :=
  ⟨flags.contains "--tokens", flags.contains "-v", source⟩

section Requests

variable {flags words : List String} {file : String} (shown : ∀ flag ∈ flags, flag = "--tokens" ∨ flag = "-v")
include shown

theorem dashes_not_mem_flags : "--" ∉ flags := fun mem => by
  rcases shown _ mem with same | same
  · exact absurd same (by decide)
  · exact absurd same (by decide)

/-- Flags alone leave a reading in which they have taken effect. -/
theorem Reading.follow_flags_alone :
    ∃ classified, flags.mapM Word.ofString = .ok classified ∧ start.follow classified = .ok (start.withFlags flags) := by
  obtain ⟨classified, isClassified, follow⟩ := follow_flags shown
  have followed := follow .start [] rfl rfl
  rw [List.append_nil, follow_nil] at followed
  exact ⟨classified, isClassified, followed⟩

theorem readArguments_words (nonempty : words ≠ []) :
    readArguments (flags ++ "--" :: words) = .ok (.compile (.ofFlags flags (.words words))) := by
  obtain ⟨classified, isClassified, followed⟩ := Reading.follow_flags_alone shown
  rw [readArguments_of_follow_behind (splitAtDashes_append (dashes_not_mem_flags shown) words) isClassified followed]
  obtain ⟨first, more, rfl⟩ := List.exists_cons_of_ne_nil nonempty
  rfl

/-- A name behind the file switch is the file, since it is a plain word and no double dash. -/
theorem readArguments_file (named : file ≠ "") (noSwitch : file.toList.head? ≠ some '-') :
    readArguments (flags ++ ["-f", file]) = .ok (.compile (.ofFlags flags (.file file))) := by
  obtain ⟨classified, isClassified, follow⟩ := Reading.follow_flags shown
  have noDashes : file ≠ "--" := by
    rintro rfl
    exact noSwitch rfl
  have front : "--" ∉ flags ++ ["-f", file] := by
    simp [dashes_not_mem_flags shown, noDashes.symm]
  have isFile : ["-f", file].mapM Word.ofString = .ok [.known .file .letter none, .plain file] := by
    rw [List.mapM_cons, List.mapM_cons, Word.ofString_plain noSwitch]
    rfl
  have whole : (flags ++ ["-f", file]).mapM Word.ofString =
      .ok (classified ++ [.known .file .letter none, .plain file]) := by
    rw [List.mapM_append, isClassified, isFile]
    rfl
  have followed := follow .start [.known .file .letter none, .plain file] rfl rfl
  rw [Reading.follow_file, Reading.follow_nil] at followed
  have isNamed : ¬ (file = "" ∨ file = "--") := not_or.mpr ⟨named, noDashes⟩
  rw [readArguments_of_follow (splitAtDashes_of_not_mem front) whole followed, Reading.named, if_neg isNamed]
  rfl

theorem readArguments_flags : readArguments flags = .ok (.compile (.ofFlags flags .standardInput)) := by
  obtain ⟨classified, isClassified, followed⟩ := Reading.follow_flags_alone shown
  rw [readArguments_of_follow (splitAtDashes_of_not_mem (dashes_not_mem_flags shown)) isClassified followed]
  rfl

end Requests

/-! ## What is answered -/

/-- **An answer does not depend on where the text came from.** -/
theorem Settings.answer_ofFlags (flags : List String) (source source' : Source) (text : String) :
    (ofFlags flags source).answer text = (ofFlags flags source').answer text := by
  rw [answer, answer]
  cases compile text <;> rfl

theorem Outcome.after_nil (outcome : Outcome) : outcome.after [] = outcome :=
  congrArg (Outcome.mk outcome.exitCode outcome.stdout) String.empty_append

/-- A source that is not typed in is answered as soon as its text is known. -/
theorem run_of_text {flags arguments : List String} {source : Source} {env : Environment} {text : String}
    (asks : readArguments arguments = .ok (.compile (.ofFlags flags source))) (read : source.read env = .ok text)
    (notTyped : source.asked env = []) :
    run arguments env = (Settings.ofFlags flags .standardInput).answer text := by
  have answered : (Settings.ofFlags flags source).run env = _ := Settings.run_of_read read
  rw [run_of_compile asks, answered, Settings.answer_ofFlags flags source .standardInput]
  show Outcome.after _ (source.asked env) = _
  rw [notTyped, Outcome.after_nil]

/-- **The input channels agree.** Behind the same flags, a text without carriage returns is answered the same as words
behind a double dash, as one word there, from a file whose name is no switch, and from standard input that is not a
terminal. In files and on standard input its lines may end in any of the three ways. -/
theorem channels_agree (flags words : List String) (file : String)
    (shown : ∀ flag ∈ flags, flag = "--tokens" ∨ flag = "-v") (nonempty : words ≠ [])
    (noReturn : '\r' ∉ (" ".intercalate words).toList) (named : file ≠ "")
    (noSwitch : file.toList.head? ≠ some '-') :
    ∃ answer : Outcome, ∀ env : Environment,
      run (flags ++ "--" :: words) env = answer ∧
      run (flags ++ ["--", " ".intercalate words]) env = answer ∧
      ∀ ending : Text.LineEnding,
        let bytes := (ending.write (" ".intercalate words).toList).utf8Encode
        (env.file file = .ok bytes → run (flags ++ ["-f", file]) env = answer) ∧
        (env.input = bytes → env.terminal = false → run flags env = answer) := by
  refine ⟨(Settings.ofFlags flags .standardInput).answer (" ".intercalate words), fun env => ⟨?_, ?_, fun ending => ?_⟩⟩
  · exact run_of_text (readArguments_words shown nonempty) rfl rfl
  · exact run_of_text (readArguments_words shown (List.cons_ne_nil _ _)) rfl rfl
  · refine ⟨fun held => run_of_text (readArguments_file shown named noSwitch) ?_ rfl,
      fun held notTerminal => run_of_text (readArguments_flags shown) ?_ ?_⟩
    · rw [Source.read, held]
      exact decodeSource_write ending noReturn
    · rw [Source.read, held]
      exact decodeSource_write ending noReturn
    · rw [Source.asked, Source.prompts, notTerminal, Bool.and_false]
      rfl

/-- Words that look like switches, that are empty, or that hold a line feed and a letter of two bytes. -/
theorem channels_agree_odd_words :
    let words := ["-v", ":=", "", "--", "1.5 -\n\u03bb"]
    let text := (" ".intercalate words).toList
    ∃ answer : Outcome, ∀ env : Environment,
      env.file "p" = .ok (Text.LineEnding.both.write text).utf8Encode →
      env.input = (Text.LineEnding.carriageReturn.write text).utf8Encode → env.terminal = false →
        run (["--tokens", "-v"] ++ "--" :: words) env = answer ∧
        run ["--tokens", "-v", "--", "-v :=  -- 1.5 -\n\u03bb"] env = answer ∧
        run ["--tokens", "-v", "-f", "p"] env = answer ∧ run ["--tokens", "-v"] env = answer := by
  intro words text
  obtain ⟨answer, agree⟩ := channels_agree ["--tokens", "-v"] words "p" (by simp) (by decide) (by decide +kernel)
    (by decide) (by decide)
  refine ⟨answer, fun env held input notTerminal => ?_⟩
  obtain ⟨inWords, inOne, outside⟩ := agree env
  exact ⟨inWords, inOne, (outside .both).1 held, (outside .carriageReturn).2 input notTerminal⟩

end Mini.CommandLine
