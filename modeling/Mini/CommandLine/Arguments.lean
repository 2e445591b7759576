import Mini.CommandLine.Word

/-!
# Arguments

The arguments of a command line are read from left to right. Flags take effect as they are reached, and the
help flag ends the reading. The program is given by the first unbroken run of plain words; plain words after
a later switch, and unknown switches anywhere, are unrecognized, which is reported when everything has been
read. A double dash makes all words behind it plain and is dropped, unless the run is over by then.

These are the rules of argparse in version 3.11.0. Later versions differ where something is attached to a flag, as in
`-vx` and `-v=f`, where an equals sign follows the file letter in a cluster, as in `-vf=p`, and where a double dash is
attached to the file switch, as in `-f--`.

`readArguments` answers with what is asked for, or with the usage error.
-/

namespace Mini.CommandLine

/-- Where the file of a cluster of letters is named. -/
inductive FileValue where
  /-- There is no file switch. -/
  | absent
  /-- The rest of the word. -/
  | attached (name : String)
  /-- The next word. -/
  | next
  deriving DecidableEq, Repr

/-- What one word asks for: flags in order, and at the end perhaps a file. -/
structure Cluster where
  flags : List Flag
  file : FileValue
  deriving DecidableEq, Repr

/-- A switch with the letters behind it: a flag leaves them to further switches, the file switch takes them
as its value. -/
def Cluster.ofLetters (switch : Switch) (letters : List Char) : Except UsageError Cluster :=
  match switch, letters with
  | .file, [] => .ok ⟨[], .next⟩
  | .file, letters => .ok ⟨[], .attached (String.ofList letters)⟩
  | .flag flag, [] => .ok ⟨[flag], .absent⟩
  | .flag flag, letter :: more =>
    match Switch.ofLetter? letter with
    | none => .error (.valueIgnored (.flag flag) (String.ofList (letter :: more)))
    | some switch => do
      let cluster ← ofLetters switch more
      return { cluster with flags := flag :: cluster.flags }

/-- What a switch with its attached text asks for. Text attached to a flag that was named by its letter is
further letters; any other value of a flag is an error, the empty one included. -/
def Cluster.ofSwitch (switch : Switch) (style : Style) (attached : Option String) :
    Except UsageError Cluster :=
  match switch, attached with
  | switch, none => ofLetters switch []
  | .file, some value => .ok ⟨[], .attached value⟩
  | .flag flag, some value =>
    if style = .letter ∧ value ≠ "" then ofLetters (.flag flag) value.toList
    else .error (.valueIgnored (.flag flag) value)

/-- What has been read so far. -/
structure Reading where
  tokens : Bool
  verbose : Bool
  file : Option String
  words : List String
  /-- The run of plain words is over. -/
  closed : Bool
  unrecognized : List String
  deriving DecidableEq, Repr

/-- Why reading ends early. -/
inductive Stop where
  | help
  | usage (error : UsageError)
  deriving DecidableEq, Repr

namespace Reading

/-- Nothing read. -/
def start : Reading := ⟨false, false, none, [], false, []⟩

/-- A plain word: part of the program while the run lasts. -/
def plain (r : Reading) (text : String) : Reading :=
  if r.closed then { r with unrecognized := r.unrecognized ++ [text] }
  else { r with words := r.words ++ [text] }

/-- A word that is not plain ends the run, if it has begun. -/
def interrupt (r : Reading) : Reading :=
  { r with closed := !r.words.isEmpty }

/-- An unknown switch. -/
def unknown (r : Reading) (text : String) : Reading :=
  { r.interrupt with unrecognized := r.unrecognized ++ [text] }

/-- A flag takes effect. -/
def flag (r : Reading) : Flag → Except Stop Reading
  | .help => .error .help
  | .tokens => .ok { r with tokens := true }
  | .verbose => .ok { r with verbose := true }

/-- A file is named; of several the last one counts. The empty name and the double dash name none. -/
def named (r : Reading) (file : String) : Reading :=
  { r with file := if file = "" ∨ file = "--" then none else some file }

/-- All words before the double dash. A value of the file switch has to be a plain word, and it is looked
for before the flags in front of the switch take effect. -/
def follow (r : Reading) : List Word → Except Stop Reading
  | [] => .ok r
  | .plain text :: rest => (r.plain text).follow rest
  | .unknown text :: rest => (r.unknown text).follow rest
  | .known switch style attached :: rest =>
    match Cluster.ofSwitch switch style attached with
    | .error e => .error (.usage e)
    | .ok ⟨flags, .absent⟩ => do
      let r ← flags.foldlM flag r.interrupt
      r.follow rest
    | .ok ⟨flags, .attached name⟩ => do
      let r ← flags.foldlM flag r.interrupt
      (r.named name).follow rest
    | .ok ⟨flags, .next⟩ =>
      match rest with
      | .plain name :: rest => do
        let r ← flags.foldlM flag r.interrupt
        (r.named name).follow rest
      | _ => .error (.usage (.valueMissing .file))

/-- The words behind a double dash: they continue the run, or else have no place, as the dash itself. -/
def finish (r : Reading) (behind : List String) : Reading :=
  if r.closed then { r with unrecognized := r.unrecognized ++ "--" :: behind }
  else { r with words := r.words ++ behind }

end Reading

/-- Where the program comes from. -/
inductive Source where
  /-- From the command line itself. -/
  | words (words : List String)
  | file (name : String)
  | standardInput
  deriving DecidableEq, Repr

/-- What to compile and what to show. -/
structure Settings where
  tokens : Bool
  verbose : Bool
  source : Source
  deriving DecidableEq, Repr

/-- What a command line asks for. -/
inductive Request where
  | help
  | compile (settings : Settings)
  deriving DecidableEq, Repr

/-- A reading that came to its end, as settings. -/
def Reading.settings (r : Reading) : Except UsageError Settings :=
  if r.unrecognized ≠ [] then .error (.unrecognized r.unrecognized)
  else
    match r.words, r.file with
    | [], none => .ok ⟨r.tokens, r.verbose, .standardInput⟩
    | [], some name => .ok ⟨r.tokens, r.verbose, .file name⟩
    | words, none => .ok ⟨r.tokens, r.verbose, .words words⟩
    | _, some _ => .error .twoSources

/-- The words before the first double dash, and the words behind it if there is one. -/
def splitAtDashes (arguments : List String) : List String × Option (List String) :=
  match arguments.dropWhile (· ≠ "--") with
  | [] => (arguments, none)
  | _ :: behind => (arguments.takeWhile (· ≠ "--"), some behind)

/-- What the arguments ask for, or why they cannot be followed. -/
def readArguments (arguments : List String) : Except UsageError Request := do
  let (front, behind) := splitAtDashes arguments
  let words ← front.mapM Word.ofString
  match Reading.start.follow words with
  | .error .help => return .help
  | .error (.usage e) => throw e
  | .ok r =>
    let r := match behind with
      | none => r
      | some behind => r.finish behind
    return .compile (← r.settings)

/-! ## The cases of reading -/

namespace Reading

theorem follow_nil (r : Reading) : r.follow [] = .ok r := rfl

theorem follow_tokens (r : Reading) (style : Style) (rest : List Word) :
    r.follow (.known (.flag .tokens) style none :: rest) = { r.interrupt with tokens := true }.follow rest := rfl

theorem follow_verbose (r : Reading) (style : Style) (rest : List Word) :
    r.follow (.known (.flag .verbose) style none :: rest) = { r.interrupt with verbose := true }.follow rest := rfl

theorem follow_file (r : Reading) (style : Style) (name : String) (rest : List Word) :
    r.follow (.known .file style none :: .plain name :: rest) = (r.interrupt.named name).follow rest := rfl

end Reading

section Dashes

variable {arguments front behind : List String} {words : List Word} {r : Reading}

theorem splitAtDashes_append (noDashes : "--" ∉ front) (behind : List String) :
    splitAtDashes (front ++ "--" :: behind) = (front, some behind) := by
  have kept : ∀ word ∈ front, decide (word ≠ "--") = true := fun word mem =>
    decide_eq_true fun same => noDashes (same ▸ mem)
  rw [splitAtDashes, List.dropWhile_append_of_pos kept, List.takeWhile_append_of_pos kept]
  simp

theorem splitAtDashes_of_not_mem (noDashes : "--" ∉ front) : splitAtDashes front = (front, none) := by
  have kept : ∀ word ∈ front, decide (word ≠ "--") = true := fun word mem =>
    decide_eq_true fun same => noDashes (same ▸ mem)
  have dropped : (front ++ []).dropWhile (· ≠ "--") = [] := List.dropWhile_append_of_pos kept
  rw [List.append_nil] at dropped
  rw [splitAtDashes, dropped]

theorem readArguments_of_follow (split : splitAtDashes arguments = (front, none))
    (classified : front.mapM Word.ofString = .ok words) (followed : Reading.start.follow words = .ok r) :
    readArguments arguments = r.settings.map .compile := by
  rw [readArguments, split]
  show (front.mapM Word.ofString >>= _) = _
  rw [classified]
  refine (pure_bind words _).trans ?_
  rw [followed]
  show r.settings >>= _ = _
  cases r.settings <;> rfl

theorem readArguments_of_follow_behind (split : splitAtDashes arguments = (front, some behind))
    (classified : front.mapM Word.ofString = .ok words) (followed : Reading.start.follow words = .ok r) :
    readArguments arguments = (r.finish behind).settings.map .compile := by
  rw [readArguments, split]
  show (front.mapM Word.ofString >>= _) = _
  rw [classified]
  refine (pure_bind words _).trans ?_
  rw [followed]
  show (r.finish behind).settings >>= _ = _
  cases (r.finish behind).settings <;> rfl

end Dashes

end Mini.CommandLine
