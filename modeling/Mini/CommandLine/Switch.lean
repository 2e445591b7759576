import Mini.Text.Quoted

/-!
# Switches

The switches of the command line: three flags, and one that takes a value, the file to read. Each has a long
name, and all but one have a letter. The usage errors stand beside them, because their wording names switches.
-/

namespace Mini.CommandLine

/-- Switches without a value. -/
inductive Flag where
  | help
  | tokens
  | verbose
  deriving DecidableEq, Repr

/-- All switches. -/
inductive Switch where
  | flag (flag : Flag)
  | file
  deriving DecidableEq, Repr

namespace Switch

/-- Every switch, in the order of the help text. -/
def all : List Switch :=
  [.flag .help, .file, .flag .tokens, .flag .verbose]

/-- The long name, behind two dashes. -/
def longName : Switch → String
  | .flag .help => "help"
  | .file => "file"
  | .flag .tokens => "tokens"
  | .flag .verbose => "verbose"

/-- The letter, behind one dash. -/
def letter? : Switch → Option Char
  | .flag .help => some 'h'
  | .file => some 'f'
  | .flag .tokens => none
  | .flag .verbose => some 'v'

/-- The switch with a letter. -/
def ofLetter? (letter : Char) : Option Switch :=
  all.find? fun switch => switch.letter? == some letter

/-- All spellings of a switch, as errors name it. -/
def spelling (switch : Switch) : String :=
  match switch.letter? with
  | some letter => s!"-{letter}/--{switch.longName}"
  | none => s!"--{switch.longName}"

end Switch

/-- Why the arguments of a command line cannot be followed. -/
inductive UsageError where
  /-- A word that begins the long names of several switches. -/
  | ambiguous (word : String) (candidates : List Switch)
  /-- The file switch without a file. -/
  | valueMissing (switch : Switch)
  /-- A flag with a value. -/
  | valueIgnored (switch : Switch) (value : String)
  /-- Words that have no place. -/
  | unrecognized (words : List String)
  /-- A program both as words and in a file. -/
  | twoSources
  deriving DecidableEq, Repr

/-- The wording of a usage error. -/
def UsageError.message : UsageError → String
  | .ambiguous word candidates =>
    let names := ", ".intercalate (candidates.map fun switch => "--" ++ switch.longName)
    s!"ambiguous option: {word} could match {names}"
  | .valueMissing switch => s!"argument {switch.spelling}: expected one argument"
  | .valueIgnored switch value =>
    s!"argument {switch.spelling}: ignored explicit argument {Text.quote value}"
  | .unrecognized words => "unrecognized arguments: " ++ " ".intercalate words
  | .twoSources => "give the program either as arguments or with --file, not both"

end Mini.CommandLine
