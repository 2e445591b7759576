import Mini.CommandLine.Source
import Mini.Compilation

/-!
# Running a command line

A command line answers with an exit code and with what it writes to standard output and standard error. The
exit code is 0 when help was asked for or the program compiled, 1 when it did not compile, and 2 when the
arguments could not be followed or the source could not be read. Standard output is empty unless the code
is 0.

Tokens are shown by their lines, since the positions of a source can all be written (`positions_written`).

The verbose flag adds to standard error one line for each step that was completed.
-/

namespace Mini.CommandLine

/-- What a command line answers with. -/
structure Outcome where
  exitCode : Nat
  stdout : String
  stderr : String
  deriving DecidableEq, Repr

/-- Lines as text, each ended. -/
def unlines (lines : List String) : String :=
  String.join (lines.map (· ++ "\n"))

/-- How the command is used, in one line. -/
def usage : String := "usage: minilang [-h] [-f FILE] [--tokens] [-v] [source ...]"

/-- What the help flag shows. -/
def help : List String :=
  [usage,
   "",
   "Tokenize and parse a Mini program, then print its syntax tree.",
   "",
   "positional arguments:",
   "  source                Mini source; multiple arguments are joined with spaces",
   "                        (default: stdin)",
   "",
   "options:",
   "  -h, --help            show this help message and exit",
   "  -f FILE, --file FILE  read the program from this file",
   "  --tokens              also print the token stream",
   "  -v, --verbose         enable debug logging"]

/-- What a terminal is asked for. -/
def prompt : String := "Enter Mini program (Ctrl+D to finish):"

/-- The line for reading tokens as a program, if that was completed. -/
def parsed (tokens : List Token) : Except ParseError Program → List String
  | .error _ => []
  | .ok program =>
    [s!"DEBUG minilang.parser.parser: Parsed {program.statements.length} statements" ++
      s!" from {tokens.length} tokens"]

/-- The lines for cutting a source into tokens and for what follows, as far as that was completed. -/
def tokenized (source : String) : Except CompilationError (List Token) → List String
  | .error _ => []
  | .ok tokens =>
    s!"DEBUG minilang.lexer.lexer: Tokenized {source.length} characters into {tokens.length} tokens" ::
      parsed tokens (Program.ofTokens tokens)

/-- One line for each completed step of compiling a source: reading it, cutting it into tokens, and reading
these as a program. -/
def steps (source : String) : List String :=
  s!"DEBUG minilang.cli: Read {source.length} characters of source" :: tokenized source (tokenize source)

/-- What is shown of a program: its tokens if they are asked for, and its outline. -/
def report (tokens : Bool) (c : Compilation) : List String :=
  (if tokens then "=== Tokens ===" :: c.tokens.map Token.line ++ [""] else []) ++
    ["=== Abstract Syntax Tree ===", (Node.program c.program).outline 0, "",
     "Program is syntactically correct."]

/-- The lines that the verbose flag adds. -/
def Settings.log (settings : Settings) (source : String) : List String :=
  if settings.verbose then steps source else []

/-- What is answered to the outcome of compiling a source text. -/
def Settings.answerTo (settings : Settings) (source : String) : Except CompilationError Compilation → Outcome
  | .ok c => ⟨0, unlines (report settings.tokens c), unlines (settings.log source)⟩
  | .error e => ⟨1, "", unlines (settings.log source ++ [s!"Compilation error: {e.message}"])⟩

/-- Compiling a source text and showing the program. -/
def Settings.answer (settings : Settings) (source : String) : Outcome :=
  settings.answerTo source (compile source)

/-- What is answered to the outcome of reading the source. -/
def Settings.answerRead (settings : Settings) : Except ReadError String → Outcome
  | .ok source => settings.answer source
  | .error e => ⟨2, "", unlines [s!"Cannot read {settings.source.origin}: {e.message}"]⟩

/-- The line that asks for a source where someone has to type it. -/
def Source.asked (env : Environment) (source : Source) : List String :=
  if source.prompts env then [prompt] else []

/-- An answer that comes after lines on standard error. -/
def Outcome.after (outcome : Outcome) (lines : List String) : Outcome :=
  ⟨outcome.exitCode, outcome.stdout, unlines lines ++ outcome.stderr⟩

/-- Reading the source and compiling it. -/
def Settings.run (settings : Settings) (env : Environment) : Outcome :=
  (settings.answerRead (settings.source.read env)).after (settings.source.asked env)

/-- What a command line with these arguments does. -/
def run (arguments : List String) (env : Environment) : Outcome :=
  match readArguments arguments with
  | .error e => ⟨2, "", unlines [usage, s!"minilang: error: {e.message}"]⟩
  | .ok .help => ⟨0, unlines help, ""⟩
  | .ok (.compile settings) => settings.run env

/-! ## Lines as text -/

theorem unlines_append (first second : List String) : unlines (first ++ second) = unlines first ++ unlines second := by
  rw [unlines, List.map_append, String.join_append]
  rfl

section Cases

variable {settings : Settings} {source : String} {env : Environment} {arguments : List String}

theorem Settings.run_of_read (h : settings.source.read env = .ok source) :
    settings.run env = (settings.answer source).after (settings.source.asked env) := by
  rw [Settings.run, h, Settings.answerRead]

theorem Settings.run_of_readError {e : ReadError} (h : settings.source.read env = .error e) :
    settings.run env = ⟨2, "", unlines (settings.source.asked env) ++
      unlines [s!"Cannot read {settings.source.origin}: {e.message}"]⟩ := by
  rw [Settings.run, h, Settings.answerRead, Outcome.after]

theorem run_of_compile (h : readArguments arguments = .ok (.compile settings)) :
    run arguments env = settings.run env := by
  rw [run, h]

end Cases

end Mini.CommandLine
