import Mini.CommandLine.Arguments
import Mini.Text.Newline
import Mini.Text.Utf8

/-!
# Sources

The program comes from the words of the command line, from a file, or from standard input. Words are joined
by single spaces and taken as they are. Files and standard input are bytes: they are decoded as strict UTF-8,
and every line ending becomes a line feed. Bytes that cannot be had, or cannot be decoded, are a read error.
-/

namespace Mini.CommandLine

/-- Why the bytes of a file cannot be had. -/
inductive FileFault where
  | missing
  | isDirectory
  | notDirectory
  | nameTooLong
  /-- Any other reason, in the system's words. -/
  | other (reason : String)
  deriving DecidableEq, Repr

/-- The wording of a file fault. -/
def FileFault.message : FileFault → String
  | .missing => "No such file or directory"
  | .isDirectory => "Is a directory"
  | .notDirectory => "Not a directory"
  | .nameTooLong => "File name too long"
  | .other reason => reason

/-- Why there is no source text. -/
inductive ReadError where
  | file (fault : FileFault)
  /-- The bytes from an offset on encode no character. -/
  | notUtf8 (offset : Nat)
  deriving DecidableEq, Repr

/-- The wording of a read error. -/
def ReadError.message : ReadError → String
  | .file fault => fault.message
  | .notUtf8 offset => s!"not valid UTF-8 (byte {offset})"

/-- What a command line can see of the world: files by name, and standard input, which may be a terminal. -/
structure Environment where
  file : String → Except FileFault ByteArray
  input : ByteArray
  terminal : Bool

/-- The text that bytes from outside hold. -/
def decodeSource (bytes : ByteArray) : Except ReadError String :=
  match Text.decodeUtf8 bytes with
  | .ok text => .ok (String.ofList (Text.unifyNewlines text))
  | .error offset => .error (.notUtf8 offset)

namespace Source

/-- What a read error calls the source. -/
def origin : Source → String
  | .file name => name
  | .words _ | .standardInput => "standard input"

/-- The text of a source. -/
def read (env : Environment) : Source → Except ReadError String
  | .words list => .ok (" ".intercalate list)
  | .file name =>
    match env.file name with
    | .ok bytes => decodeSource bytes
    | .error fault => .error (.file fault)
  | .standardInput => decodeSource env.input

/-- Whether reading the source waits for someone to type. -/
def prompts (env : Environment) (source : Source) : Bool :=
  source = .standardInput && env.terminal

end Source

end Mini.CommandLine
