import Mini.CommandLine.Run

/-!
# The command

Fetches what the command line asks for, runs it, and hands over what it answers. The prompt for a terminal is
written before standard input is read.
-/

namespace Mini.CommandLine

/-- A failed reading of a file as a fault. -/
def FileFault.ofError : IO.Error → FileFault
  | .noFileOrDirectory .. => .missing
  | .inappropriateType _ _ details =>
    if details.toLower = "is a directory" then .isDirectory else .notDirectory
  | .invalidArgument _ _ details =>
    if details = "name too long" then .nameTooLong else .other details.capitalize
  | .permissionDenied _ _ details => .other details.capitalize
  | e => .other (toString e)

/-- The world as far as a source needs it. -/
def Source.environment (source : Source) : IO Environment := do
  let nothing : Environment := ⟨fun _ => .error .missing, .empty, false⟩
  match source with
  | .words _ => return nothing
  | .file name =>
    let content ← (IO.FS.readBinFile name).toBaseIO
    return { nothing with file := fun _ => content.mapError FileFault.ofError }
  | .standardInput =>
    let stdin ← IO.getStdin
    if ← stdin.isTty then
      IO.eprintln prompt
    return { nothing with input := ← stdin.readBinToEnd }

/-- The world as far as the arguments need it. -/
def environment (arguments : List String) : IO Environment :=
  match readArguments arguments with
  | .ok (.compile settings) => settings.source.environment
  | .ok .help | .error _ => Source.environment (.words [])

end Mini.CommandLine

/-- The command line of Mini. -/
def main (arguments : List String) : IO UInt32 := do
  let env ← Mini.CommandLine.environment arguments
  let outcome := Mini.CommandLine.run arguments env
  IO.print outcome.stdout
  IO.eprint outcome.stderr
  return outcome.exitCode.toUInt32
