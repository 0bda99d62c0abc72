import FrozenGlobals.Command.LintDescription
import FrozenGlobals.Command.Outline
import Std.Time.DateTime.Timestamp

/-!
# Command line

The first argument names a command, and the others are the command's own.
-/

namespace FrozenGlobals.Command

/-- Reads a file. -/
def openFile (path : String) : IO (Except FileFault String) := do
  try
    return .ok (← IO.FS.readFile path)
  catch
    | .noFileOrDirectory .. => return .error (.missing path)
    | .inappropriateType .. => return .error (.directory path)
    | e => return .error (.other path (toString e))

/-- Reads a stream to its end. -/
partial def readAll (stream : IO.FS.Stream) (done : String) : IO String := do
  let line ← stream.getLine
  if line.isEmpty then return done else readAll stream (done ++ line)

/-- The world as this process sees it. -/
def thisWorld : IO (World IO) := do
  let now := (← Std.Time.Timestamp.now).toNanosecondsSinceUnixEpoch.val
  let noColor := ((← IO.getEnv "NO_COLOR").getD "") != ""
  let terminal ← (← IO.getStdout).isTty
  return {
    file := openFile
    input := do readAll (← IO.getStdin) ""
    noColor, terminal
    labels := ⟨Log.timestamp (now / 1000), "a1", "0s"⟩ }

/-- Runs the command that the first argument names. -/
def runNamed (world : World IO) : List String → IO Outcome
  | "nomut" :: args => Check.run world args
  | "inspect-ast" :: args => Outline.run world args
  | "lint-openapi" :: args => LintDescription.run world args
  | _ => return .exit 2 "" "usage: (nomut | inspect-ast | lint-openapi) arguments...\n"

end FrozenGlobals.Command

open FrozenGlobals.Command in
/-- Runs a command, writes what it writes and exits as it does. -/
def main (args : List String) : IO UInt32 := do
  match ← runNamed (← thisWorld) args with
  | .exit code output errors =>
      IO.print output
      IO.eprint errors
      return code.toUInt32
  | .crash reason =>
      IO.eprintln reason
      return 2
