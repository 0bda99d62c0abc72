import FrozenGlobals.Log

/-!
# What commands see and do

A command reads files and its input through a `World` and ends with an `Outcome`. What it writes is
part of the outcome, so that running a command needs no effects but reading.
-/

namespace FrozenGlobals.Command

/-- Why a file cannot be read. -/
inductive FileFault where
  | missing (path : String)
  | directory (path : String)
  | other (path reason : String)
deriving DecidableEq, Repr, Inhabited

def FileFault.message : FileFault → String
  | .missing path => "open " ++ path ++ ": no such file or directory"
  | .directory path => "read " ++ path ++ ": is a directory"
  | .other path reason => "open " ++ path ++ ": " ++ reason

/-- What a command sees of the world. -/
structure World (m : Type → Type) where
  file : String → m (Except FileFault String)
  input : m String
  /-- The environment asks for text without colour. -/
  noColor : Bool
  /-- The output goes to a terminal. -/
  terminal : Bool
  /-- What log lines say about the run. -/
  labels : Log.Labels

/-- How a command ends. -/
inductive Outcome where
  | exit (code : Nat) (output errors : String)
  /-- The command broke down. -/
  | crash (reason : String)
deriving DecidableEq, Repr, Inhabited

end FrozenGlobals.Command
