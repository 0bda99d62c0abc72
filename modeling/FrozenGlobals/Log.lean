import FrozenGlobals.Log.Timestamp
import FrozenGlobals.Text.Blank
import FrozenGlobals.Text.Quoted

/-!
# Logging

An analysis records what it does as entries: a level, a message and named fields. Entries are data
that nothing reads back; they become text when they are written, and only then is it settled what
the clock says and how the run is named.
-/

namespace FrozenGlobals.Log

/-- How much an entry matters, the most important first. -/
inductive Level where
  | error | warn | info | debug
deriving DecidableEq, Repr, Inhabited

namespace Level

def all : List Level := [.error, .warn, .info, .debug]

def name : Level → String
  | .error => "ERROR"
  | .warn => "WARN"
  | .info => "INFO"
  | .debug => "DEBUG"

def rank : Level → Nat
  | .error => 0
  | .warn => 1
  | .info => 2
  | .debug => 3

/-- The name of the level with a given rank. -/
def nameOfRank (i : Int) : String :=
  match all.find? fun l => (l.rank : Int) == i with
  | some l => l.name
  | none => "UNKNOWN"

/-- The level a text names, in any case. Unknown texts mean warnings. -/
def parse (s : String) : Level :=
  let s := String.ofList (s.toList.map Text.upper)
  (all.find? fun l => l.name == s).getD .warn

end Level

/-- The value of a field. -/
inductive Field where
  /-- A text, quoted if it holds blanks or controls. -/
  | text (s : String)
  /-- A text written as it stands. -/
  | literal (s : String)
  /-- The name of the run. -/
  | runName
  /-- The time since the start of the run. -/
  | elapsed
deriving DecidableEq, Repr, Inhabited

/-- Named fields. -/
abbrev Fields := List (String × Field)

/-- What is known only when entries are written. -/
structure Labels where
  timestamp : String
  runName : String
  elapsed : String

namespace Field

def ofNat (n : Nat) : Field := .literal (toString n)
def ofInt (i : Int) : Field := .literal (toString i)

/-- Text that holds a blank or control is quoted. -/
def quoteIfNeeded (s : String) : String :=
  if s.toList.any fun c => c ≤ ' ' then Text.quote s else s

def render (labels : Labels) : Field → String
  | .text s => quoteIfNeeded s
  | .literal s => s
  | .runName => quoteIfNeeded labels.runName
  | .elapsed => quoteIfNeeded labels.elapsed

end Field

/-- Fields with others added; a later field replaces one of the same name. -/
def Fields.merge (fields more : Fields) : Fields :=
  fields.filter (fun (k, _) => !more.any fun (j, _) => j == k) ++ more

/-- Fields as pairs by ascending name. -/
def Fields.render (labels : Labels) (fields : Fields) : String :=
  String.join ((fields.mergeSort fun a b => a.1 ≤ b.1).map fun (k, v) =>
    " " ++ k ++ "=" ++ v.render labels)

/-- A line of a log. -/
def line (level : String) (timestamp : Option String) (message fields : String) : String :=
  "[" ++ level ++ "] " ++ (match timestamp with
    | some t => t ++ " "
    | none => "") ++ message ++ fields ++ "\n"

/-- What was recorded at one moment. -/
structure Entry where
  level : Level
  message : String
  fields : Fields
deriving DecidableEq, Repr, Inhabited

/-- The line of an entry. -/
def Entry.render (labels : Labels) (e : Entry) : String :=
  line e.level.name (some labels.timestamp) e.message (Fields.render labels e.fields)

/-- Where entries go. A logger is handed one entry after another and decides what it keeps. -/
structure Logger where
  accept : Array Entry → Entry → Array Entry
deriving Inhabited

/-- Keeps the entries that matter at least as much as a level. -/
def Logger.text (threshold : Level) : Logger where
  accept kept e := if e.level.rank ≤ threshold.rank then kept.push e else kept

end FrozenGlobals.Log
