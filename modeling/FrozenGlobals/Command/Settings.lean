import FrozenGlobals.Analysis.State
import FrozenGlobals.Command.Flags
import FrozenGlobals.Command.World
import FrozenGlobals.Document.Reader
import FrozenGlobals.Host.Tree
import FrozenGlobals.Rendering

/-!
# Settings of a check

Settings come from a file and from flags, which count more. A settings file is a mapping with known
keys, each at most once; a key without a value leaves its setting as it is.
-/

namespace FrozenGlobals.Command

open Document (Scalar)

/-- What a check can be told. -/
structure Settings where
  /-- The file with the globals. -/
  globals : String
  maxCallDepth : Option Int
  strict : Option Bool
  warnings : Option Bool
  logLevel : String
  maxSchemaDepth : Option Int
  format : String
  color : String
  context : Int
  tabWidth : Int
  sections : List String
deriving DecidableEq, Repr, Inhabited

namespace Settings

def empty : Settings :=
  { globals := "", maxCallDepth := none, strict := none, warnings := none, logLevel := ""
    maxSchemaDepth := none, format := "", color := "", context := 0, tabWidth := 0, sections := [] }

/-! ## Values in a settings file -/

/-- A node without a value. -/
def isNull : Document → Bool
  | .scalar _ text false => Scalar.ofPlain text == .null
  | _ => false

/-- The text of a scalar of any kind. -/
def text? : Document → Option String
  | .scalar _ text _ => some text
  | _ => none

/-- A word of 64 bits. A real number loses its fraction; one below all words counts as the least. -/
def integer? : Document → Option Int
  | .scalar _ text false =>
      match Scalar.ofPlain text with
      | .integer negative magnitude =>
          if negative then some (-magnitude)
          else if magnitude < Nat.pow 2 63 then some magnitude
          else none
      | .real (.infinite true) => some (-Nat.pow 2 63)
      | .real (.finite negative mantissa exponent) =>
          let i := (Number.Binary64.finite negative mantissa exponent).truncate
          if Nat.pow 2 63 < i then none
          else if i < -Nat.pow 2 63 || i == Nat.pow 2 63 then some (-Nat.pow 2 63)
          else some i
      | _ => none
  | _ => none

/-- A truth value, which many words name. -/
def bool? : Document → Option Bool
  | .scalar _ text quoted =>
      match if quoted then Scalar.text else Scalar.ofPlain text with
      | .bool value => some value
      | .text =>
          if ["y", "Y", "yes", "Yes", "YES", "on", "On", "ON"].contains text then some true
          else if ["n", "N", "no", "No", "NO", "off", "Off", "OFF"].contains text then some false
          else none
      | _ => none
  | _ => none

/-- The texts of a sequence of scalars, items without a value left out. -/
def texts? : Document → Option (List String)
  | .sequence _ items => (items.filter (!isNull ·)).mapM text?
  | _ => none

/-- Sets what a key of a settings file says. -/
def set? (s : Settings) (key : String) (d : Document) : Option Settings :=
  match key with
  | "globals" => (text? d).map fun v => { s with globals := v }
  | "maxCallDepth" => (integer? d).map fun v => { s with maxCallDepth := some v }
  | "strict" => (bool? d).map fun v => { s with strict := some v }
  | "warnings" => (bool? d).map fun v => { s with warnings := some v }
  | "logLevel" => (text? d).map fun v => { s with logLevel := v }
  | "maxSchemaDepth" => (integer? d).map fun v => { s with maxSchemaDepth := some v }
  | "format" => (text? d).map fun v => { s with format := v }
  | "color" => (text? d).map fun v => { s with color := v }
  | "context" => (integer? d).map fun v => { s with context := v }
  | "tabWidth" => (integer? d).map fun v => { s with tabWidth := v }
  | "sections" => (texts? d).map fun v => { s with sections := v }
  | _ => none

/-- The keys of a settings file. -/
def keys : List String :=
  ["globals", "maxCallDepth", "strict", "warnings", "logLevel", "maxSchemaDepth", "format", "color",
   "context", "tabWidth", "sections"]

/-- Sets what the entries of a settings file say. -/
def ofEntries? : List (String × Document) → Settings → Option Settings
  | [], s => some s
  | (key, d) :: rest, s =>
      if !keys.contains key || rest.any fun (k, _) => k == key then none
      else if isNull d then ofEntries? rest s
      else (s.set? key d).bind (ofEntries? rest)

/-- The settings in the text of a file. -/
def ofText? (text : String) : Option Settings :=
  match Document.read text with
  | .nothing => some empty
  | .malformed => none
  | .node d =>
      if isNull d then some empty
      else if d.isMapping then ofEntries? d.entries empty
      else none

/-! ## Where settings come from -/

/-- The settings file that is read when none is named. -/
def standardFile : String := ".nomut.yaml"

/-- The flags of a check. -/
def flags : List Flag :=
  [⟨"config", "config file", .text standardFile⟩,
   ⟨"globals", "YAML or JSON file holding the globals object", .text ""⟩,
   ⟨"max-call-depth", "max nested function invocations; negative means unbounded", .integer 100⟩,
   ⟨"strict", "fail on unsupported constructs", .switch true⟩,
   ⟨"warnings", "print precision-loss warnings", .switch true⟩,
   ⟨"log-level", "analysis log level: error, warn, info, debug", .text ""⟩,
   ⟨"format", "output format: text, json, yaml", .text "text"⟩,
   ⟨"color", "colour text output: auto, always, never", .text "auto"⟩,
   ⟨"context", "source lines shown around each excerpt", .integer 0⟩,
   ⟨"sections", "comma-separated text sections: message, location, excerpt, path", .text ""⟩]

/-- Flags override what a file says. -/
def override (s : Settings) (a : Arguments) : Settings :=
  { s with
    globals := (a.text? "globals").getD s.globals
    maxCallDepth := a.integer? "max-call-depth" <|> s.maxCallDepth
    strict := a.switch? "strict" <|> s.strict
    warnings := a.switch? "warnings" <|> s.warnings
    logLevel := (a.text? "log-level").getD s.logLevel
    format := (a.text? "format").getD s.format
    color := (a.text? "color").getD s.color
    context := (a.integer? "context").getD s.context
    sections := ((a.text? "sections").map (·.splitOn ",")).getD s.sections }

/-- Reads the settings file. The standard file may be missing if it was not asked for. -/
def load {m : Type → Type} [Monad m] (world : World m) (a : Arguments) :
    m (Except String Settings) := do
  let path := (a.text? "config").getD standardFile
  match ← world.file path with
  | .ok text =>
      match ofText? text with
      | some s => return .ok s
      | none => return .error ("failed to parse config " ++ path ++ ": not a mapping of settings")
  | .error (.missing missing) =>
      if (a.text? "config").isNone then return .ok empty
      else return .error ("failed to read config: " ++ (FileFault.missing missing).message)
  | .error fault => return .error ("failed to read config: " ++ fault.message)

/-! ## What settings mean -/

/-- The level that is logged, if one is asked for. -/
def level? (s : Settings) : Option Log.Level :=
  if s.logLevel.isEmpty then none else some (Log.Level.parse s.logLevel)

/-- The options of the analyses. What is logged goes where the command writes it. -/
def options (s : Settings) : Options :=
  let standard := Options.standard
  { standard with
    maxCallDepth := s.maxCallDepth.getD standard.maxCallDepth
    strict := s.strict.getD standard.strict
    warnings := s.warnings.getD standard.warnings
    maxSchemaDepth := s.maxSchemaDepth.getD standard.maxSchemaDepth
    logLevel := s.level?
    logger := s.level?.map .text }

/-- Whether text is coloured: as it is asked for, or else on a terminal. -/
def isColored {m : Type → Type} (world : World m) (s : Settings) : Bool :=
  if s.color == "always" then true
  else if s.color == "never" then false
  else !world.noColor && world.terminal

/-- How diagnostics are to be shown. -/
def layoutRequest {m : Type → Type} (world : World m) (s : Settings) : Rendering.LayoutRequest :=
  { sections := s.sections, context := s.context, tabWidth := s.tabWidth
    color := s.isColored world }

/-- The globals in the text of a file: a mapping, or nothing. -/
def globalsOfText? (text : String) : Option (List (String × Host.Tree)) :=
  match Document.read text with
  | .nothing => some []
  | .malformed => none
  | .node d =>
      match Host.Tree.ofDocument? d with
      | some .null => some []
      | some (.record entries) => some entries
      | _ => none

/-- Reads the globals. -/
def loadGlobals {m : Type → Type} [Monad m] (world : World m) (s : Settings) :
    m (Except String (List (String × Host.Tree))) := do
  if s.globals.isEmpty then return .ok []
  match ← world.file s.globals with
  | .error fault => return .error ("failed to read globals: " ++ fault.message)
  | .ok text =>
      match globalsOfText? text with
      | some entries => return .ok entries
      | none =>
          return .error ("failed to parse globals " ++ s.globals ++ ": not a mapping of globals")

end Settings

end FrozenGlobals.Command
