import FrozenGlobals.Document
import FrozenGlobals.Text.Blank
import FrozenGlobals.Text.Units

/-!
# Reading documents

Documents are written in brackets and braces, with strings in double quotes. Plain scalars reach to
the next blank or bracket. A text may also be a block mapping: lines of a name, a colon and a plain
scalar.
-/

namespace FrozenGlobals.Document

open Text (ofUnits charOf? fixedHex?)

/-- How strictly documents are read. -/
inductive Dialect where
  /-- Plain scalars are `null`, `true`, `false` and decimal numbers; escaped surrogates may form
  pairs. -/
  | strict
  /-- Plain scalars are any text without marks; escaped surrogates are refused. -/
  | loose
deriving DecidableEq, Repr

/-- A place in a text: the line, counted from one, and the characters ahead. -/
abbrev Place := Nat × List Char

/-- Skips blanks. -/
def skipBlanks : Nat → List Char → Place
  | line, [] => (line, [])
  | line, c :: rest =>
      if c == '\n' then skipBlanks (line + 1) rest
      else if c == ' ' || c == '\t' || c == '\r' then skipBlanks line rest
      else (line, c :: rest)

/-- The unit an escape stands for and the number of characters behind the backslash. -/
def escape? : List Char → Option (Nat × Nat)
  | 'n' :: _ => some (10, 1)
  | 't' :: _ => some (9, 1)
  | 'r' :: _ => some (13, 1)
  | 'b' :: _ => some (8, 1)
  | 'f' :: _ => some (12, 1)
  | '"' :: _ => some ('"'.toNat, 1)
  | '\\' :: _ => some ('\\'.toNat, 1)
  | '/' :: _ => some ('/'.toNat, 1)
  | 'u' :: rest => (fixedHex? 4 rest 0).map (·, 5)
  | _ => none

/-- The units of a string up to its closing quote, and the characters behind it. -/
def stringUnits? (dialect : Dialect) : List Char → Option (List Nat × List Char)
  | [] => none
  | c :: rest =>
      if c == '"' then some ([], rest)
      else if c == '\\' then
        match escape? rest with
        | some (unit, count) =>
            if dialect == .loose && (charOf? unit).isNone then none
            else (stringUnits? dialect (rest.drop count)).map fun (units, left) =>
              (unit :: units, left)
        | none => none
      else if c.toNat < 0x20 then none
      else (stringUnits? dialect rest).map fun (units, left) => (c.toNat :: units, left)
termination_by cs => cs.length
decreasing_by all_goals simp only [List.length_drop, List.length_cons]; omega

/-- A string behind its opening quote. -/
def string (dialect : Dialect) (cs : List Char) : Option (String × List Char) :=
  (stringUnits? dialect cs).map fun (units, left) => (String.ofList (ofUnits units), left)

/-- The characters a plain scalar is made of. -/
def isPlainChar (c : Char) : Bool :=
  !(c == ' ' || c == '\t' || c == '\r' || c == '\n' || c == ',' || c == ':' || c == '"'
    || c == '[' || c == ']' || c == '{' || c == '}')

/-- The digits at the front, if there is one. -/
def digits? (cs : List Char) : Option (List Char) :=
  let rest := cs.dropWhile Char.isDigit
  if rest.length < cs.length then some rest else none

/-- A text is a decimal number without superfluous zeros. -/
def isNumber (cs : List Char) : Bool :=
  let cs := match cs with
    | '-' :: r => r
    | r => r
  let whole : Option (List Char) := match cs with
    | '0' :: r => some r
    | r => digits? r
  let fraction (cs : List Char) : Option (List Char) := match cs with
    | '.' :: r => digits? r
    | r => some r
  let exponent (cs : List Char) : Option (List Char) := match cs with
    | c :: r =>
        if c == 'e' || c == 'E' then
          match r with
          | '+' :: r => digits? r
          | '-' :: r => digits? r
          | r => digits? r
        else some (c :: r)
    | [] => some []
  (whole.bind fraction).bind exponent == some []

/-- Whether a text may stand as a plain scalar. -/
def allowsPlain (dialect : Dialect) (cs : List Char) : Bool :=
  match dialect with
  | .strict =>
      cs == "null".toList || cs == "true".toList || cs == "false".toList || isNumber cs
  | .loose => !cs.isEmpty

mutual

/-- A node, blanks before it skipped. -/
def node (dialect : Dialect) : Nat → Nat → List Char → Option (Document × Place)
  | 0, _, _ => none
  | fuel + 1, line, cs =>
      let (line, cs) := skipBlanks line cs
      match cs with
      | [] => none
      | '"' :: rest =>
          (string dialect rest).map fun (text, left) => (.scalar line text true, (line, left))
      | '[' :: rest =>
          match skipBlanks line rest with
          | (after, ']' :: left) => some (.sequence line [], (after, left))
          | (after, left) =>
              (sequenceItems dialect fuel after left).map fun (list, place) =>
                (.sequence line list, place)
      | '{' :: rest =>
          match skipBlanks line rest with
          | (after, '}' :: left) => some (.mapping line [], (after, left))
          | (after, left) =>
              (mappingEntries dialect fuel after left).map fun (list, place) =>
                (.mapping line list, place)
      | cs =>
          let plain := cs.takeWhile isPlainChar
          if allowsPlain dialect plain then
            some (.scalar line (String.ofList plain) false, (line, cs.dropWhile isPlainChar))
          else none

/-- The items of a sequence up to its closing bracket. -/
def sequenceItems (dialect : Dialect) : Nat → Nat → List Char →
    Option (List Document × Place)
  | 0, _, _ => none
  | fuel + 1, line, cs => do
      let (item, (line, cs)) ← node dialect fuel line cs
      match skipBlanks line cs with
      | (line, ',' :: rest) =>
          let (list, place) ← sequenceItems dialect fuel line rest
          return (item :: list, place)
      | (line, ']' :: rest) => return ([item], (line, rest))
      | _ => none

/-- The entries of a mapping up to its closing brace. -/
def mappingEntries (dialect : Dialect) : Nat → Nat → List Char →
    Option (List (String × Document) × Place)
  | 0, _, _ => none
  | fuel + 1, line, cs => do
      match skipBlanks line cs with
      | (line, '"' :: rest) =>
          let (key, left) ← string dialect rest
          match skipBlanks line left with
          | (line, ':' :: rest) =>
              let (value, (line, cs)) ← node dialect fuel line rest
              match skipBlanks line cs with
              | (line, ',' :: rest) =>
                  let (list, place) ← mappingEntries dialect fuel line rest
                  return ((key, value) :: list, place)
              | (line, '}' :: rest) => return ([(key, value)], (line, rest))
              | _ => none
          | _ => none
      | _ => none

end

/-- The whole of a text as one node in brackets, braces or quotes. -/
def readFlow (dialect : Dialect) (text : String) : Option Document := do
  let cs := text.toList
  let (d, (line, rest)) ← node dialect (2 * cs.length + 2) 1 cs
  if (skipBlanks line rest).2.isEmpty then return d else none

/-! ## Block mappings -/

/-- A line of a block mapping: a name, a colon, a blank and a plain scalar. -/
def blockEntry? (line : Nat) (text : List Char) : Option (String × Document) :=
  let name := text.takeWhile fun c => isPlainChar c
  match text.dropWhile fun c => isPlainChar c with
  | ':' :: ' ' :: rest =>
      let value := Text.trim (String.ofList rest)
      if name.isEmpty || value.isEmpty || !value.toList.all isPlainChar then none
      else some (String.ofList name, .scalar line value false)
  | _ => none

/-- Lines of a text with their numbers, empty lines left out. -/
def numberedLines (text : String) : List (Nat × List Char) :=
  let lines := text.splitOn "\n"
  ((List.range lines.length).zip (lines.map String.toList)).filterMap fun (i, cs) =>
    if cs.all Text.isBlank then none else some (i + 1, cs)

/-- A text as a block mapping of plain scalars. -/
def readBlock (text : String) : Option Document :=
  match numberedLines text with
  | [] => none
  | lines => (lines.mapM fun (line, cs) => blockEntry? line cs).map (.mapping 1 ·)

/-- What a text holds. -/
inductive Content where
  | nothing
  | node (d : Document)
  | malformed

/-- Reads a document; a text of blanks holds nothing. -/
def read (text : String) : Content :=
  if text.toList.all Text.isBlank then .nothing
  else
    match readFlow .loose text with
    | some d => .node d
    | none =>
        match readBlock text with
        | some d => .node d
        | none => .malformed

end FrozenGlobals.Document
