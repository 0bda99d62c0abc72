import FrozenGlobals.Document.Json
import FrozenGlobals.Document.Scalar

/-!
# Block text

The notation of reports for readers and for tools that read YAML: one entry or item on a line,
nested by indentation. A string is written without quotes where it reads back as itself. One that
would read back as something else is put in double quotes; one with marks that mean something in its
place is put in single quotes, or in double quotes if characters in it have to be escaped.
-/

namespace FrozenGlobals.Document.Block

/-! ## Strings -/

/-- Line breaks. -/
def isBreak (c : Char) : Bool :=
  [0x0a, 0x0d, 0x85, 0x2028, 0x2029].contains c.toNat

/-- Characters that can be written as they stand. -/
def isWritable (c : Char) : Bool :=
  let n := c.toNat
  n == 0x0a || (0x20 ≤ n && n ≤ 0x7e)
    || (0xa0 ≤ n && n < 0x10000 && n != 0xfeff && n != 0xfffe && n != 0xffff)

/-- Words that some readers take for truth values. -/
def oldTruthValues : List String :=
  ["y", "Y", "yes", "Yes", "YES", "on", "On", "ON", "n", "N", "no", "No", "NO", "off", "Off", "OFF"]

/-- Digits in base sixty: groups of digits separated by colons, perhaps with a fraction. -/
def isBaseSixty (text : String) : Bool :=
  let cs := (Scalar.sign text.toList).2
  let isDigits (l : List Char) : Bool := l.all fun c => c.isDigit || c == '_'
  let whole := cs.takeWhile (· != '.')
  let fraction := (cs.drop whole.length).drop 1
  match (String.ofList whole).splitOn ":" with
  | first :: second :: rest =>
      (first.toList.head?.any Char.isDigit) && isDigits first.toList && isDigits fraction
        && (second :: rest).all fun group =>
          match group.toList with
          | [c] => c.isDigit
          | [c, d] => '0' ≤ c && c ≤ '5' && d.isDigit
          | _ => false
  | _ => false

/-- A string without quotes would read back as something else. -/
def isMistakable (text : String) : Bool :=
  Scalar.ofPlain text != .text || oldTruthValues.contains text || isBaseSixty text || text == "<<"

/-- Characters that a string without quotes cannot begin with. -/
def isIndicator (c : Char) : Bool :=
  ['#', ',', '[', ']', '{', '}', '&', '*', '!', '|', '>', '\'', '"', '%', '@', '\x60'].contains c

/-- What stands ahead is a blank or the end. -/
def atBlank : List Char → Bool
  | [] => true
  | c :: _ => c == ' ' || c == '\t'

/-- A colon before a blank, or a hash behind one, stands in a text. -/
def hasMark (afterBlank : Bool) : List Char → Bool
  | [] => false
  | c :: rest =>
      (c == ':' && atBlank rest) || (c == '#' && afterBlank)
        || hasMark (c == ' ' || c == '\t' || isBreak c) rest

/-- The beginning of a text means something in its place. -/
def startsMarked : List Char → Bool
  | [] => false
  | c :: rest =>
      isIndicator c || ((c == '?' || c == '-') && atBlank rest)
        || ['-', '-', '-'].isPrefixOf (c :: rest) || ['.', '.', '.'].isPrefixOf (c :: rest)

/-- Blanks or breaks stand at an end of a text. -/
def hasOuterBlank (cs : List Char) : Bool :=
  let isOuter (c : Char) : Bool := c == ' ' || isBreak c
  cs.head?.any isOuter || cs.getLast?.any isOuter

/-- A blank stands beside a break. -/
def hasBlankAtBreak : List Char → Bool
  | c :: d :: rest =>
      (c == ' ' && isBreak d) || (isBreak c && d == ' ') || hasBlankAtBreak (d :: rest)
  | _ => false

/-- The letter behind a backslash that stands for a character. -/
def escapeLetter? (n : Nat) : Option Char :=
  [(0x00, '0'), (0x07, 'a'), (0x08, 'b'), (0x09, 't'), (0x0a, 'n'), (0x0b, 'v'), (0x0c, 'f'),
   (0x0d, 'r'), (0x1b, 'e'), (0x22, '"'), (0x5c, '\\'), (0x85, 'N'), (0x2028, 'L'),
   (0x2029, 'P')].lookup n

/-- Upper case hexadecimal digits, padded to a width. -/
def upperHex (width n : Nat) : String :=
  String.ofList ((Text.hex width n).toList.map Char.toUpper)

/-- A character in double quotes. -/
def escape (c : Char) : String :=
  let n := c.toNat
  if isWritable c && !isBreak c && c != '"' && c != '\\' then c.toString
  else
    match escapeLetter? n with
    | some letter => String.ofList ['\\', letter]
    | none =>
        if n ≤ 0xff then "\\x" ++ upperHex 2 n
        else if n ≤ 0xffff then "\\u" ++ upperHex 4 n
        else "\\U" ++ upperHex 8 n

/-- A text in double quotes. -/
def doubleQuoted (text : String) : String :=
  "\"" ++ String.join (text.toList.map escape) ++ "\""

/-- A text in single quotes, where a quote is written twice. -/
def singleQuoted (text : String) : String :=
  "'" ++ String.join (text.toList.map fun c => if c == '\'' then "''" else c.toString) ++ "'"

/-- A string. -/
def string (text : String) : String :=
  let cs := text.toList
  if isMistakable text || cs.contains '\n' then doubleQuoted text
  else if cs.any (!isWritable ·) || hasBlankAtBreak cs then doubleQuoted text
  else if startsMarked cs || hasMark true cs || hasOuterBlank cs || cs.any isBreak then
    singleQuoted text
  else text

/-! ## Lines -/

/-- A value that stands behind its key or dash on the same line. -/
def inline? : Json → Option String
  | .null => some "null"
  | .bool value => some (if value then "true" else "false")
  | .number text => some text
  | .string text => some (string text)
  | .array [] => some "[]"
  | .object [] => some "\x7b\x7d"
  | .array _ | .object _ => none

/-- Lines behind a dash. -/
def dashed : List String → List String
  | [] => []
  | first :: rest => ("- " ++ first) :: rest.map ("  " ++ ·)

mutual

/-- The lines of a value. -/
def lines : Json → List String
  | .array items => itemLines items
  | .object fields => fieldLines fields
  | v => (inline? v).toList

/-- The lines of the items of a sequence. -/
def itemLines : List Json → List String
  | [] => []
  | item :: rest =>
      dashed (match inline? item with
        | some text => [text]
        | none => lines item) ++ itemLines rest

/-- The lines of the entries of a mapping. -/
def fieldLines : List (String × Json) → List String
  | [] => []
  | (key, value) :: rest =>
      (match inline? value with
        | some text => [string key ++ ": " ++ text]
        | none => (string key ++ ":") :: (lines value).map ("  " ++ ·)) ++ fieldLines rest

end

end FrozenGlobals.Document.Block

namespace FrozenGlobals.Document

/-- A value as block text. -/
def blockText (v : Json) : String :=
  match Block.inline? v with
  | some text => text ++ "\n"
  | none => String.join ((Block.lines v).map (· ++ "\n"))

end FrozenGlobals.Document
