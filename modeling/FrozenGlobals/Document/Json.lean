import FrozenGlobals.Document
import FrozenGlobals.Text.Quoted

/-!
# JSON text

The notation reports and annotated documents are written in: either on one line, or indented by two
blanks with one item on a line. Angle brackets, ampersands and the two separator characters of
Unicode are escaped, so that the text can stand inside other notations.
-/

namespace FrozenGlobals

/-- A value to be written. Numbers are kept as text. -/
inductive Json where
  | null
  | bool (value : Bool)
  | number (text : String)
  | string (text : String)
  | array (items : List Json)
  | object (fields : List (String × Json))
deriving Inhabited

namespace Json

def int (i : Int) : Json := .number (toString i)

/-- A character of a string. -/
def escapeChar (c : Char) : String :=
  let n := c.toNat
  if c == '"' then "\\\""
  else if c == '\\' then "\\\\"
  else if n == 8 then "\\b"
  else if n == 12 then "\\f"
  else if n == 10 then "\\n"
  else if n == 13 then "\\r"
  else if n == 9 then "\\t"
  else if n < 0x20 || c == '<' || c == '>' || c == '&' || n == 0x2028 || n == 0x2029 then
    "\\u" ++ Text.hex 4 n
  else c.toString

/-- A string in quotes. -/
def quote (s : String) : String := "\"" ++ String.join (s.toList.map escapeChar) ++ "\""

mutual

/-- The text of a value on one line. -/
def compact : Json → String
  | .null => "null"
  | .bool value => if value then "true" else "false"
  | .number text => text
  | .string text => quote text
  | .array items => "[" ++ compactItems items ++ "]"
  | .object fields => "\x7b" ++ compactFields fields ++ "\x7d"

def compactItems : List Json → String
  | [] => ""
  | [item] => item.compact
  | item :: rest => item.compact ++ "," ++ compactItems rest

def compactFields : List (String × Json) → String
  | [] => ""
  | [(key, value)] => quote key ++ ":" ++ value.compact
  | (key, value) :: rest => quote key ++ ":" ++ value.compact ++ "," ++ compactFields rest

end

/-- A line break and the indentation of a level. -/
def newline (level : Nat) : String := "\n" ++ String.ofList (List.replicate (2 * level) ' ')

mutual

/-- The text of a value over several lines. -/
def pretty (level : Nat) : Json → String
  | .null => "null"
  | .bool value => if value then "true" else "false"
  | .number text => text
  | .string text => quote text
  | .array [] => "[]"
  | .array (item :: rest) =>
      "[" ++ newline (level + 1) ++ item.pretty (level + 1) ++ prettyItems (level + 1) rest
        ++ newline level ++ "]"
  | .object [] => "\x7b\x7d"
  | .object ((key, value) :: rest) =>
      "\x7b" ++ newline (level + 1) ++ quote key ++ ": " ++ value.pretty (level + 1)
        ++ prettyFields (level + 1) rest ++ newline level ++ "\x7d"

def prettyItems (level : Nat) : List Json → String
  | [] => ""
  | item :: rest => "," ++ newline level ++ item.pretty level ++ prettyItems level rest

def prettyFields (level : Nat) : List (String × Json) → String
  | [] => ""
  | (key, value) :: rest =>
      "," ++ newline level ++ quote key ++ ": " ++ value.pretty level ++ prettyFields level rest

end

end Json

namespace Document

mutual

/-- A document as a value to be written; plain scalars are written as they stand. -/
def toJson : Document → Json
  | .scalar _ text quoted => if quoted then .string text else .number text
  | .sequence _ items => .array (itemsJson items)
  | .mapping _ entries => .object (entriesJson entries)

def itemsJson : List Document → List Json
  | [] => []
  | item :: rest => item.toJson :: itemsJson rest

def entriesJson : List (String × Document) → List (String × Json)
  | [] => []
  | (key, value) :: rest => (key, value.toJson) :: entriesJson rest

end

end Document

end FrozenGlobals
