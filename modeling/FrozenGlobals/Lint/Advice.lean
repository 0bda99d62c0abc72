import FrozenGlobals.Text.Blank

/-!
# Advice on failed checks

Messages of failed checks are turned into advice: what is wrong, where, and what can be done about
it. A message may begin with a JSON pointer to the place in the document and a colon.
-/

namespace FrozenGlobals.Lint

/-- The blanks that may follow the colon behind a pointer. -/
def isSeparator (c : Char) : Bool :=
  c == ' ' || c == '\t' || c == '\n' || c == '\r' || c.toNat == 12

/-- Splits the pointer off a message. -/
def splitPointer (message : String) : Option String × String :=
  match message.toList with
  | '/' :: rest =>
      let name := rest.takeWhile fun c => !isSeparator c && c != ':'
      match rest.drop name.length with
      | ':' :: rest =>
          (some (String.ofList ('/' :: name)), String.ofList (rest.dropWhile isSeparator))
      | _ => (none, message)
  | _ => (none, message)

/-- Characters of words. -/
def isWordChar (c : Char) : Bool := c.isAlphanum || c == '_'

/-- The words of a text. -/
def wordsOf (text : String) : List String :=
  (String.ofList (text.toList.map fun c => if isWordChar c then c else ' ')).splitOn " "

/-- A word is the code of a construct that cannot be modelled: names in capitals, joined by
underscores, the last of them `ERR`. -/
def isCode (word : String) : Bool :=
  let parts := word.splitOn "_"
  1 < parts.length && parts.getLast? == some "ERR"
    && parts.all fun part => !part.isEmpty && part.toList.all Char.isUpper

/-- The range of bytes that a text begins with, up to a closing bracket. -/
def leadingRange? (cs : List Char) : Option (String × String) :=
  let start := cs.takeWhile Char.isDigit
  match start, cs.drop start.length with
  | _ :: _, '-' :: rest =>
      let stop := rest.takeWhile Char.isDigit
      match stop, rest.drop stop.length with
      | _ :: _, ')' :: _ => some (String.ofList start, String.ofList stop)
      | _, _ => none
  | _, _ => none

/-- The first range of bytes a text mentions. -/
def range? : List Char → Option (String × String)
  | [] => none
  | 'a' :: 't' :: ' ' :: rest =>
      match leadingRange? rest with
      | some r => some r
      | none => range? ('t' :: ' ' :: rest)
  | _ :: rest => range? rest

/-- What is wrong, and what can be done about it. -/
structure Advice where
  summary : String
  hint : String
deriving DecidableEq, Repr, Inhabited

/-- Advice on the code of a construct. -/
def Advice.ofCode (code : String) : Advice where
  summary := "Unsupported construct (" ++ code
    ++ "). The analyzer cannot prove this code safe."
  hint :=
    if code == "SPREAD_ARGUMENT_ERR" then
      "Pass arguments explicitly instead of spreading them into a user function."
    else if code == "ASSIGN_TARGET_ERR" then
      "Assign to a variable or a property; destructuring assignment targets are not supported."
    else
      "Use plain identifiers in this binding position, or lint with strict mode off to "
        ++ "downgrade this to a warning."

/-- Advice on a message. -/
def Advice.ofMessage (message : String) : Advice :=
  match (wordsOf message).find? isCode with
  | some code => .ofCode code
  | none =>
      if message.contains "call depth exceeded" then
        ⟨"Maximum call depth exceeded. The script recurses without bound.",
         "Set a finite call depth ceiling."⟩
      else if message.contains "invalid script" then
        ⟨"The script does not parse.",
         "Check the script for syntax errors; the details show the parser position."⟩
      else if message.contains "invalid globals" then
        ⟨"The schema does not describe an object, so it cannot provide globals.",
         "Attach the extension to an object schema whose properties are the globals."⟩
      else ⟨"Lint error.", ""⟩

/-- The paragraph about one message. -/
def paragraph (message : String) : String :=
  let (location, rest) := splitPointer message
  let advice := Advice.ofMessage rest
  let details := Text.trim rest
  "- " ++ advice.summary ++ "\n"
    ++ (match location with
        | some l => "  Location: " ++ l ++ "\n"
        | none => "")
    ++ (match range? rest.toList with
        | some (start, stop) => "  Range: bytes " ++ start ++ "-" ++ stop ++ " of the script\n"
        | none => "")
    ++ (if advice.hint.isEmpty then "" else "  How to fix: " ++ advice.hint ++ "\n")
    ++ (if details.isEmpty then "" else "  Details: " ++ details ++ "\n")

/-- Advice on all messages of a failed check. -/
def advise (messages : List String) : String :=
  if messages.isEmpty then "Lint failed, but no additional details were provided."
  else "Lint failed (strict mode).\n" ++ String.join (messages.map paragraph)

end FrozenGlobals.Lint
