/-!
# Parse errors

Why a source text is not a script, and where. The message names the line and column of the fault.
-/

namespace FrozenGlobals.Script

/-- What is wrong with a source text. -/
inductive ParseFault where
  /-- A token that cannot stand where it does; its text is empty at the end of the source. -/
  | unexpected (text : String)
  | malformedName
  | malformedNumber
  | malformedString
  | malformedTemplate
  | openRegExp
  | openComment
  | badTarget
  | mixedLogical
  | unaryBeforePower
  | malformedParameters
  /-- What only the parameters of an arrow hold, in the parentheses that open at an offset. -/
  | bareParameters (start : Nat)
  | missingInitializer
  | misplaced (what : String)
  | undefinedLabel (name : String)
  | repeatedLabel (name : String)
  | repeatedDefault
  /-- The recorded end of a name lies behind the bracket that closes its pattern. -/
  | overrun
  | tooDeep
deriving DecidableEq, Repr, Inhabited

namespace ParseFault

def message : ParseFault → String
  | .unexpected text =>
      if text.isEmpty then "unexpected end of input" else "unexpected token " ++ text
  | .malformedName => "malformed name"
  | .malformedNumber => "malformed number"
  | .malformedString => "malformed string"
  | .malformedTemplate => "malformed template"
  | .openRegExp => "regular expression is not closed"
  | .openComment => "comment is not closed"
  | .badTarget => "invalid assignment target"
  | .mixedLogical => "?? cannot be mixed with || or && without parentheses"
  | .unaryBeforePower => "a unary operator cannot stand before ** without parentheses"
  | .malformedParameters => "malformed parameter list"
  | .bareParameters _ => "parameters without an arrow"
  | .missingInitializer => "a destructuring declaration needs an initializer"
  | .misplaced what => what ++ " cannot stand here"
  | .undefinedLabel name => "label " ++ name ++ " is not defined"
  | .repeatedLabel name => "label " ++ name ++ " is already defined"
  | .repeatedDefault => "a switch has one default clause at most"
  | .overrun => "a name reaches past the end of its pattern"
  | .tooDeep => "the script is nested too deeply"

/-- The fault lies in the reader, not in the source. -/
def isFatal : ParseFault → Bool
  | .overrun => true
  | _ => false

end ParseFault

/-- A fault and the byte offset where it was found. -/
structure ParseFailure where
  offset : Nat
  fault : ParseFault
deriving DecidableEq, Repr, Inhabited

/-- A fault in a named source, at a line and column counted from one. -/
structure ParseError where
  name : String
  line : Nat
  column : Nat
  fault : ParseFault
deriving DecidableEq, Repr, Inhabited

/-- The text of a parse error. -/
def ParseError.message (e : ParseError) : String :=
  "failed to parse script: " ++ (if e.name.isEmpty then "" else e.name ++ ": ")
    ++ "line " ++ toString e.line ++ ":" ++ toString e.column ++ " " ++ e.fault.message

end FrozenGlobals.Script
