import FrozenGlobals.Script.ParseError
import FrozenGlobals.Script.Token.Literal
import FrozenGlobals.Text.Blank

/-!
# Tokens

A `Cursor` stands between two tokens of a source, and `Cursor.scan` reads the next one. The grammar
asks for regular expressions and template text itself, because only it knows where a slash or a
brace starts one.

A line end separates statements only behind a token that may end one; `Cursor.mayEnd` remembers
whether the last token was such a token, and `Token.newline` tells whether a separating line end
stands before the token.
-/

namespace FrozenGlobals.Script

open Number (Binary64 startsDigit)
open Text (isNameStart isBlank ofUnits)

/-- What a token is. -/
inductive Lexeme where
  | eof
  | identifier (name : String)
  | reserved (word : String)
  /-- A word reserved in some places only. -/
  | contextual (word : String)
  /-- A reserved word spelled with an escape, which stands for its name but never for the word. -/
  | escapedWord (word : String)
  | privateName (name : String)
  | number (value : Option Binary64)
  | string (value : String)
  | mark (text : String)
deriving DecidableEq, Repr, Inhabited

/-- A token, its text in the source, where it starts, and whether a line end separates it from the
token before. -/
structure Token where
  lexeme : Lexeme
  text : String
  start : Nat
  newline : Bool
deriving Repr, Inhabited

/-- A place in a source. -/
structure Cursor where
  rest : List Char
  offset : Nat
  mayEnd : Bool
deriving Repr, Inhabited

/-- Words that name nothing. -/
def reservedWords : List String :=
  ["if", "in", "do", "var", "for", "new", "try", "this", "else", "case", "void", "with", "const",
   "while", "break", "catch", "throw", "return", "typeof", "delete", "switch", "default",
   "finally", "function", "continue", "debugger", "instanceof", "class", "extends", "super",
   "import", "export", "enum", "null", "true", "false"]

/-- Whether `await` and `yield` are operators at a place, and so name nothing. -/
structure Operators where
  await : Bool
  yield : Bool
deriving DecidableEq, Repr, Inhabited

/-- The word is an operator. -/
def Operators.has (o : Operators) (word : String) : Bool :=
  (word == "await" && o.await) || (word == "yield" && o.yield)

/-- Words reserved in some places only. -/
def contextualWords : List String := ["let", "static", "async", "await", "yield"]

/-- Reserved words behind which a line end separates statements. -/
def endingWords : List String :=
  ["true", "false", "null", "this", "break", "throw", "return", "continue", "debugger", "yield"]

/-- Marks behind which a line end separates statements. -/
def endingMarks : List String := [")", "]", "\x7d", "++", "--", "/", "/="]

/-- All marks, longer ones first. -/
def marks : List String :=
  [">>>=", "...", "===", "!==", "**=", "<<=", ">>=", ">>>", "&&=", "||=", "??=",
   "=>", "==", "!=", "<=", ">=", "&&", "||", "??", "?.", "++", "--", "+=", "-=", "*=", "/=", "%=",
   "&=", "|=", "^=", "<<", ">>", "**",
   "\x7b", "\x7d", "(", ")", "[", "]", ";", ",", "<", ">", "+", "-", "*", "/", "%", "&", "|", "^",
   "!", "~", "?", ":", "=", ".", "`"]

namespace Token

/-- The token is the given mark. -/
def isMark (t : Token) (text : String) : Bool :=
  match t.lexeme with
  | .mark m => m == text
  | _ => false

/-- The token is the given reserved or contextual word. -/
def isWord (t : Token) (word : String) : Bool :=
  match t.lexeme with
  | .reserved w => w == word
  | .contextual w => w == word
  | _ => false

/-- The name a word of any kind spells. -/
def anyName? (t : Token) : Option String :=
  match t.lexeme with
  | .identifier name => some name
  | .reserved word => some word
  | .contextual word => some word
  | .escapedWord word => some word
  | _ => none

def isEof (t : Token) : Bool := t.lexeme == .eof

/-- The token spells a word as it stands, without escapes. A private name spells the word behind
its mark. -/
def spells (t : Token) (word : String) : Bool :=
  match t.lexeme with
  | .privateName _ => t.text == "#" ++ word
  | _ => t.text == word

end Token

/-- The number of bytes characters take. -/
def byteCount (cs : List Char) : Nat := cs.foldl (fun n c => n + c.utf8Size) 0

/-- What is being skipped between two tokens. -/
inductive Gap where
  | blank | lineComment
  /-- A comment in marks, and whether it has held a line end. -/
  | comment (newline : Bool)
deriving DecidableEq, Repr

namespace Cursor

/-- Skips blanks and comments. The flag tells whether a separating line end was among them. -/
def skipGap : Gap → (offset : Nat) → (mayEnd newline : Bool) → List Char →
    Except ParseFailure (Cursor × Bool)
  | .comment _, offset, _, _, [] => .error ⟨offset, .openComment⟩
  | .comment seen, offset, mayEnd, newline, '*' :: '/' :: rest =>
      if seen then skipGap .blank (offset + 2) false true rest
      else skipGap .blank (offset + 2) mayEnd newline rest
  | .comment seen, offset, mayEnd, newline, c :: rest =>
      skipGap (.comment (seen || isLineEnd c)) (offset + c.utf8Size) mayEnd newline rest
  | _, offset, mayEnd, newline, [] => .ok (⟨[], offset, mayEnd⟩, newline || mayEnd)
  | .lineComment, offset, mayEnd, newline, c :: rest =>
      if isLineEnd c then
        skipGap .blank (offset + c.utf8Size) false (newline || mayEnd) rest
      else skipGap .lineComment (offset + c.utf8Size) mayEnd newline rest
  | .blank, offset, mayEnd, newline, '/' :: '/' :: rest =>
      skipGap .lineComment (offset + 2) mayEnd newline rest
  | .blank, offset, mayEnd, newline, '/' :: '*' :: rest =>
      skipGap (.comment false) (offset + 2) mayEnd newline rest
  | .blank, offset, mayEnd, newline, c :: rest =>
      if isLineEnd c then
        skipGap .blank (offset + c.utf8Size) false (newline || mayEnd) rest
      else if isBlank c || c.toNat == 0xfeff then
        skipGap .blank (offset + c.utf8Size) mayEnd newline rest
      else .ok (⟨c :: rest, offset, mayEnd⟩, newline)

/-- The cursor behind the next `count` characters. -/
def advance (c : Cursor) (count : Nat) : Cursor :=
  { c with rest := c.rest.drop count, offset := c.offset + byteCount (c.rest.take count) }

/-- Whether a line end follows, blanks apart. -/
def lineEndsNext : List Char → Bool
  | [] => false
  | c :: rest => isLineEnd c || (isBlank c || c.toNat == 0xfeff) && lineEndsNext rest

/-- The token of a word. Escapes make a plain name of a word reserved in other places. -/
def wordLexeme (o : Operators) (w : Word) (rest : List Char) : Lexeme :=
  let name := String.ofList w.name
  if w.escaped then
    if reservedWords.contains name || o.has name then .escapedWord name else .identifier name
  else if reservedWords.contains name then .reserved name
  else if contextualWords.contains name then
    -- `async` is a plain name at the end of a line
    if name == "async" && lineEndsNext rest then .identifier name else .contextual name
  else .identifier name

/-- Whether a word may end a statement, given whether the token before it may. -/
def wordMayEnd (before : Bool) : Lexeme → Bool
  | .reserved word => endingWords.contains word || before
  | .contextual word => endingWords.contains word || before
  | _ => true

/-- The mark at the front. A question mark and a point before a digit are two marks. -/
def markAt? (cs : List Char) : Option String :=
  let digitAfter := match cs with
    | _ :: _ :: d :: _ => d.isDigit
    | _ => false
  (marks.find? fun m => m.toList.isPrefixOf cs && !(m == "?." && digitAfter))

/-- Whether a number may stand before what follows it: no name or digit, unless it is a big
integer, whose mark ends it. -/
def mayFollow (n : Numeral) : List Char → Bool
  | [] => true
  | c :: _ => n.value.isNone || !(isNameStart c || c == '\\' || c.isDigit)

/-- Reads the token after a gap. -/
def scanToken (o : Operators) (c : Cursor) (newline : Bool) :
    Except ParseFailure (Token × Cursor) :=
  let token (lexeme : Lexeme) (count : Nat) (mayEnd : Bool) : Token × Cursor :=
    (⟨lexeme, String.ofList (c.rest.take count), c.offset, newline⟩,
      { c.advance count with mayEnd })
  match c.rest with
  | [] => .ok (token .eof 0 false)
  | ch :: rest =>
      if isNameStart ch || ch == '\\' then
        match readWord true c.rest with
        | some w =>
            let lexeme := wordLexeme o w (c.rest.drop w.count)
            .ok (token lexeme w.count (wordMayEnd c.mayEnd lexeme))
        | none => .error ⟨c.offset, .malformedName⟩
      else if ch.isDigit || (ch == '.' && startsDigit 10 rest) then
        match readNumber c.rest with
        | some n =>
            if mayFollow n (c.rest.drop n.count) then .ok (token (.number n.value) n.count true)
            else .error ⟨c.offset, .malformedNumber⟩
        | none => .error ⟨c.offset, .malformedNumber⟩
      else if ch == '"' || ch == '\'' then
        match quotedBody? ch rest with
        | some (body, _) =>
            match unescape? false body with
            | some units =>
                .ok (token (.string (String.ofList (ofUnits units))) (body.length + 2) true)
            | none => .error ⟨c.offset, .malformedString⟩
        | none => .error ⟨c.offset, .malformedString⟩
      else if ch == '#' then
        match readWord true rest with
        | some w =>
            if w.name.isEmpty then .error ⟨c.offset, .malformedName⟩
            else .ok (token (.privateName (String.ofList w.name)) (w.count + 1) true)
        | none => .error ⟨c.offset, .malformedName⟩
      else
        match markAt? c.rest with
        | some m =>
            let isolated := m == "." && rest.head? == some '.'
            if isolated || (m == "=>" && newline) then .error ⟨c.offset, .unexpected m⟩
            else .ok (token (.mark m) m.length (endingMarks.contains m))
        | none => .error ⟨c.offset, .unexpected ch.toString⟩

/-- Reads the next token. -/
def scan (o : Operators) (c : Cursor) : Except ParseFailure (Token × Cursor) := do
  let (c, newline) ← skipGap .blank c.offset c.mayEnd false c.rest
  scanToken o c newline

/-- Reads the first token of a source, which may open with a `#!` line. -/
def scanFirst (source : List Char) : Except ParseFailure (Token × Cursor) := do
  let gap : Gap := match source with
    | '#' :: '!' :: _ => .lineComment
    | _ => .blank
  let (c, newline) ← skipGap gap 0 false false source
  scanToken ⟨false, false⟩ c newline

end Cursor

end FrozenGlobals.Script
