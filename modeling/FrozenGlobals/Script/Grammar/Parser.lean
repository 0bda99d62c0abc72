import FrozenGlobals.Script.Token
import FrozenGlobals.Script.Tree

/-!
# Parsers

A `Parser` reads from a place in the source under a `Context`: what the enclosing constructs allow.
It stands on a token with the cursor behind it. Parsers that call each other do so through a
`Grammar`, whose members are tied together in the module of programs; loops run at most once per
character of the source.
-/

namespace FrozenGlobals.Script

/-- What the enclosing constructs allow. -/
structure Context where
  /-- A bound on the steps of a loop. -/
  size : Nat
  /-- The bytes of the source. -/
  source : ByteArray
  allowIn : Bool
  inIteration : Bool
  inSwitch : Bool
  inFunction : Bool
  inParams : Bool
  inAsync : Bool
  allowAwait : Bool
  allowYield : Bool
  labels : List String

/-- The words that are operators in a context. -/
def Context.operators (c : Context) : Operators := ⟨c.allowAwait, c.allowYield⟩

/-- The token a parser stands on and the cursor behind it. -/
structure Position where
  token : Token
  cursor : Cursor
  /-- The statement being read, or the last one in it, may declare something lexical. A class may
  stand only there. -/
  allowLet : Bool

/-- Parsers of nodes of type `α`. -/
abbrev Parser (α : Type) := ReaderT Context (StateT Position (Except ParseFailure)) α

namespace Parser

/-- The current token. -/
def token : Parser Token := do return (← get).token

/-- Fails at the current token. -/
def fail {α : Type} (fault : ParseFault) : Parser α := do
  throw ⟨(← token).start, fault⟩

/-- Fails because the current token cannot stand here. -/
def unexpected {α : Type} : Parser α := do
  fail (.unexpected (← token).text)

/-- Moves to the next token. -/
def next : Parser Unit := do
  let (token, cursor) ← MonadExcept.ofExcept ((← get).cursor.scan (← read).operators)
  modify ({ · with token, cursor })

/-- The token after the current one. -/
def peek : Parser Token := do
  let (token, _) ← MonadExcept.ofExcept ((← get).cursor.scan (← read).operators)
  return token

/-- Sets whether the statement ahead may declare something lexical. -/
def allowLet (allowed : Bool) : Parser Unit := modify ({ · with allowLet := allowed })

/-- The current token is the given mark. -/
def atMark (text : String) : Parser Bool := do return (← token).isMark text

/-- The current token is the given word. -/
def atWord (word : String) : Parser Bool := do return (← token).isWord word

/-- Passes the given mark and tells where it started. -/
def mark (text : String) : Parser Nat := do
  let t ← token
  if t.isMark text then next; return t.start else unexpected

/-- Passes the given word and tells where it started. -/
def word (text : String) : Parser Nat := do
  let t ← token
  if t.isWord text then next; return t.start else unexpected

/-- Passes the given mark if it is there. -/
def skipMark (text : String) : Parser Bool := do
  if ← atMark text then next; return true else return false

/-- The result of a parser, or nothing and no progress if it fails in an expected way. Other
failures stay. -/
def attempt {α : Type} (expected : ParseFailure → Bool) (p : Parser α) : Parser (Option α) :=
  fun context position =>
    match p context position with
    | .ok (a, after) => .ok (some a, after)
    | .error e => if expected e then .ok (none, position) else .error e

/-- Repeats a step until it yields a result. -/
def iterate {σ α : Type} (step : σ → Parser (σ ⊕ α)) : Nat → σ → Parser α
  | 0, _ => fail .tooDeep
  | fuel + 1, state => do
      match ← step state with
      | .inl state => iterate step fuel state
      | .inr result => return result

/-- Repeats a step; every round passes at least one token. -/
def loop {σ α : Type} (step : σ → Parser (σ ⊕ α)) (state : σ) : Parser α := do
  iterate step (← read).size state

/-- Whether a token can stand for a name that is bound or used. -/
def isBindable (context : Context) (t : Token) : Bool :=
  match t.lexeme with
  | .identifier _ => true
  | .contextual word => !context.operators.has word
  | _ => false

/-- The current token can stand for a name. -/
def atBindable : Parser Bool := do return isBindable (← read) (← token)

/-- The length a name counts for in source ranges: its bytes, or twice its code units and two more
when it holds a character outside ASCII. -/
def nameSize (name : String) : Nat :=
  if name.toList.all fun c => c.toNat < 0x80 then name.length
  else 2 * (name.toList.foldl (fun n c => n + Text.unitCount c) 0 + 1)

/-- A name at a place. -/
def identifierAt (name : String) (start : Nat) : Identifier :=
  ⟨name, ⟨start, start + nameSize name⟩⟩

/-- Passes a word of any kind as a name. -/
def anyName : Parser Identifier := do
  let t ← token
  match t.anyName? with
  | some name => next; return identifierAt name t.start
  | none => unexpected

/-- Passes a name. -/
def name : Parser Identifier := do
  if ← atBindable then anyName else unexpected

/-- A name, if one stands here. -/
def name? : Parser (Option Identifier) := do
  if ← atBindable then return some (← anyName) else return none

/-- Ends a statement that may end before any token on the next line. -/
def optionalSemicolon : Parser Unit := do
  let t ← token
  if t.isMark ";" then next
  else if t.newline || t.isEof || t.isMark "\x7d" then return ()
  else unexpected

/-- Ends a declaration, `return` or `throw`. -/
def semicolon : Parser Unit := do
  let t ← token
  if t.isMark ")" || t.isMark "\x7d" || t.newline then return ()
  else discard (mark ";")

/-- Runs a parser with more or less allowed. -/
def under {α : Type} (change : Context → Context) (p : Parser α) : Parser α :=
  fun context => p (change context)

end Parser

/-- The parsers that the others call through the record, to be tied together. -/
structure Grammar where
  /-- An expression without commas. -/
  assignment : Parser Expr
  /-- Comparisons, which group to the right. -/
  relational : Parser Expr
  power : Parser Expr
  unary : Parser Expr
  /-- What may follow `new`: members without calls. -/
  member : Parser Expr
  /-- Members, calls and optional chains. -/
  callee : Parser Expr
  /-- An object literal. -/
  object : Parser Expr
  statement : Parser Stmt

end FrozenGlobals.Script
