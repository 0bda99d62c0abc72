import FrozenGlobals.Script.Grammar.Expression

/-!
# Statements

Statements, and the tying of all parsers into one grammar. Each call through the grammar lowers its
depth by one, and a script of `n` characters nests at most a fixed multiple of `n` calls.
-/

namespace FrozenGlobals.Script

namespace Parser

/-- A statement in the place of a single statement, where nothing lexical may be declared. -/
def single (g : Grammar) : Parser Stmt := do
  allowLet false
  g.statement

/-- A block, or a single statement. -/
def branch (g : Grammar) : Parser Stmt := do
  if ← atMark "\x7b" then g.statement else single g

/-- The body of a loop. -/
def iterated (g : Grammar) : Parser Stmt := under ({ · with inIteration := true }) (single g)

/-- An expression in parentheses. -/
def condition (g : Grammar) : Parser (Expr × Nat) := do
  discard (mark "(")
  let e ← expression g
  let stop ← mark ")"
  return (e, stop)

/-- A pattern that is declared needs an initializer. -/
def checkInitialized (list : List Binding) : Parser Unit :=
  list.forM fun b =>
    match b with
    | .mk (.leaf _) _ | .mk _ (some _) => pure ()
    | .mk _ none => fail .missingInitializer

/-- The end of a non-empty list of declarators. -/
def lastStop (start : Nat) (list : List Binding) : Int :=
  (list.getLast?.map fun b => b.span.stop).getD start

/-! ## Declarations -/

def varStatement (g : Grammar) : Parser Stmt := do
  let start ← word "var"
  let list ← bindings g
  checkInitialized list
  semicolon
  return .declareVar ⟨start, lastStop start list⟩ list

def lexicalDeclaration (g : Grammar) : Parser Stmt := do
  if !(← get).allowLet then fail (.misplaced "a lexical declaration")
  let start := (← token).start
  next
  let list ← bindings g
  checkInitialized list
  semicolon
  return .declareLexical ⟨start, lastStop start list⟩ list

/-! ## Branches -/

/-- An `if` statement, whose start is not recorded. -/
def ifStatement (g : Grammar) : Parser Stmt := do
  discard (word "if")
  let (test, _) ← condition g
  let yes ← branch g
  if ← atWord "else" then
    next
    let no ← single g
    return .ifElse ⟨-1, no.span.stop⟩ test yes (some no)
  else return .ifElse ⟨-1, yes.span.stop⟩ test yes none

/-- A clause of a `switch`. -/
def clause (g : Grammar) : Parser Case := do
  let start := (← token).start
  let test ←
    if ← atWord "default" then next; pure none
    else
      discard (word "case")
      some <$> expression g
  discard (mark ":")
  let list ← loop (fun done => do
    let t ← token
    if t.isEof || t.isMark "\x7d" || t.isWord "case" || t.isWord "default" then
      return .inr done.reverse
    else
      allowLet true
      let s ← g.statement
      return .inl (s :: done)) []
  return .mk start test list

/-- The clause is a default clause. -/
def isDefault : Case → Bool
  | .mk _ none _ => true
  | .mk _ (some _) _ => false

/-- A `switch` statement. One that the source ends in is closed there, with no recorded end. -/
def switchStatement (g : Grammar) : Parser Stmt := do
  let start ← word "switch"
  let (subject, _) ← condition g
  discard (mark "\x7b")
  let (cases, stop) ← under ({ · with inSwitch := true }) do
    loop (fun (done : List Case) => do
      let t ← token
      if t.isEof then return .inr (done.reverse, (0 : Int))
      else if t.isMark "\x7d" then next; return .inr (done.reverse, (t.start : Int) + 1)
      else
        let c ← clause g
        if isDefault c && done.any isDefault then fail .repeatedDefault
        return .inl (c :: done)) []
  return .switchOn ⟨start, stop⟩ subject cases

/-! ## Loops -/

def whileStatement (g : Grammar) : Parser Stmt := do
  let start ← word "while"
  let (test, _) ← condition g
  let body ← iterated g
  return .whileLoop ⟨start, body.span.stop⟩ test body

def doWhileStatement (g : Grammar) : Parser Stmt :=
  under ({ · with inIteration := true }) do
    let start ← word "do"
    let body ← branch g
    discard (word "while")
    let (test, stop) ← condition g
    discard (skipMark ";")
    return .doWhile ⟨start, stop + 1⟩ body test

/-- The rest of a loop over a collection, behind what it writes to. -/
def forEachTail (g : Grammar) (start : Nat) (kind : LoopKind) (into : ForTarget) : Parser Stmt := do
  next
  let source ← match kind with
    | .forIn => expression g
    | .forOf => g.assignment
  discard (mark ")")
  let body ← iterated g
  return .forEach ⟨start, body.span.stop⟩ kind into source body

/-- The rest of a counting loop, behind its first part. -/
def forTail (g : Grammar) (start : Nat) (init : Option ForInit) : Parser Stmt := do
  discard (mark ";")
  let test ← if ← atMark ";" then pure none else some <$> expression g
  discard (mark ";")
  let update ← if ← atMark ")" then pure none else some <$> expression g
  discard (mark ")")
  let body ← iterated g
  return .forLoop ⟨start, body.span.stop⟩ init test update body

/-- The loop over a collection that the current token announces. -/
def forKind? (t : Token) : Option LoopKind :=
  match t.lexeme with
  | .reserved "in" => some .forIn
  | .identifier _ => if t.text == "of" then some .forOf else none
  | _ => none

/-- A loop whose head declares names. -/
def forDeclaring (g : Grammar) (start : Nat) (isVar : Bool) : Parser Stmt := do
  let head := (← token).start
  next
  let list ← under ({ · with allowIn := false }) (bindings g)
  match forKind? (← token), list with
  | some kind, [.mk target none] =>
      forEachTail g start kind
        (if isVar then .declareVar (.mk target none) else .declareLexical head target)
  | some _, [_] => fail (.misplaced "an initializer")
  | _, _ =>
      checkInitialized list
      forTail g start (some
        (if isVar then .declareVar list else .declareLexical ⟨head, lastStop head list⟩ list))

/-- A loop whose head starts with an expression. -/
def forExpression (g : Grammar) (start : Nat) : Parser Stmt := do
  let e ← under ({ · with allowIn := false }) (expression g)
  match forKind? (← token) with
  | some kind => forEachTail g start kind (.assign (← toTarget e))
  | none => forTail g start (some (.expression e))

def forStatement (g : Grammar) : Parser Stmt := do
  let start ← word "for"
  discard (mark "(")
  let t ← token
  if t.isMark ";" then forTail g start none
  else if t.isWord "var" then forDeclaring g start true
  else if t.isWord "const" then forDeclaring g start false
  else if t.isWord "let" then
    let after ← peek
    match after.lexeme with
    | .identifier _ | .mark "[" | .mark "\x7b" => forDeclaring g start false
    | _ => forExpression g start
  else forExpression g start

/-! ## Jumps -/

def returnStatement (g : Grammar) : Parser Stmt := do
  let start ← word "return"
  if !(← read).inFunction then throw ⟨start, .misplaced "return"⟩
  let t ← token
  let argument ←
    if t.newline || t.isMark ";" || t.isMark "\x7d" || t.isEof then pure none
    else some <$> expression g
  semicolon
  return .returnWith ⟨start, (argument.map fun e => e.span.stop).getD (start + 6)⟩ argument

def throwStatement (g : Grammar) : Parser Stmt := do
  let start ← word "throw"
  if (← token).newline then throw ⟨start, .misplaced "a line end"⟩
  let argument ← expression g
  semicolon
  return .throwWith ⟨start, argument.span.stop⟩ argument

/-- `break` or `continue`, to the innermost statement or to a label. -/
def jump (text : String) : Parser Stmt := do
  let start ← word text
  let context ← read
  let inside := context.inIteration || (text == "break" && context.inSwitch)
  let t ← token
  if t.newline || t.isMark ";" || t.isMark "\x7d" then
    discard (skipMark ";")
    if inside then return .jump ⟨start, start + text.length⟩
    else throw ⟨start, .misplaced text⟩
  else
    let label ← name
    if !context.labels.contains label.name then throw ⟨start, .undefinedLabel label.name⟩
    if text == "continue" && !inside then throw ⟨start, .misplaced text⟩
    semicolon
    return .jump ⟨start, label.span.stop⟩

/-- A `try` statement, which has a handler, a finalizer or both. -/
def tryStatement (g : Grammar) : Parser Stmt := do
  let start ← word "try"
  let body ← block g
  let t ← token
  let handler ←
    if t.isWord "catch" then
      next
      let parameter ←
        if ← skipMark "(" then
          let p ← bindingTarget g
          discard (mark ")")
          pure (some p)
        else pure none
      let b ← block g
      pure (some (Catch.mk t.start parameter b))
    else pure none
  let finalizer ←
    if ← atWord "finally" then next; some <$> block g else pure none
  match handler, finalizer with
  | _, some last => return .tryCatch ⟨start, last.span.stop⟩ body handler finalizer
  | some c, none => return .tryCatch ⟨start, c.span.stop⟩ body handler finalizer
  | none, none => throw ⟨start, .misplaced "a try without catch or finally"⟩

/-! ## Other statements -/

def withStatement (g : Grammar) : Parser Stmt := do
  let start ← word "with"
  let (object, _) ← condition g
  let body ← single g
  return .withObject ⟨start, body.span.stop⟩ object body

/-- An expression, or a label and its statement. -/
def expressionStatement (g : Grammar) : Parser Stmt := do
  let e ← expression g
  match e, ← atMark ":" with
  | .identifier id, true =>
      if (← read).labels.contains id.name then
        throw ⟨id.span.start.toNat, .repeatedLabel id.name⟩
      next
      let body ← under (fun c => { c with labels := id.name :: c.labels }) (single g)
      return .labelled (id.span.through body.span) id body
  | _, _ =>
      optionalSemicolon
      return .expression e

/-- A statement that starts with `let`, which declares unless it is a name here. -/
def letStatement (g : Grammar) : Parser Stmt := do
  let after ← peek
  let declares := after.anyName?.isSome || after.isMark "\x7b"
  if after.isMark "[" || ((← get).allowLet && declares) then lexicalDeclaration g
  else
    modify fun p => { p with cursor := { p.cursor with mayEnd := true } }
    expressionStatement g

/-- A statement named by its first word. -/
def wordStatement (g : Grammar) (t : Token) (text : String) : Parser Stmt := do
  match text with
  | "if" => ifStatement g
  | "do" => doWhileStatement g
  | "while" => whileStatement g
  | "for" => forStatement g
  | "break" => jump "break"
  | "continue" => jump "continue"
  | "debugger" =>
      next
      semicolon
      return .debugger ⟨t.start, t.start + 8⟩
  | "with" => withStatement g
  | "var" => varStatement g
  | "let" => letStatement g
  | "const" => lexicalDeclaration g
  | "function" => return .declareFunction (← function g true false t.start)
  | "async" =>
      if (← peek).isWord "function" then
        next
        return .declareFunction (← function g true true t.start)
      else expressionStatement g
  | "class" => return .declareClass (← classLiteral g true)
  | "switch" => switchStatement g
  | "return" => returnStatement g
  | "throw" => throwStatement g
  | "try" => tryStatement g
  | _ => expressionStatement g

/-- A statement. -/
def statement (g : Grammar) : Parser Stmt := do
  let t ← token
  match t.lexeme with
  | .eof => unexpected
  | .mark m =>
      if m == ";" then next; return .empty ⟨t.start, t.start + 1⟩
      else if m == "\x7b" then return .block (← block g)
      else expressionStatement g
  | .reserved text => wordStatement g t text
  | .contextual text => wordStatement g t text
  | _ => expressionStatement g

end Parser

/-- All parsers tied together, for scripts nested up to a given depth. -/
def Grammar.ofDepth : Nat → Grammar
  | 0 =>
      { assignment := Parser.fail .tooDeep, relational := Parser.fail .tooDeep
        power := Parser.fail .tooDeep, unary := Parser.fail .tooDeep
        member := Parser.fail .tooDeep, callee := Parser.fail .tooDeep
        object := Parser.fail .tooDeep, statement := Parser.fail .tooDeep }
  | depth + 1 =>
      { assignment := fun c p => Parser.assignment (ofDepth depth) c p
        relational := fun c p => Parser.relational (ofDepth depth) c p
        power := fun c p => Parser.power (ofDepth depth) c p
        unary := fun c p => Parser.unary (ofDepth depth) c p
        member := fun c p => Parser.member (ofDepth depth) c p
        callee := fun c p => Parser.callee (ofDepth depth) c p
        object := fun c p => Parser.objectLiteral (ofDepth depth) c p
        statement := fun c p => Parser.statement (ofDepth depth) c p }

/-- All statements of a source. -/
def parseStatements (source : String) : Except ParseFailure (List Stmt) := do
  let cs := source.toList
  let size := 4 * (cs.length + 4)
  let (token, cursor) ← Cursor.scanFirst cs
  let context : Context :=
    { size, source := source.toUTF8, allowIn := true, inIteration := false, inSwitch := false
      inFunction := false, inParams := false, inAsync := false, allowAwait := false
      allowYield := false, labels := [] }
  let g := Grammar.ofDepth (8 * size)
  let all : Parser (List Stmt) := Parser.loop (fun done => do
    if (← Parser.token).isEof then return .inr done.reverse
    else
      Parser.allowLet true
      return .inl ((← g.statement) :: done)) []
  let (list, _) ← all context { token, cursor, allowLet := true }
  return list

end FrozenGlobals.Script
