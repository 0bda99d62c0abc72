import FrozenGlobals.Script.Grammar.Target

/-!
# Functions, classes and object literals

The constructs with bodies: parameter lists, function and arrow bodies, methods, classes, and the
properties of object literals.
-/

namespace FrozenGlobals.Script.Parser

/-! ## Lists -/

/-- Statements up to a closing brace. -/
def statements (g : Grammar) : Parser (List Stmt) :=
  loop (fun done => do
    let t ← token
    if t.isMark "\x7d" || t.isEof then return .inr done.reverse
    else
      allowLet true
      let s ← g.statement
      return .inl (s :: done)) []

/-- Statements in braces. -/
def block (g : Grammar) : Parser Block := do
  let start ← mark "\x7b"
  let list ← statements g
  let stop ← mark "\x7d"
  return .mk ⟨start, stop + 1⟩ list

/-- One or more items with commas between them. -/
def sequenceOf (item : Parser Expr) : Parser Expr := do
  let first ← item
  if ← atMark "," then
    let list ← loop (fun done => do
      if ← skipMark "," then return .inl ((← item) :: done)
      else return .inr done.reverse) [first]
    return .sequence (first.span.through (list.getLast?.getD first).span) list
  else return first

/-- One or more expressions with commas between them. -/
def expression (g : Grammar) : Parser Expr := sequenceOf g.assignment

/-- An expression, or a spread one. -/
def spreadable (g : Grammar) : Parser Expr := do
  if ← skipMark "..." then return .spread (← g.assignment) else g.assignment

/-- An array literal. -/
def arrayLiteral (g : Grammar) : Parser Expr := do
  let start ← mark "["
  let items ← loop (fun done => do
    if ← atMark "]" then return .inr done.reverse
    else if ← skipMark "," then return .inl (none :: done)
    else
      let item ← spreadable g
      if !(← atMark "]") then discard (mark ",")
      return .inl (some item :: done)) []
  let stop ← mark "]"
  return .array ⟨start, stop + 1⟩ items

/-- The arguments of a call and where the closing parenthesis stands. -/
def arguments (g : Grammar) : Parser (List Expr × Nat) := do
  discard (mark "(")
  let items ← loop (fun done => do
    if ← atMark ")" then return .inr done.reverse
    else
      let item ← spreadable g
      if ← skipMark "," then return .inl (item :: done)
      else return .inr (item :: done).reverse) []
  let stop ← mark ")"
  return (items, stop)

/-! ## Property keys -/

/-- How a property key is written. -/
inductive KeyForm where
  | computed | name | literal | hidden
deriving DecidableEq

/-- A property key, and the token it is if it is not computed. -/
structure Key where
  expr : Expr
  form : KeyForm
  token : Token

def Key.computed (k : Key) : Bool := k.form == .computed

/-- The name a key spells, for the checks on special members. -/
def Key.name (k : Key) : String :=
  match k.token.lexeme, k.form with
  | _, .computed => ""
  | .string value, _ => value
  | .privateName name, _ => name
  | _, _ => k.token.anyName?.getD ""

def propertyKey (g : Grammar) : Parser Key := do
  let t ← token
  if ← skipMark "[" then
    let e ← g.assignment
    discard (mark "]")
    return ⟨e, .computed, t⟩
  else
    let span : Span := ⟨t.start, t.start + t.text.utf8ByteSize⟩
    let key : Option (Expr × KeyForm) :=
      match t.lexeme with
      | .string value => some (.string span value, .literal)
      | .number value => some (.number span value, .literal)
      | .privateName name =>
          some (.privateName ⟨t.start, t.start + nameSize name⟩ name, .hidden)
      | _ => t.anyName?.map fun name => (.string span name, .name)
    match key with
    | some (e, form) => next; return ⟨e, form, t⟩
    | none => unexpected

/-! ## Parameters -/

/-- What a declaration binds. -/
def bindingTarget (g : Grammar) : Parser Pattern := do
  if ← atBindable then return .leaf (.identifier (← anyName))
  else if ← atMark "[" then toBound (← arrayLiteral g)
  else if ← atMark "\x7b" then toBound (← g.object)
  else unexpected

/-- A declarator or parameter. -/
def binding (g : Grammar) : Parser Binding := do
  let target ← bindingTarget g
  if ← skipMark "=" then return .mk target (some (← g.assignment)) else return .mk target none

/-- One or more declarators with commas between them. -/
def bindings (g : Grammar) : Parser (List Binding) := do
  let first ← binding g
  loop (fun done => do
    if ← skipMark "," then return .inl ((← binding g) :: done)
    else return .inr done.reverse) [first]

/-- Parameters in parentheses. -/
def parameters (g : Grammar) : Parser Params := do
  let start ← mark "("
  under ({ · with inParams := true }) do
    let (items, rest) ← loop (fun (done : List Binding) => do
      if ← atMark ")" then return .inr (done.reverse, none)
      else if ← skipMark "..." then return .inr (done.reverse, some (← toBound (← g.assignment)))
      else
        let b ← binding g
        if !(← atMark ")") then discard (mark ",")
        return .inl (b :: done)) []
    let stop ← mark ")"
    return .mk ⟨start, stop + 1⟩ items rest

/-! ## Bodies -/

/-- The context of a function body. -/
def bodyContext (isAsync allowAwait allowYield : Bool) (c : Context) : Context :=
  { c with
    allowIn := true, inIteration := false, inSwitch := false, inFunction := true, inParams := false
    inAsync := isAsync, allowAwait, allowYield, labels := [] }

def functionBlock (g : Grammar) (isAsync allowAwait allowYield : Bool) : Parser Block := do
  let before := (← get).allowLet
  let body ← under (bodyContext isAsync allowAwait allowYield) (block g)
  allowLet before
  return body

/-- The body of an arrow. An expression body sees the surroundings of the arrow. -/
def arrowBody (g : Grammar) (isAsync : Bool) : Parser Body := do
  if ← atMark "\x7b" then return .block (← functionBlock g isAsync isAsync false)
  else
    let context ← read
    if isAsync != context.inAsync || isAsync != context.allowAwait then
      .expression <$> under
        ({ · with inAsync := isAsync, allowAwait := isAsync, allowYield := false }) g.assignment
    else .expression <$> g.assignment

/-- The arrow and body behind a parameter list. -/
def arrow (g : Grammar) (start : Nat) (params : Params) (isAsync : Bool) : Parser Expr := do
  discard (mark "=>")
  let body ← arrowBody g isAsync
  return .function (.mk ⟨start, body.span.stop⟩ true none params body)

/-- A getter has no parameter and a setter has one. -/
def checkAccessor (kind : PropertyKind) (params : Params) : Parser Unit :=
  match kind, params.items, params.rest with
  | .getter, [], none => pure ()
  | .getter, _, _ => fail .malformedParameters
  | .setter, [_], none => pure ()
  | .setter, _, _ => fail .malformedParameters
  | _, _, _ => pure ()

/-- The parameters and body of a method whose text starts at `start`. -/
def method (g : Grammar) (start : Nat) (kind : PropertyKind) (generator isAsync : Bool) :
    Parser Function := do
  let params ← under ({ · with allowYield := generator, allowAwait := isAsync }) (parameters g)
  checkAccessor kind params
  let body ← functionBlock g isAsync isAsync generator
  return .mk ⟨start, body.span.stop⟩ false none params (.block body)

/-- A function from the word `function` on; its text starts at `start`. The name of an expression
is read inside the function and that of a declaration outside. -/
def function (g : Grammar) (declaration isAsync : Bool) (start : Nat) : Parser Function := do
  discard (word "function")
  let generator ← skipMark "*"
  let inside {α : Type} (p : Parser α) : Parser α :=
    under ({ · with allowYield := generator, allowAwait := isAsync }) p
  let name ← if declaration then some <$> name else inside name?
  let params ← inside (parameters g)
  let body ← functionBlock g isAsync isAsync generator
  return .mk ⟨start, body.span.stop⟩ false name params (.block body)

/-! ## Object literals -/

/-- A method, getter or setter of an object literal. -/
def keyedMethod (g : Grammar) (start : Nat) (kind : PropertyKind) (key : Key)
    (generator isAsync : Bool) : Parser Property := do
  return .keyed key.expr key.computed kind (.function (← method g start kind generator isAsync))

/-- A property of an object literal. -/
def property (g : Grammar) : Parser Property := do
  if ← skipMark "..." then return .spread (← g.assignment)
  let start := (← token).start
  let generator ← skipMark "*"
  let key ← propertyKey g
  let value : Parser Property := do
    discard (mark ":")
    return .keyed key.expr key.computed .value (← g.assignment)
  let t ← token
  if key.form == .hidden then value
  else if generator then keyedMethod g start .method key true false
  else if t.isMark "(" then keyedMethod g start .method key false false
  else if t.isMark "," || t.isMark "\x7d" || t.isMark "=" then
    -- the initializer is for the case that the literal is read again as a pattern
    if key.form == .name && isBindable (← read) key.token then
      let init ← if ← skipMark "=" then some <$> g.assignment else pure none
      return .short (identifierAt key.name key.token.start) init
    else unexpected
  else if key.form == .name && !t.isMark ":"
      && (key.token.spells "get" || key.token.spells "set" || key.token.isWord "async") then
    let isAsync := key.token.isWord "async"
    let kind : PropertyKind :=
      if isAsync then .method else if key.token.spells "get" then .getter else .setter
    keyedMethod g start kind (← propertyKey g) false isAsync
  else value

/-- An object literal. -/
def objectLiteral (g : Grammar) : Parser Expr := do
  let start ← mark "\x7b"
  let properties ← loop (fun done => do
    if ← atMark "\x7d" then return .inr done.reverse
    else
      let p ← property g
      if !(← atMark "\x7d") then discard (mark ",")
      return .inl (p :: done)) []
  let stop ← mark "\x7d"
  return .object ⟨start, stop + 1⟩ properties

/-! ## Classes -/

/-- What a class member must not be. -/
def checkMember (key : Key) (isStatic generator isAsync : Bool) (kind : Option PropertyKind) :
    Parser Unit := do
  let hidden := key.form == .hidden
  if isStatic && !hidden && key.name == "prototype" then
    fail (.misplaced "a static member named prototype")
  if key.name == "constructor" then
    match kind with
    | none => fail (.misplaced "a field named constructor")
    | some kind =>
        if isStatic then
          if hidden then fail (.misplaced "a private constructor")
        else if kind != .method || isAsync || generator then
          fail (.misplaced "a constructor that is no plain method")

/-- A member of a class. The word `static` is passed if it marks the member. -/
def classElement (g : Grammar) : Parser ClassElement := do
  let start := (← token).start
  let isStatic ← do
    if ← atWord "static" then
      let after ← peek
      if ["=", ";", "\x7d", "("].any after.isMark then pure false
      else next; pure true
    else pure false
  if isStatic && (← atMark "\x7b") then
    return .staticBlock start (← functionBlock g false true false)
  let t ← token
  let marked ← do
    if t.spells "get" || t.spells "set" || t.isWord "async" then
      let after ← peek
      if after.isMark ";" || after.isMark "(" then pure false
      else next; pure true
    else pure false
  let isAsync := marked && t.isWord "async"
  let kind : Option PropertyKind :=
    if !marked then none
    else if t.spells "get" then some .getter
    else if t.spells "set" then some .setter
    else some .method
  let generator ← if kind == none || kind == some .method then skipMark "*" else pure false
  let key ← propertyKey g
  let kind ← do
    if generator then pure (some PropertyKind.method)
    else if kind == none && (← atMark "(") then pure (some PropertyKind.method)
    else pure kind
  checkMember key isStatic generator isAsync kind
  match kind with
  | some kind => return .method start key.expr (← method g t.start kind generator isAsync)
  | none =>
      let init ← if ← skipMark "=" then some <$> expression g else pure none
      let t ← token
      if t.newline || t.isMark ";" || t.isMark "\x7d" then return .field start key.expr init
      else unexpected

/-- A class. One in the place of a single statement is refused. -/
def classLiteral (g : Grammar) (declaration : Bool) : Parser Class := do
  if !(← get).allowLet then unexpected
  let start ← word "class"
  let name ← if declaration then some <$> name else name?
  let superclass ← do
    if ← atMark "\x7b" then pure none
    else
      discard (word "extends")
      some <$> g.callee
  discard (mark "\x7b")
  let elements ← loop (fun done => do
    if ← atMark "\x7d" then return .inr done.reverse
    else if ← skipMark ";" then return .inl done
    else return .inl ((← classElement g) :: done)) []
  let stop ← mark "\x7d"
  return .mk ⟨start, stop + 1⟩ name superclass elements

end FrozenGlobals.Script.Parser
