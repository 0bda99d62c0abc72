import FrozenGlobals.Script.Grammar.Function

/-!
# Expressions

Expressions from the atoms up to assignments and arrows. Infix operators of one rank group to the
left, except comparisons and powers, which group to the right.

An opening parenthesis may start an operand or the parameters of an arrow: the operand is tried
first, and when an arrow follows, what was read becomes its parameters. Parentheses are read again
only when they hold what no operand holds, so that a fault deep inside is met once.
-/

namespace FrozenGlobals.Script.Parser

/-! ## Atoms -/

/-- A regular expression, on its opening slash. Letters right behind it are its flags; its range
then reaches to the last character but one of what has been read. -/
def regExp : Parser Expr := do
  let start := (← token).start
  let cursor := (← get).cursor
  match regExpBody? false cursor.rest with
  | none => throw ⟨start, .openRegExp⟩
  | some (body, _) =>
      let cursor := { cursor.advance body.length with mayEnd := true }
      let flagged := match cursor.rest with
        | c :: _ => !(isLineEnd c || (Text.isBlank c && c.toNat != 0x85) || c.toNat == 0xfeff)
        | [] => true
      modify ({ · with cursor })
      next
      match (← token).lexeme with
      | .identifier _ =>
          if flagged then
            next
            return .regExp ⟨start, ((← get).cursor.offset : Int) - 1⟩
          else return .regExp ⟨start, cursor.offset⟩
      | _ => return .regExp ⟨start, cursor.offset⟩

/-- A template, on its opening quote. -/
def template (g : Grammar) (tag : Option Expr) : Parser Expr := do
  let start := (← token).start
  let (parts, stop) ← loop (fun (done : List Expr) => do
    let cursor := (← get).cursor
    match templateBody? cursor.rest with
    | none => throw ⟨cursor.offset, .malformedTemplate⟩
    | some (text, last, _) =>
        if tag.isNone && !(templateIsPlain text && (unescape? true text).isSome) then
          throw ⟨cursor.offset, .malformedTemplate⟩
        let cursor := cursor.advance (text.length + if last == .quote then 1 else 2)
        modify ({ · with cursor := { cursor with mayEnd := true } })
        next
        if last == .quote then return .inr (done.reverse, cursor.offset)
        else
          let part ← expression g
          if ← atMark "\x7d" then return .inl (part :: done) else unexpected) []
  return .template ⟨start, stop⟩ tag parts

/-- An item of the parentheses that open at `start`. An empty list, a comma before the end and a
rest are left to the parameters of arrows. -/
def parenthesisedItem (g : Grammar) (start : Nat) : Parser Expr := do
  let t ← token
  if t.isMark ")" || t.isMark "..." then throw ⟨t.start, .bareParameters start⟩
  else g.assignment

/-- An operand in parentheses. -/
def parenthesised (g : Grammar) : Parser Expr := do
  let start ← mark "("
  let e ← sequenceOf (parenthesisedItem g start)
  discard (mark ")")
  return e

/-- The member behind a point. -/
def dotMember (left : Expr) : Parser Expr := do
  next
  let t ← token
  match t.lexeme with
  | .privateName name =>
      next
      return .privateDot ⟨left.span.start, t.start + nameSize name⟩ left name
  | _ =>
      let id ← anyName
      return .dot (left.span.through id.span) left id.name

/-- The member in brackets. -/
def bracketMember (g : Grammar) (left : Expr) : Parser Expr := do
  discard (mark "[")
  let key ← expression g
  let stop ← mark "]"
  return .bracket ⟨left.span.start, stop + 1⟩ left key

/-- A call. -/
def call (g : Grammar) (callee : Expr) : Parser Expr := do
  let (list, stop) ← arguments g
  return .call ⟨callee.span.start, stop + 1⟩ callee list

/-- `super` with the member or call that has to follow. -/
def superMember (g : Grammar) : Parser Expr := do
  let start ← word "super"
  let base : Expr := .superValue ⟨start, start + 5⟩
  let t ← token
  if t.isMark "." then
    next
    let id ← anyName
    return .dot (base.span.through id.span) base id.name
  else if t.isMark "[" then bracketMember g base
  else if t.isMark "(" then call g base
  else throw ⟨start, .misplaced "super"⟩

/-- An atom named by a word. -/
def wordAtom (g : Grammar) (t : Token) : Parser Expr := do
  let span : Span := ⟨t.start, t.start + t.text.utf8ByteSize⟩
  if t.isWord "null" then next; return .null span
  else if t.isWord "true" then next; return .boolean span true
  else if t.isWord "false" then next; return .boolean span false
  else if t.isWord "this" then next; return .thisValue span
  else if t.isWord "super" then superMember g
  else if t.isWord "function" then return .function (← function g false false t.start)
  else if t.isWord "class" then return .classLiteral (← classLiteral g false)
  else if t.isWord "async" && (← peek).isWord "function" then
    next
    return .function (← function g false true t.start)
  else return .identifier (← name)

/-- An atom. -/
def atom (g : Grammar) : Parser Expr := do
  let t ← token
  let span : Span := ⟨t.start, t.start + t.text.utf8ByteSize⟩
  match t.lexeme with
  | .string value => next; return .string span value
  | .number value => next; return .number span value
  | .mark m =>
      if m == "(" then parenthesised g
      else if m == "[" then arrayLiteral g
      else if m == "\x7b" then g.object
      else if m == "/" || m == "/=" then regExp
      else if m == "`" then template g none
      else unexpected
  | .eof | .privateName _ => unexpected
  | _ => wordAtom g t

/-! ## Members and calls -/

/-- `new` with its callee and arguments, or `new.target`. -/
def construct (g : Grammar) : Parser Expr := do
  let start ← word "new"
  if ← skipMark "." then
    let t ← token
    if t.spells "target" then
      next
      return .newTarget ⟨-1, t.start + nameSize "target"⟩
    else unexpected
  else
    let callee ← g.member
    if ← atMark "(" then
      let (list, stop) ← arguments g
      let stop : Int := if list.isEmpty then callee.span.stop else stop + 1
      return .construct ⟨start, stop⟩ callee list
    else return .construct ⟨start, callee.span.stop⟩ callee []

/-- An atom or `new`. -/
def head (g : Grammar) : Parser Expr := do
  if ← atWord "new" then construct g else atom g

/-- Members without calls. -/
def member (g : Grammar) : Parser Expr := do
  let first ← head g
  loop (fun left => do
    let t ← token
    if t.isMark "." then return .inl (← dotMember left)
    else if t.isMark "[" then return .inl (← bracketMember g left)
    else if t.isMark "`" then return .inl (← template g (some left))
    else return .inr left) first

/-- Members, calls and optional chains. -/
def callee (g : Grammar) : Parser Expr := under ({ · with allowIn := true }) do
  let first ← head g
  let (chained, e) ← loop (fun ((chained, left) : Bool × Expr) => do
    let t ← token
    if t.isMark "." then return .inl (chained, ← dotMember left)
    else if t.isMark "[" then return .inl (chained, ← bracketMember g left)
    else if t.isMark "(" then return .inl (chained, ← call g left)
    else if t.isMark "`" then
      if chained then fail .malformedTemplate
      else return .inl (chained, ← template g (some left))
    else if t.isMark "?." then
      let after ← peek
      if after.isMark "[" || after.isMark "(" || after.isMark "`" then
        next
        return .inl (true, .optional left)
      else return .inl (true, ← dotMember (.optional left))
    else return .inr (chained, left)) (false, first)
  return if chained then .optionalChain e else e

/-! ## Operators -/

/-- A unary operator. -/
def unaryOp? (t : Token) : Option UnaryOp :=
  match t.lexeme with
  | .mark "+" => some .plus
  | .mark "-" => some .minus
  | .mark "!" => some .not
  | .mark "~" => some .bitNot
  | .reserved "delete" => some .delete
  | .reserved "void" => some .void
  | .reserved "typeof" => some .typeOf
  | _ => none

/-- An operand, perhaps with `++` or `--` behind it on the same line. -/
def updated (g : Grammar) : Parser Expr := do
  let operand ← g.callee
  let t ← token
  if (t.isMark "++" || t.isMark "--") && !t.newline then
    next
    if operand.isAssignable then
      return .update ⟨operand.span.start, operand.span.stop + 2⟩ operand
    else throw ⟨t.start, .badTarget⟩
  else return operand

/-- An operand with the operators in front of it. -/
def unary (g : Grammar) : Parser Expr := do
  let t ← token
  match unaryOp? t with
  | some op =>
      next
      let operand ← g.unary
      return .unary ⟨t.start, operand.span.stop⟩ op operand
  | none =>
      if t.isMark "++" || t.isMark "--" then
        next
        let operand ← g.unary
        if operand.isAssignable then return .update ⟨t.start, operand.span.stop⟩ operand
        else throw ⟨t.start, .badTarget⟩
      else if t.isWord "await" && (← read).allowAwait then
        next
        let context ← read
        if !context.inAsync || context.inParams then throw ⟨t.start, .misplaced "await"⟩
        let operand ← g.unary
        return .await ⟨t.start, operand.span.stop⟩ operand
      else updated g

/-- A binary expression over its operands. -/
def binaryOf (op : BinaryOp) (left right : Expr) : Expr :=
  .binary (left.span.through right.span) op left right

/-- Powers group to the right; their base has no unary operator unless parentheses open it. -/
def power (g : Grammar) : Parser Expr := do
  let opened ← atMark "("
  let left ← g.unary
  if ← atMark "**" then
    match left with
    | .unary .. => if !opened then fail .unaryBeforePower
    | _ => pure ()
    loop (fun left => do
      if ← skipMark "**" then return .inl (binaryOf .power left (← g.power))
      else return .inr left) left
  else return left

/-- Operands of one rank, grouped to the left. -/
def leftGrouped (ops : List (String × BinaryOp)) (operand : Parser Expr) : Parser Expr := do
  let first ← operand
  loop (fun left => do
    let t ← token
    match ops.find? fun (text, _) => t.isMark text with
    | some (_, op) =>
        next
        return .inl (binaryOf op left (← operand))
    | none => return .inr left) first

def shift (g : Grammar) : Parser Expr :=
  leftGrouped [("<<", .shiftLeft), (">>", .shiftRight), (">>>", .shiftRightUnsigned)]
    (leftGrouped [("+", .add), ("-", .subtract)]
      (leftGrouped [("*", .multiply), ("/", .divide), ("%", .remainder)] g.power))

/-- The comparison a token stands for; `in` may be reserved for a loop head. -/
def comparison? (allowIn : Bool) (t : Token) : Option BinaryOp :=
  match t.lexeme with
  | .mark "<" => some .less
  | .mark "<=" => some .lessEqual
  | .mark ">" => some .greater
  | .mark ">=" => some .greaterEqual
  | .reserved "instanceof" => some .instanceOf
  | .reserved "in" => if allowIn then some .memberOf else none
  | _ => none

/-- A private name tested with `in`, or standing alone. -/
def privateTest (g : Grammar) (t : Token) (name : String) : Parser Expr := do
  let left : Expr := .privateName ⟨t.start, t.start + nameSize name⟩ name
  next
  if ← atWord "in" then
    next
    return binaryOf .privateIn left (← shift g)
  else return left

/-- Comparisons group to the right. -/
def relational (g : Grammar) : Parser Expr := do
  let t ← token
  let allowIn := (← read).allowIn
  match t.lexeme, allowIn with
  | .privateName name, true => privateTest g t name
  | _, _ =>
      let left ← shift g
      match comparison? allowIn (← token) with
      | some op => under ({ · with allowIn := true }) do
          next
          return binaryOf op left (← g.relational)
      | none => return left

/-- Equality, bit operations and conjunctions. -/
def conjunction (g : Grammar) : Parser Expr :=
  leftGrouped [("&&", .and)]
    (leftGrouped [("|", .bitOr)]
      (leftGrouped [("^", .bitXor)]
        (leftGrouped [("&", .bitAnd)]
          (leftGrouped [("==", .equal), ("!=", .notEqual), ("===", .strictEqual),
            ("!==", .strictNotEqual)] g.relational))))

/-- An expression is a conjunction. -/
def isConjunction : Expr → Bool
  | .binary _ .and _ _ => true
  | _ => false

/-- A conjunction that does not start with a parenthesis, or any other expression. -/
def openConjunction (g : Grammar) : Parser (Bool × Expr) := do
  let opened ← atMark "("
  let e ← conjunction g
  return (!opened && isConjunction e, e)

/-- Disjunctions or `??`, never mixed. -/
def disjunction (g : Grammar) : Parser Expr := do
  let (bare, first) ← openConjunction g
  if bare || (← atMark "||") then
    loop (fun left => do
      if ← skipMark "||" then return .inl (binaryOf .or left (← conjunction g))
      else if ← atMark "??" then fail .mixedLogical
      else return .inr left) first
  else
    loop (fun left => do
      if ← skipMark "??" then
        let (bare, right) ← openConjunction g
        if bare then fail .mixedLogical
        return .inl (binaryOf .nullish left right)
      else if ← atMark "||" then fail .mixedLogical
      else return .inr left) first

/-- A conditional or anything of higher rank. -/
def conditional (g : Grammar) : Parser Expr := do
  let test ← disjunction g
  if ← skipMark "?" then
    let yes ← under ({ · with allowIn := true }) g.assignment
    discard (mark ":")
    let no ← g.assignment
    return .conditional (test.span.through no.span) test yes no
  else return test

/-! ## Assignments and arrows -/

/-- The operator of an assignment. -/
def assignOp? (t : Token) : Option AssignOp :=
  match t.lexeme with
  | .mark "=" => some .plain
  | .mark "+=" => some (.combined .add)
  | .mark "-=" => some (.combined .subtract)
  | .mark "*=" => some (.combined .multiply)
  | .mark "/=" => some (.combined .divide)
  | .mark "%=" => some (.combined .remainder)
  | .mark "**=" => some (.combined .power)
  | .mark "<<=" => some (.combined .shiftLeft)
  | .mark ">>=" => some (.combined .shiftRight)
  | .mark ">>>=" => some (.combined .shiftRightUnsigned)
  | .mark "&=" => some (.combined .bitAnd)
  | .mark "|=" => some (.combined .bitOr)
  | .mark "^=" => some (.combined .bitXor)
  | .mark "&&=" => some (.combined .and)
  | .mark "||=" => some (.combined .or)
  | .mark "??=" => some (.combined .nullish)
  | _ => none

/-- The target of an assignment. A pattern is neither in parentheses nor combined. -/
def assignTarget (op : AssignOp) (opened : Bool) (left : Expr) : Parser Pattern := do
  if left.isAssignable then return .leaf left
  else
    match left with
    | .array .. | .object .. =>
        if !opened && op == .plain then toTarget left
        else throw ⟨left.span.start.toNat, .badTarget⟩
    | _ => throw ⟨left.span.start.toNat, .badTarget⟩

/-- The rest of an assignment behind its left side, or the left side alone. -/
def assignmentTail (g : Grammar) (opened : Bool) (left : Expr) : Parser Expr := do
  match assignOp? (← token) with
  | some op =>
      let target ← assignTarget op opened left
      next
      let value ← g.assignment
      return .assign (left.span.through value.span) op target value
  | none => return left

/-- The parameters of an arrow whose parenthesis starts at the current token. -/
def arrowAt (g : Grammar) (start : Nat) (isAsync : Bool) : Parser Expr := do
  arrow g start (← parameters g) isAsync

/-- An arrow with a single name for parameters. -/
def nameArrow (g : Grammar) (start : Nat) (isAsync : Bool) (id : Identifier) (extra : Int) :
    Parser Expr :=
  arrow g start (.mk ⟨id.span.start, id.span.stop + extra⟩
    [.mk (.leaf (.identifier id)) none] none) isAsync

/-- An expression that starts with a parenthesis. A sequence before an arrow is its parameters and
its list has no place of its own. -/
def openedAssignment (g : Grammar) : Parser Expr := do
  let start := (← token).start
  let position ← get
  match ← attempt (·.fault == .bareParameters start) (conditional g) with
  | none => arrowAt g start false
  | some left =>
      if ← atMark "=>" then
        match left with
        | .identifier id => nameArrow g start false id 0
        | .sequence _ items =>
            let params ← items.mapM toParameter
            arrow g start (.mk ⟨-1, 0⟩ params none) false
        | _ =>
            set position
            arrowAt g start false
      else assignmentTail g true left

/-- An expression that starts with the word `async` and a parenthesis: an arrow if one follows, or
else a call. -/
def asyncAssignment (g : Grammar) : Parser Expr := do
  let start := (← token).start
  let position ← get
  let left ← conditional g
  if ← atMark "=>" then
    match left with
    | .identifier id => nameArrow g start true id 0
    | .call .. =>
        set position
        next
        under ({ · with allowAwait := true }) (arrowAt g start true)
    | _ => fail .malformedParameters
  else assignmentTail g false left

/-- A `yield` expression. Its argument may be missing. -/
def yieldExpression (g : Grammar) : Parser Expr := do
  let start ← word "yield"
  if (← read).inParams then throw ⟨start, .misplaced "yield"⟩
  let t ← token
  if !t.newline && t.isMark "*" then next
  let t ← token
  let argument ←
    if t.newline || t.isMark ";" || t.isMark "\x7d" || t.isEof then pure none
    else attempt (fun e => e.offset == t.start && !e.fault.isFatal) g.assignment
  return .yield ⟨start, (argument.map fun e => e.span.stop).getD (start + 5)⟩ argument

/-- An expression that starts neither with a parenthesis nor with `yield` or `async (`. -/
def plainAssignment (g : Grammar) : Parser Expr := do
  let start := (← token).start
  let left ← conditional g
  if ← atMark "=>" then
    match left with
    | .identifier id => nameArrow g start false id 0
    | _ => throw ⟨left.span.start.toNat, .malformedParameters⟩
  else assignmentTail g false left

/-- An expression without commas. The parameter list of `async x => …` reaches one character past
the name. -/
def assignment (g : Grammar) : Parser Expr := do
  let t ← token
  if t.isMark "(" then openedAssignment g
  else if t.isWord "yield" && (← read).allowYield then yieldExpression g
  else if t.isWord "async" then
    let after ← peek
    if isBindable (← read) after then
      next
      under ({ · with allowAwait := true }) do nameArrow g t.start true (← name) 1
    else if after.isMark "(" then asyncAssignment g
    else plainAssignment g
  else plainAssignment g

end FrozenGlobals.Script.Parser
