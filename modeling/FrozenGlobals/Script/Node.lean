import FrozenGlobals.Script.Tree

/-!
# Nodes

Syntax trees seen uniformly: a `Node` is any node of any category, `Node.children` lists its direct
children in source order, and `Node.kind` classifies it. Traversals that treat all categories alike,
such as the outline of a program or the collection of hoisted names, recurse through `children`;
`Node.sizeOf_lt_of_mem_children` is what makes them terminate.
-/

namespace FrozenGlobals.Script

/-- The classes of nodes named in listings, warnings and errors. -/
inductive NodeKind where
  | unknown | program | block | expressionStatement | variableStatement | lexicalDeclaration
  | functionDeclaration | classDeclaration | returnStatement | ifStatement | forStatement
  | forIn | forOf | whileStatement | doWhile | switchStatement | tryStatement | throwStatement
  | labelled | branch | empty | identifier | literal | template | array | object | function
  | arrow | classLiteral | call | construct | member | assign | unary | update | binary
  | conditional | sequence | optional | spread | thisValue | pattern | other
deriving DecidableEq, Repr, Inhabited

namespace NodeKind

/-- All kinds, in the order of their numbers. -/
def all : List NodeKind :=
  [.unknown, .program, .block, .expressionStatement, .variableStatement, .lexicalDeclaration,
   .functionDeclaration, .classDeclaration, .returnStatement, .ifStatement, .forStatement,
   .forIn, .forOf, .whileStatement, .doWhile, .switchStatement, .tryStatement, .throwStatement,
   .labelled, .branch, .empty, .identifier, .literal, .template, .array, .object, .function,
   .arrow, .classLiteral, .call, .construct, .member, .assign, .unary, .update, .binary,
   .conditional, .sequence, .optional, .spread, .thisValue, .pattern, .other]

/-- The kind with a given number; numbers out of range are unknown. -/
def ofInt (i : Int) : NodeKind :=
  if i < 0 then .unknown else (all[i.toNat]?).getD .unknown

def name : NodeKind → String
  | .unknown => "unknown"
  | .program => "program"
  | .block => "block"
  | .expressionStatement => "expression-statement"
  | .variableStatement => "var"
  | .lexicalDeclaration => "lexical"
  | .functionDeclaration => "function-declaration"
  | .classDeclaration => "class-declaration"
  | .returnStatement => "return"
  | .ifStatement => "if"
  | .forStatement => "for"
  | .forIn => "for-in"
  | .forOf => "for-of"
  | .whileStatement => "while"
  | .doWhile => "do-while"
  | .switchStatement => "switch"
  | .tryStatement => "try"
  | .throwStatement => "throw"
  | .labelled => "labelled"
  | .branch => "branch"
  | .empty => "empty"
  | .identifier => "identifier"
  | .literal => "literal"
  | .template => "template"
  | .array => "array"
  | .object => "object"
  | .function => "function"
  | .arrow => "arrow"
  | .classLiteral => "class"
  | .call => "call"
  | .construct => "new"
  | .member => "member"
  | .assign => "assign"
  | .unary => "unary"
  | .update => "update"
  | .binary => "binary"
  | .conditional => "conditional"
  | .sequence => "sequence"
  | .optional => "optional"
  | .spread => "spread"
  | .thisValue => "this"
  | .pattern => "pattern"
  | .other => "other"

end NodeKind

/-- A node of any category. -/
inductive Node where
  | program (body : List Stmt)
  | stmt (s : Stmt)
  | block (b : Block)
  | expr (e : Expr)
  | pattern (p : Pattern)
  | item (i : PatternItem)
  | patternProperty (p : PatternProperty)
  | property (p : Property)
  | function (f : Function)
  | params (p : Params)
  | body (b : Body)
  | binding (b : Binding)
  | classLiteral (c : Class)
  | element (e : ClassElement)
  | forInit (i : ForInit)
  | forTarget (t : ForTarget)
  | clause (c : Case)
  | handler (c : Catch)

def Function.kind (f : Function) : NodeKind := if f.isArrow then .arrow else .function

def Expr.kind : Expr → NodeKind
  | .identifier _ => .identifier
  | .string .. | .number .. | .boolean .. | .null _ | .regExp _ => .literal
  | .template .. => .template
  | .array .. => .array
  | .object .. => .object
  | .function fn => fn.kind
  | .classLiteral _ => .classLiteral
  | .call .. => .call
  | .construct .. => .construct
  | .dot .. | .bracket .. | .privateDot .. => .member
  | .assign .. => .assign
  | .unary .. => .unary
  | .update .. => .update
  | .binary .. => .binary
  | .conditional .. => .conditional
  | .sequence .. => .sequence
  | .optional _ | .optionalChain _ => .optional
  | .spread _ => .spread
  | .thisValue _ => .thisValue
  | .privateName .. | .superValue _ | .newTarget _ | .yield .. | .await .. => .other

def Stmt.kind : Stmt → NodeKind
  | .block _ => .block
  | .expression _ => .expressionStatement
  | .declareVar .. => .variableStatement
  | .declareLexical .. => .lexicalDeclaration
  | .declareFunction _ => .functionDeclaration
  | .declareClass _ => .classDeclaration
  | .returnWith .. => .returnStatement
  | .throwWith .. => .throwStatement
  | .ifElse .. => .ifStatement
  | .forLoop .. => .forStatement
  | .forEach _ .forIn _ _ _ => .forIn
  | .forEach _ .forOf _ _ _ => .forOf
  | .whileLoop .. => .whileStatement
  | .doWhile .. => .doWhile
  | .switchOn .. => .switchStatement
  | .tryCatch .. => .tryStatement
  | .labelled .. => .labelled
  | .jump _ => .branch
  | .empty _ => .empty
  | .withObject .. | .debugger _ => .other

def Pattern.kind : Pattern → NodeKind
  | .leaf target => target.kind
  | .array .. | .object .. => .pattern

/-- A position with a default reads as an assignment. -/
def PatternItem.kind : PatternItem → NodeKind
  | .mk target none => target.kind
  | .mk _ (some _) => .assign

namespace Node

def kind : Node → NodeKind
  | .program _ => .program
  | .stmt s => s.kind
  | .block _ => .block
  | .expr e => e.kind
  | .pattern p => p.kind
  | .item i => i.kind
  | .property (.spread _) => .spread
  | .property _ => .other
  | .function f => f.kind
  | .classLiteral _ => .classLiteral
  | .patternProperty _ | .params _ | .body _ | .binding _ | .element _ | .forInit _
  | .forTarget _ | .clause _ | .handler _ => .other

/-- The range of a node. An empty program and a clause without statements have none. -/
def span? : Node → Option Span
  | .program [] => none
  | .program (first :: rest) =>
      some (first.span.through ((first :: rest).getLast (by simp)).span)
  | .stmt s => some s.span
  | .block b => some b.span
  | .expr e => some e.span
  | .pattern p => some p.span
  | .item i => some i.span
  | .patternProperty p => some p.span
  | .property p => some p.span
  | .function f => some f.span
  | .params p => some p.span
  | .body b => some b.span
  | .binding b => some b.span
  | .classLiteral c => some c.span
  | .element e => some e.span
  | .forInit i => some i.span
  | .forTarget t => some t.span
  | .clause c => c.span?
  | .handler c => some c.span

/-- A body that is a block is that block; an expression body is a node of its own. -/
def ofBody : Body → Node
  | .block b => .block b
  | .expression value => .body (.expression value)

/-- A leaf of a pattern is the expression it writes to. -/
def ofPattern : Pattern → Node
  | .leaf target => .expr target
  | p => .pattern p

/-- A position without a default is its target. -/
def ofItem : PatternItem → Node
  | .mk target none => ofPattern target
  | i => .item i

end Node

/-! ## Children -/

def Expr.children : Expr → List Node
  | .template _ tag parts => tag.toList.map .expr ++ parts.map .expr
  | .array _ items => (items.filterMap id).map .expr
  | .object _ properties => properties.map .property
  | .function (.mk _ _ _ params body) => [.params params, .ofBody body]
  | .classLiteral (.mk _ _ superclass elements) =>
      superclass.toList.map .expr ++ elements.map .element
  | .call _ callee arguments => .expr callee :: arguments.map .expr
  | .construct _ callee arguments => .expr callee :: arguments.map .expr
  | .dot _ receiver _ => [.expr receiver]
  | .bracket _ receiver key => [.expr receiver, .expr key]
  | .privateDot _ receiver _ => [.expr receiver]
  | .assign _ _ target value => [.ofPattern target, .expr value]
  | .unary _ _ operand => [.expr operand]
  | .update _ operand => [.expr operand]
  | .binary _ _ left right => [.expr left, .expr right]
  | .conditional _ test yes no => [.expr test, .expr yes, .expr no]
  | .sequence _ items => items.map .expr
  | .optional inner => [.expr inner]
  | .optionalChain inner => [.expr inner]
  | .spread inner => [.expr inner]
  | .yield _ argument => argument.toList.map .expr
  | .await _ argument => [.expr argument]
  | .identifier _ | .string .. | .number .. | .boolean .. | .null _ | .regExp _
  | .privateName .. | .thisValue _ | .superValue _ | .newTarget _ => []

def Pattern.children : Pattern → List Node
  | .leaf target => [.expr target]
  | .array _ items rest => (items.filterMap id).map .ofItem ++ rest.toList.map .ofPattern
  | .object _ properties rest => properties.map .patternProperty ++ rest.toList.map .ofPattern

def Stmt.children : Stmt → List Node
  | .block (.mk _ list) => list.map .stmt
  | .expression value => [.expr value]
  | .declareVar _ bindings => bindings.map .binding
  | .declareLexical _ bindings => bindings.map .binding
  | .declareFunction fn => [.function fn]
  | .declareClass cls => [.classLiteral cls]
  | .returnWith _ argument => argument.toList.map .expr
  | .throwWith _ argument => [.expr argument]
  | .ifElse _ test yes no => .expr test :: .stmt yes :: no.toList.map .stmt
  | .forLoop _ init test update body =>
      init.toList.map .forInit ++ test.toList.map .expr ++ update.toList.map .expr ++ [.stmt body]
  | .forEach _ _ into source body => [.forTarget into, .expr source, .stmt body]
  | .whileLoop _ test body => [.expr test, .stmt body]
  | .doWhile _ body test => [.stmt body, .expr test]
  | .switchOn _ subject cases => .expr subject :: cases.map .clause
  | .tryCatch _ body handler finalizer =>
      .block body :: handler.toList.map .handler ++ finalizer.toList.map .block
  | .labelled _ _ body => [.stmt body]
  | .withObject _ object body => [.expr object, .stmt body]
  | .jump _ | .empty _ | .debugger _ => []

namespace Node

/-- The direct children of a node in source order. -/
def children : Node → List Node
  | .program list => list.map .stmt
  | .stmt s => s.children
  | .block (.mk _ list) => list.map .stmt
  | .expr e => e.children
  | .pattern p => p.children
  | .item (.mk target value) => .ofPattern target :: value.toList.map .expr
  | .patternProperty (.short name value) => .expr (.identifier name) :: value.toList.map .expr
  | .patternProperty (.keyed key _ value) => [.expr key, .ofItem value]
  | .property (.short name value) => .expr (.identifier name) :: value.toList.map .expr
  | .property (.keyed key _ _ value) => [.expr key, .expr value]
  | .property (.spread inner) => [.expr inner]
  | .function (.mk _ _ _ ps b) => [.params ps, .ofBody b]
  | .params (.mk _ items rest) => items.map .binding ++ rest.toList.map .ofPattern
  | .body (.block b) => [.block b]
  | .body (.expression value) => [.expr value]
  | .binding (.mk target init) => .ofPattern target :: init.toList.map .expr
  | .classLiteral (.mk _ _ superclass elements) =>
      superclass.toList.map .expr ++ elements.map .element
  | .element (.field _ key init) => .expr key :: init.toList.map .expr
  | .element (.method _ key f) => [.expr key, .function f]
  | .element (.staticBlock _ b) => [.block b]
  | .forInit (.expression value) => [.expr value]
  | .forInit (.declareVar bindings) => bindings.map .binding
  | .forInit (.declareLexical _ bindings) => bindings.map .binding
  | .forTarget (.declareVar b) => [.binding b]
  | .forTarget (.declareLexical _ target) => [.ofPattern target]
  | .forTarget (.assign target) => [.ofPattern target]
  | .clause (.mk _ test list) => test.toList.map .expr ++ list.map .stmt
  | .handler (.mk _ parameter b) => parameter.toList.map .ofPattern ++ [.block b]

end Node

end FrozenGlobals.Script
