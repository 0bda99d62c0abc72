import FrozenGlobals.Script.Span
import FrozenGlobals.Number.Binary64

/-!
# Syntax trees of scripts

The trees the parser builds and the analysis walks: expressions, destructuring patterns,
functions, classes and statements. Every node that can be reported on knows its source range.

Patterns are a type of their own. A declaration and an assignment both bind a `Pattern`, whose
leaves are the expressions written to.
-/

namespace FrozenGlobals.Script

open Number (Binary64)

/-- A name together with where it stands. -/
structure Identifier where
  name : String
  span : Span
deriving DecidableEq, Repr, Inhabited

/-- Infix operators. -/
inductive BinaryOp where
  | and | or | nullish
  | equal | notEqual | strictEqual | strictNotEqual
  | less | lessEqual | greater | greaterEqual
  | instanceOf | memberOf
  /-- Tests an object for a private name. -/
  | privateIn
  | add | subtract | multiply | divide | remainder | power
  | shiftLeft | shiftRight | shiftRightUnsigned
  | bitAnd | bitOr | bitXor
deriving DecidableEq, Repr, Inhabited

/-- The operators that yield one of their operands. -/
def BinaryOp.isLogical : BinaryOp → Bool
  | .and | .or | .nullish => true
  | _ => false

/-- The operators that yield a boolean. -/
def BinaryOp.isTest : BinaryOp → Bool
  | .equal | .notEqual | .strictEqual | .strictNotEqual
  | .less | .lessEqual | .greater | .greaterEqual
  | .instanceOf | .memberOf => true
  | _ => false

/-- Operators in front of their operand, the updates `++` and `--` apart. -/
inductive UnaryOp where
  | plus | minus | not | bitNot | void | typeOf | delete
deriving DecidableEq, Repr, Inhabited

/-- The operator of an assignment expression: `=`, or `op=` for an infix operator `op`. -/
inductive AssignOp where
  | plain
  | combined (op : BinaryOp)
deriving DecidableEq, Repr, Inhabited

/-- How a property of an object literal or a member of a class is written. -/
inductive PropertyKind where
  | value | method | getter | setter
deriving DecidableEq, Repr, Inhabited

/-- The two loops over a collection. -/
inductive LoopKind where
  | forIn | forOf
deriving DecidableEq, Repr, Inhabited

mutual

/-- Expressions. -/
inductive Expr where
  | identifier (id : Identifier)
  | string (span : Span) (value : String)
  /-- A number literal; big integers have no value. -/
  | number (span : Span) (value : Option Binary64)
  | boolean (span : Span) (value : Bool)
  | null (span : Span)
  | regExp (span : Span)
  /-- A template, with its tag when it has one and the expressions embedded in it. -/
  | template (span : Span) (tag : Option Expr) (parts : List Expr)
  /-- An array literal; a hole has no expression. -/
  | array (span : Span) (items : List (Option Expr))
  | object (span : Span) (properties : List Property)
  | function (fn : Function)
  | classLiteral (cls : Class)
  | call (span : Span) (callee : Expr) (arguments : List Expr)
  | construct (span : Span) (callee : Expr) (arguments : List Expr)
  | dot (span : Span) (object : Expr) (name : String)
  | bracket (span : Span) (object : Expr) (key : Expr)
  | privateDot (span : Span) (object : Expr) (name : String)
  /-- A private name standing as a property key. -/
  | privateName (span : Span) (name : String)
  | assign (span : Span) (op : AssignOp) (target : Pattern) (value : Expr)
  | unary (span : Span) (op : UnaryOp) (operand : Expr)
  /-- `++` or `--`, before or after its operand. -/
  | update (span : Span) (operand : Expr)
  | binary (span : Span) (op : BinaryOp) (left right : Expr)
  | conditional (span : Span) (test yes no : Expr)
  | sequence (span : Span) (items : List Expr)
  /-- The receiver in front of `?.`. -/
  | optional (inner : Expr)
  /-- A whole chain that contains `?.`. -/
  | optionalChain (inner : Expr)
  | spread (inner : Expr)
  | thisValue (span : Span)
  | superValue (span : Span)
  | newTarget (span : Span)
  | yield (span : Span) (argument : Option Expr)
  | await (span : Span) (argument : Expr)

/-- What a declaration or an assignment binds. -/
inductive Pattern where
  /-- An expression written to as it stands. -/
  | leaf (target : Expr)
  | array (span : Span) (items : List (Option PatternItem)) (rest : Option Pattern)
  | object (span : Span) (properties : List PatternProperty) (rest : Option Pattern)

/-- A position of a pattern, with the default value for a missing element. -/
inductive PatternItem where
  | mk (target : Pattern) (default : Option Expr)

/-- A property of an object pattern. -/
inductive PatternProperty where
  | short (name : Identifier) (default : Option Expr)
  | keyed (key : Expr) (computed : Bool) (value : PatternItem)

/-- A property of an object literal. -/
inductive Property where
  /-- `{name}`; a default may stand here only for the sake of patterns. -/
  | short (name : Identifier) (default : Option Expr)
  | keyed (key : Expr) (computed : Bool) (kind : PropertyKind) (value : Expr)
  | spread (inner : Expr)

/-- A function or arrow literal. -/
inductive Function where
  | mk (span : Span) (isArrow : Bool) (name : Option Identifier) (params : Params) (body : Body)

/-- A parameter list. -/
inductive Params where
  | mk (span : Span) (items : List Binding) (rest : Option Pattern)

/-- The body of a function: a block, or the expression of an arrow. -/
inductive Body where
  | block (block : Block)
  | expression (value : Expr)

/-- A declarator or parameter: what is bound and its initializer. -/
inductive Binding where
  | mk (target : Pattern) (init : Option Expr)

/-- A class literal. -/
inductive Class where
  | mk (span : Span) (name : Option Identifier) (superclass : Option Expr)
      (elements : List ClassElement)

/-- A member of a class body. -/
inductive ClassElement where
  | field (start : Int) (key : Expr) (init : Option Expr)
  | method (start : Int) (key : Expr) (body : Function)
  | staticBlock (start : Int) (block : Block)

/-- Statements. -/
inductive Stmt where
  | block (block : Block)
  | expression (value : Expr)
  | declareVar (span : Span) (bindings : List Binding)
  /-- A `let` or `const` declaration. -/
  | declareLexical (span : Span) (bindings : List Binding)
  | declareFunction (fn : Function)
  | declareClass (cls : Class)
  | returnWith (span : Span) (argument : Option Expr)
  | throwWith (span : Span) (argument : Expr)
  | ifElse (span : Span) (test : Expr) (yes : Stmt) (no : Option Stmt)
  | forLoop (span : Span) (init : Option ForInit) (test update : Option Expr) (body : Stmt)
  | forEach (span : Span) (kind : LoopKind) (into : ForTarget) (source : Expr) (body : Stmt)
  | whileLoop (span : Span) (test : Expr) (body : Stmt)
  | doWhile (span : Span) (body : Stmt) (test : Expr)
  | switchOn (span : Span) (subject : Expr) (cases : List Case)
  | tryCatch (span : Span) (body : Block) (handler : Option Catch) (finalizer : Option Block)
  | labelled (span : Span) (label : Identifier) (body : Stmt)
  | withObject (span : Span) (object : Expr) (body : Stmt)
  /-- `break` or `continue`. -/
  | jump (span : Span)
  | empty (span : Span)
  | debugger (span : Span)

/-- Statements in braces. -/
inductive Block where
  | mk (span : Span) (body : List Stmt)

/-- What stands first in the head of a `for` loop. -/
inductive ForInit where
  | expression (value : Expr)
  | declareVar (bindings : List Binding)
  | declareLexical (span : Span) (bindings : List Binding)

/-- What a `for`-`in` or `for`-`of` loop writes to. -/
inductive ForTarget where
  | declareVar (binding : Binding)
  | declareLexical (start : Int) (target : Pattern)
  | assign (target : Pattern)

/-- A clause of a `switch`; the default clause has no test. -/
inductive Case where
  | mk (start : Int) (test : Option Expr) (body : List Stmt)

/-- A `catch` clause. -/
inductive Catch where
  | mk (start : Int) (parameter : Option Pattern) (body : Block)

end

instance : Inhabited Expr := ⟨.null default⟩
instance : Inhabited Stmt := ⟨.empty default⟩
instance : Inhabited Block := ⟨.mk default []⟩
instance : Inhabited Pattern := ⟨.leaf default⟩
instance : Inhabited Params := ⟨.mk default [] none⟩
instance : Inhabited Body := ⟨.block default⟩
instance : Inhabited Function := ⟨.mk default false none default default⟩

/-! ## Parts of composite nodes -/

namespace Block

def span : Block → Span
  | .mk span _ => span

def body : Block → List Stmt
  | .mk _ body => body

/-- The offset of the opening brace, which names the block's scope. -/
def start (b : Block) : Int := b.span.start

end Block

namespace Params

def span : Params → Span
  | .mk span _ _ => span

def items : Params → List Binding
  | .mk _ items _ => items

def rest : Params → Option Pattern
  | .mk _ _ rest => rest

end Params

namespace Function

def span : Function → Span
  | .mk span _ _ _ _ => span

def isArrow : Function → Bool
  | .mk _ isArrow _ _ _ => isArrow

def name : Function → Option Identifier
  | .mk _ _ name _ _ => name

def params : Function → Params
  | .mk _ _ _ params _ => params

def body : Function → Body
  | .mk _ _ _ _ body => body

end Function

namespace Binding

def target : Binding → Pattern
  | .mk target _ => target

def init : Binding → Option Expr
  | .mk _ init => init

end Binding

namespace Class

def span : Class → Span
  | .mk span _ _ _ => span

def name : Class → Option Identifier
  | .mk _ name _ _ => name

def superclass : Class → Option Expr
  | .mk _ _ superclass _ => superclass

def elements : Class → List ClassElement
  | .mk _ _ _ elements => elements

end Class

/-! ## Source ranges of nodes -/

/-- The range of an expression. Wrappers take the range of what they wrap. -/
def Expr.span : Expr → Span
  | .identifier id => id.span
  | .function fn => fn.span
  | .classLiteral cls => cls.span
  | .optional inner => inner.span
  | .optionalChain inner => inner.span
  | .spread inner => inner.span
  | .string span _ => span
  | .number span _ => span
  | .boolean span _ => span
  | .null span => span
  | .regExp span => span
  | .template span _ _ => span
  | .array span _ => span
  | .object span _ => span
  | .call span _ _ => span
  | .construct span _ _ => span
  | .dot span _ _ => span
  | .bracket span _ _ => span
  | .privateDot span _ _ => span
  | .privateName span _ => span
  | .assign span _ _ _ => span
  | .unary span _ _ => span
  | .update span _ => span
  | .binary span _ _ _ => span
  | .conditional span _ _ _ => span
  | .sequence span _ => span
  | .thisValue span => span
  | .superValue span => span
  | .newTarget span => span
  | .yield span _ => span
  | .await span _ => span

def Pattern.span : Pattern → Span
  | .leaf target => target.span
  | .array span _ _ => span
  | .object span _ _ => span

/-- A position with a default reaches to the end of the default. -/
def PatternItem.span : PatternItem → Span
  | .mk target none => target.span
  | .mk target (some value) => target.span.through value.span

def PatternProperty.span : PatternProperty → Span
  | .short name none => name.span
  | .short name (some value) => name.span.through value.span
  | .keyed key _ value => key.span.through value.span

/-- A keyed property starts at its key, after any `get`, `set`, `async` or `*`. -/
def Property.span : Property → Span
  | .short name none => name.span
  | .short name (some value) => name.span.through value.span
  | .keyed key _ _ value => key.span.through value.span
  | .spread inner => inner.span

def Body.span : Body → Span
  | .block b => b.span
  | .expression value => value.span

def Binding.span : Binding → Span
  | .mk target none => target.span
  | .mk target (some value) => target.span.through value.span

def ClassElement.span : ClassElement → Span
  | .field start key none => ⟨start, key.span.stop⟩
  | .field start _ (some value) => ⟨start, value.span.stop⟩
  | .method start _ body => ⟨start, body.span.stop⟩
  | .staticBlock start block => ⟨start, block.span.stop⟩

def Stmt.span : Stmt → Span
  | .block b => b.span
  | .expression value => value.span
  | .declareFunction fn => fn.span
  | .declareClass cls => cls.span
  | .declareVar span _ => span
  | .declareLexical span _ => span
  | .returnWith span _ => span
  | .throwWith span _ => span
  | .ifElse span _ _ _ => span
  | .forLoop span _ _ _ _ => span
  | .forEach span _ _ _ _ => span
  | .whileLoop span _ _ => span
  | .doWhile span _ _ => span
  | .switchOn span _ _ => span
  | .tryCatch span _ _ _ => span
  | .labelled span _ _ => span
  | .withObject span _ _ => span
  | .jump span => span
  | .empty span => span
  | .debugger span => span

/-- The range from the first to the last binding of a list. -/
def Binding.listSpan : List Binding → Span
  | [] => default
  | first :: rest => first.span.through ((first :: rest).getLast (by simp)).span

def ForInit.span : ForInit → Span
  | .expression value => value.span
  | .declareVar bindings => Binding.listSpan bindings
  | .declareLexical span _ => span

def ForTarget.span : ForTarget → Span
  | .declareVar binding => binding.span
  | .declareLexical start target => ⟨start, target.span.stop⟩
  | .assign target => target.span

/-- A clause ends with its last statement; one without statements has no range. -/
def Case.span? : Case → Option Span
  | .mk start _ body => body.getLast?.map fun last => ⟨start, last.span.stop⟩

def Catch.span : Catch → Span
  | .mk start _ body => ⟨start, body.span.stop⟩

end FrozenGlobals.Script
