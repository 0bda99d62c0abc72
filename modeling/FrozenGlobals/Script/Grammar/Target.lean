import FrozenGlobals.Script.Grammar.Parser

/-!
# Assignment and binding targets

A pattern is first read as an array or object literal. Once an `=`, an arrow or a declaration shows
that it binds, the literal is read again as a `Pattern`.

A binding has names at its leaves; the elements of its array patterns may be any assignment target.
-/

namespace FrozenGlobals.Script

/-- What a literal is read again as. -/
inductive TargetMode where
  | assignment
  /-- A binding; the flag tells whether the name `await` is reserved. -/
  | binding (noAwait : Bool)
deriving DecidableEq, Repr

/-- Whether an expression can be written to as it stands. -/
def Expr.isAssignable : Expr → Bool
  | .identifier _ | .dot .. | .privateDot .. | .bracket .. => true
  | _ => false

/-- Whether a leaf may stand in a pattern. -/
def TargetMode.allows : TargetMode → Expr → Bool
  | .assignment, e => e.isAssignable
  | .binding noAwait, .identifier id => !(noAwait && id.name == "await")
  | .binding _, _ => false

/-- Whether the rest of an object pattern binds a name. -/
def bindsName : Option Pattern → Bool
  | none | some (.leaf (.identifier _)) => true
  | some _ => false

mutual

/-- Whether an assignment target can bind as it stands: it has names at its leaves, and the elements
of its array patterns have no defaults. -/
def Pattern.binds (noAwait : Bool) : Pattern → Bool
  | .leaf target => (TargetMode.binding noAwait).allows target
  | .array _ items rest => itemsBind noAwait items && restBinds noAwait rest
  | .object _ properties rest => propertiesBind noAwait properties && bindsName rest

def restBinds (noAwait : Bool) : Option Pattern → Bool
  | none => true
  | some target => target.binds noAwait

def itemsBind (noAwait : Bool) : List (Option PatternItem) → Bool
  | [] => true
  | none :: rest => itemsBind noAwait rest
  | some (.mk target none) :: rest => target.binds noAwait && itemsBind noAwait rest
  | some (.mk _ (some _)) :: _ => false

def propertiesBind (noAwait : Bool) : List PatternProperty → Bool
  | [] => true
  | .short .. :: rest => propertiesBind noAwait rest
  | .keyed _ _ (.mk target _) :: rest => target.binds noAwait && propertiesBind noAwait rest

end

/-- Whether the target of an inner assignment may stand in a pattern. -/
def TargetMode.accepts : TargetMode → Pattern → Bool
  | .assignment, .leaf target => target.isAssignable
  | .assignment, _ => true
  | .binding noAwait, target => target.binds noAwait

/-- Passes if no comma stands between two byte offsets of a source. The recorded end of a name can
lie behind what follows the name, and then there is nothing to look at. -/
def checkNoComma (source : ByteArray) (start stop : Int) : Except ParseFault Unit :=
  if stop < start then .error .overrun
  else if (source.extract start.toNat stop.toNat).toList.contains ','.toUInt8 then
    .error .badTarget
  else .ok ()

mutual

/-- An expression of a source read again as a target. No comma may follow the last element of an
array pattern if that is a rest. -/
def Expr.toPattern (source : ByteArray) (mode : TargetMode) : Expr → Except ParseFault Pattern
  | .array span items => do
      let (items, rest) ← toItems source mode (span.stop - 1) items
      return .array span items rest
  | .object span properties => do
      let (items, rest) ← toProperties source mode properties
      return .object span items rest
  | e => if mode.allows e then .ok (.leaf e) else .error .badTarget

/-- The elements of an array literal as those of a pattern. -/
def toItems (source : ByteArray) (mode : TargetMode) (stop : Int) :
    List (Option Expr) → Except ParseFault (List (Option PatternItem) × Option Pattern)
  | [] => .ok ([], none)
  | none :: rest => do
      let (items, last) ← toItems source mode stop rest
      return (none :: items, last)
  | [some (.spread inner)] => do
      checkNoComma source inner.span.stop stop
      return ([], some (← inner.toPattern source mode))
  | some (.assign _ .plain target value) :: rest => do
      let (items, last) ← toItems source mode stop rest
      return (some (.mk target (some value)) :: items, last)
  | some e :: rest => do
      let target ← e.toPattern source .assignment
      let (items, last) ← toItems source mode stop rest
      return (some (.mk target none) :: items, last)

/-- The properties of an object literal as those of a pattern. -/
def toProperties (source : ByteArray) (mode : TargetMode) :
    List Property → Except ParseFault (List PatternProperty × Option Pattern)
  | [] => .ok ([], none)
  | [.spread inner] =>
      match mode, inner with
      | .assignment, e => .ok ([], some (.leaf e))
      | .binding _, .identifier id => .ok ([], some (.leaf (.identifier id)))
      | .binding _, _ => .error .badTarget
  | .short name value :: rest => do
      let (items, last) ← toProperties source mode rest
      return (.short name value :: items, last)
  | .keyed key computed .value (.assign _ .plain target value) :: rest => do
      if mode.accepts target then
        let (items, last) ← toProperties source mode rest
        return (.keyed key computed (.mk target (some value)) :: items, last)
      else .error .badTarget
  | .keyed key computed .value e :: rest => do
      let target ← e.toPattern source mode
      let (items, last) ← toProperties source mode rest
      return (.keyed key computed (.mk target none) :: items, last)
  | _ :: _ => .error .badTarget

end

namespace Parser

/-- An expression read again as a target. -/
def toPattern (mode : TargetMode) (e : Expr) : Parser Pattern := do
  match e.toPattern (← read).source mode with
  | .ok target => return target
  | .error fault => throw ⟨e.span.start.toNat, fault⟩

/-- An expression read again as an assignment target. -/
def toTarget (e : Expr) : Parser Pattern := toPattern .assignment e

/-- An expression read again as what a declaration or parameter binds. -/
def toBound (e : Expr) : Parser Pattern := do
  toPattern (.binding (← read).allowAwait) e

/-- An expression read again as a parameter. -/
def toParameter (e : Expr) : Parser Binding := do
  let context ← read
  match e with
  | .assign _ .plain target value =>
      if target.binds context.allowAwait then return .mk target (some value)
      else throw ⟨target.span.start.toNat, .badTarget⟩
  | e => return .mk (← toBound e) none

end Parser

end FrozenGlobals.Script
