import FrozenGlobals.Analysis.Call
import FrozenGlobals.Analysis.Write

/-!
# Expressions

What an expression may evaluate to. Each expression is evaluated once, in the order of its parts,
and the mutations met on the way are reported as they are met. Operators are not computed: a
comparison may be true or false, and arithmetic gives some primitive.
-/

namespace FrozenGlobals

open Script (Expr Property PropertyKind BinaryOp)

/-- The accessor a property defines. -/
def Script.PropertyKind.accessor? : PropertyKind → Option Accessor
  | .getter => some .getter
  | .setter => some .setter
  | _ => none

/-- Copies what the containers of a reference hold into an object. The elements of arrays may stand
under any key. -/
def Heap.spreadInto (h : Heap) (o : ObjectCell) (source : Reference) : ObjectCell :=
  source.values.foldl (fun o v =>
    match v with
    | .object id =>
        let cell := h.object id
        let o := cell.slots.foldl (fun o (name, r) => o.set (.name name) r) o
        match cell.wildcard with
        | some r => o.set .any r
        | none => o
    | .array id => o.set .any (h.array id).elements
    | _ => o) o

namespace Evaluator

open Run

/-- Notes that an expression yields nothing because it is not followed. -/
def untracked (e : Expr) : Run Operand := do
  warn (e.kind.name ++ " expression at " ++ e.span.render ++ " is not tracked")
  return .known .empty

/-- What an item adds to an array literal. -/
def arrayItem (E : Evaluator) (stack : Stack) (item : Option Expr) : Run Reference := do
  match item with
  | none => return .empty
  | some (.spread inner) =>
      let source ← E.value inner stack
      elements source.arrays
  | some e => E.value e stack

/-- Evaluates an array literal. -/
def arrayLiteral (E : Evaluator) (items : List (Option Expr)) (stack : Stack) : Run Operand := do
  let items ← items.mapM (E.arrayItem stack)
  return .known (← arrayOf (.unionAll items))

/-- Marks the functions of a reference as accessors. -/
def markAccessors (a : Accessor) (r : Reference) : Run Unit :=
  r.values.forM fun v =>
    match v with
    | .function id => modifyHeap fun h => h.markAccessor id a
    | _ => return ()

/-- Adds a property to an object literal. -/
def addProperty (E : Evaluator) (stack : Stack) (o : ObjectCell) (property : Property) :
    Run ObjectCell := do
  match property with
  | .short id _ => return o.set (.name id.name) (← deref (← lookup id.name stack))
  | .keyed key computed kind value =>
      let key ← E.propertyKey key computed stack
      let value ← E.value value stack
      match kind.accessor? with
      | some a => markAccessors a value
      | none => pure ()
      return o.set key value
  | .spread inner =>
      let source ← E.value inner stack
      return (← get).heap.spreadInto o source

/-- Evaluates an object literal. -/
def objectLiteral (E : Evaluator) (properties : List Property) (stack : Stack) :
    Run Operand := do
  let cell ← properties.foldlM (E.addProperty stack) ObjectCell.empty
  return .known (.single (← newObject cell))

/-- What an infix operator may yield. -/
def binaryResult (op : BinaryOp) (left right : Reference) : Reference :=
  if op.isLogical then left.union right
  else if op.isTest then .boolean
  else .anyPrimitive

/-- What an expression may evaluate to. -/
def resolveStep (E : Evaluator) (e : Expr) (stack : Stack) : Run Operand := do
  match e with
  | .identifier id => lookup id.name stack
  | .string _ text => return .known (.ofPrimitive (.string text))
  | .number _ (some value) => return .known (.ofPrimitive (.ofNumber value))
  | .number _ none => return .known .anyPrimitive
  | .boolean _ value => return .known (.ofPrimitive (.bool value))
  | .null _ => return .known (.ofPrimitive .null)
  | .regExp _ => return .known .anyPrimitive
  | .template span tag parts =>
      parts.forM fun part => E.visit part stack
      match tag with
      | none => return .known .anyPrimitive
      | some tag =>
          E.visit tag stack
          warn ("tagged template at " ++ span.render
            ++ " is not followed; its tag is treated as unknown")
          return .known .empty
  | .array _ items => E.arrayLiteral items stack
  | .object _ properties => E.objectLiteral properties stack
  | .function fn => return .known (.single (← newFunction fn stack))
  | .classLiteral cls =>
      E.visit? cls.superclass stack
      untracked e
  | .call span callee args => E.call span callee args stack
  | .construct span callee args => E.construct span callee args stack
  | .dot .. | .bracket .. =>
      let (object, key) ← E.memberTarget e stack
      E.readMember object key (.ofExpr e)
  | .privateDot _ object _ =>
      E.visit object stack
      return .known .empty
  | .assign span op target value => E.assign span op target value stack
  | .unary span .delete operand => E.deleteProperty span operand stack
  | .unary _ _ operand =>
      E.visit operand stack
      return .known .anyPrimitive
  | .update span operand => E.update span operand stack
  | .binary _ op left right =>
      let left ← E.resolve left stack
      let right ← E.resolve right stack
      return .known (binaryResult op (← deref left) (← deref right))
  | .conditional _ test yes no =>
      E.visit test stack
      let yes ← E.resolve yes stack
      let no ← E.resolve no stack
      return .known ((← deref yes).union (← deref no))
  | .sequence _ items =>
      items.foldlM (fun _ item => E.resolve item stack) (.known .undefined)
  | .optional inner => E.resolve inner stack
  | .optionalChain inner => E.resolve inner stack
  | .spread inner => E.resolve inner stack
  | .yield _ argument =>
      E.visit? argument stack
      untracked e
  | .await _ argument =>
      E.visit argument stack
      untracked e
  | .privateName .. | .thisValue _ | .superValue _ | .newTarget _ => untracked e

end Evaluator

end FrozenGlobals
