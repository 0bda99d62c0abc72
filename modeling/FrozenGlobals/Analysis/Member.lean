import FrozenGlobals.Analysis.Evaluator

/-!
# Members

The keys of member expressions and properties, and reads through accessors. A literal key names a
property; every other key is evaluated and stands for any property. A getter found in a slot is
called and a setter reads as undefined.
-/

namespace FrozenGlobals

open Script (Expr)
open Number (Binary64)

/-- The key a number literal names. A big integer has an empty text. -/
def Key.ofNumber (value : Option Binary64) : Key := .name ((value.map Binary64.text).getD "")

/-- The key an expression names if it is a literal. -/
def Key.ofLiteral? : Expr → Option Key
  | .string _ text => some (.name text)
  | .number _ value => some (.ofNumber value)
  | _ => none

namespace Evaluator

open Run

/-- The key of a computed member. -/
def memberKey (E : Evaluator) (key : Expr) (stack : Stack) : Run Key := do
  match Key.ofLiteral? key with
  | some k => return k
  | none =>
      E.visit key stack
      return .any

/-- The key of a property of a literal or a pattern. -/
def propertyKey (E : Evaluator) (key : Expr) (computed : Bool) (stack : Stack) : Run Key :=
  if computed then E.memberKey key stack
  else
    match key with
    | .identifier id => return .name id.name
    | key => return (Key.ofLiteral? key).getD .any

/-- The object and key of a member expression. Other expressions are objects with any key. -/
def memberTarget (E : Evaluator) (target : Expr) (stack : Stack) : Run (Operand × Key) := do
  match target with
  | .dot _ object name => return (← E.resolve object stack, .name name)
  | .bracket _ object key =>
      let object ← E.resolve object stack
      return (object, ← E.memberKey key stack)
  | target => return (← E.resolve target stack, .any)

/-- How a value is accessed if it is the function of an accessor. -/
def accessor? (v : Value) : Run (Option Accessor) := do
  match v with
  | .function id => return ((← get).heap.closure? id).bind (·.accessor)
  | _ => return none

/-- What reading one possibility of a slot gives. -/
def readSlot (E : Evaluator) (object : Operand) (site : Site) (v : Value) : Run Reference := do
  match ← accessor? v with
  | none => return .single v
  | some .getter => E.invoke v ⟨site, some object, []⟩
  | some .setter => return .undefined

/-- Reads a key of an object. -/
def readMember (E : Evaluator) (object : Operand) (key : Key) (site : Site) : Run Operand := do
  let slot ← getKey (← deref object) key
  let result ← slot.values.foldlM
    (fun (out : Reference) v => return out.union (← E.readSlot object site v)) .empty
  return .known result

/-- Calls every setter of a slot. -/
def callSetters (E : Evaluator) (slot : Reference) (object value : Operand) (site : Site) :
    Run Unit :=
  slot.values.forM fun v => do
    match ← accessor? v with
    | some .setter => let _ ← E.invoke v ⟨site, some object, [value]⟩
    | _ => return ()

end Evaluator

end FrozenGlobals
