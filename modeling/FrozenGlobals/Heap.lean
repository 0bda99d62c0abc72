import FrozenGlobals.Path
import FrozenGlobals.Script.Tree

/-!
# The heap

Cells of abstract objects, arrays and functions, and the frames that bind names. Reading a key
collects what every container of a reference may hold there; writing keeps what was there before, so
cells only grow.

Array positions are not told apart: all elements live in one store, and so does what is written
under names other than `length`.

A frame binds names to operands. Nearly all are plain references; the parameter of a `catch` clause
is the set of everything thrown anywhere, which goes on growing after it was bound.
-/

namespace FrozenGlobals

open Script (Function)

/-! ## Cells -/

/-- An object: named slots in the order of their first write, and a slot for computed keys once one
was written. -/
structure ObjectCell where
  slots : List (String × Reference)
  wildcard : Option Reference
deriving DecidableEq, Inhabited

namespace ObjectCell

def empty : ObjectCell := ⟨[], none⟩

def slot? (o : ObjectCell) (name : String) : Option Reference :=
  (o.slots.find? fun (n, _) => n == name).map (·.2)

def keys (o : ObjectCell) : List String := o.slots.map (·.1)

/-- A named key reads its slot and the wildcard slot; the wildcard reads every slot. -/
def get (o : ObjectCell) (k : Key) : Reference :=
  let named : Reference := match k with
    | .any => .unionAll (o.slots.map (·.2))
    | .name name => (o.slot? name).getD .empty
  named.union (o.wildcard.getD .empty)

/-- Adds possibilities to a slot of a list, which is created at the end if it is missing. -/
def setSlot (name : String) (r : Reference) : List (String × Reference) → List (String × Reference)
  | [] => [(name, Reference.empty.union r)]
  | (n, old) :: rest =>
      if n == name then (n, old.union r) :: rest else (n, old) :: setSlot name r rest

/-- Adds possibilities to the slot of a key. -/
def set (o : ObjectCell) (k : Key) (r : Reference) : ObjectCell :=
  match k with
  | .any => { o with wildcard := some ((o.wildcard.getD .empty).union r) }
  | .name name => { o with slots := setSlot name r o.slots }

end ObjectCell

/-- An array: the store of its elements, and whether a name was ever written. -/
structure ArrayCell where
  elements : Reference
  named : Bool
deriving DecidableEq, Inhabited

namespace ArrayCell

/-- Indices read the elements, `length` some primitive, a method name the method, and any other
name what may have been written under it. -/
def get (a : ArrayCell) (k : Key) : Reference :=
  if k.isIndex then a.elements
  else
    match k with
    | .any => a.elements
    | .name name =>
        if name == "length" then .anyPrimitive
        else
          match Builtin.find? .arrayInstance name with
          | some b =>
              if a.named then (Reference.single (.builtin b)).union a.elements
              else .single (.builtin b)
          | none => a.elements

/-- Adds possibilities to the elements. Writing `length` changes nothing. -/
def set (a : ArrayCell) (k : Key) (r : Reference) : ArrayCell :=
  if k == .name "length" then a
  else { elements := a.elements.union r, named := a.named || !k.isIndex }

end ArrayCell

/-- How an object literal defines an accessor. -/
inductive Accessor where
  | getter | setter
deriving DecidableEq, Repr, Inhabited

/-- The frames visible at a place, innermost first. -/
abbrev Stack := List Nat

/-- The literal of a function and the number of the program it stands in. -/
structure Code where
  unit : Nat
  literal : Function
deriving Inhabited

/-- A function: its name, its code with the frames visible where it was created, and how it is
accessed. A function without code is known by name only. -/
structure Closure where
  name : String
  code : Option Code
  scope : Stack
  accessor : Option Accessor
deriving Inhabited

/-- What a name is bound to. -/
inductive Operand where
  | known (r : Reference)
  /-- Everything thrown so far, at any later time. -/
  | thrown
deriving DecidableEq, Inhabited

/-- The names bound in one scope, in the order of their first definition. -/
structure Frame where
  bindings : List (String × Operand)
deriving DecidableEq, Inhabited

namespace Frame

def empty : Frame := ⟨[]⟩

def find? (f : Frame) (name : String) : Option Operand :=
  (f.bindings.find? fun (n, _) => n == name).map (·.2)

/-- Replaces the binding of a name in a list, or adds one at the end. -/
def setBinding (name : String) (o : Operand) : List (String × Operand) → List (String × Operand)
  | [] => [(name, o)]
  | (n, old) :: rest => if n == name then (n, o) :: rest else (n, old) :: setBinding name o rest

/-- Binds a name, replacing what it was bound to. -/
def define (f : Frame) (name : String) (o : Operand) : Frame := ⟨setBinding name o f.bindings⟩

/-- The bound names in ascending order. -/
def names (f : Frame) : List String := (f.bindings.map (·.1)).mergeSort fun a b => a ≤ b

end Frame

/-! ## The heap -/

/-- All cells and frames. -/
structure Heap where
  objects : Array ObjectCell
  arrays : Array ArrayCell
  closures : Array Closure
  frames : Array Frame
deriving Inhabited

namespace Heap

def empty : Heap := ⟨#[], #[], #[], #[]⟩

def object (h : Heap) (id : Nat) : ObjectCell := h.objects[id]?.getD .empty
def array (h : Heap) (id : Nat) : ArrayCell := h.arrays[id]?.getD ⟨.empty, false⟩
def closure? (h : Heap) (id : Nat) : Option Closure := h.closures[id]?
def frame (h : Heap) (id : Nat) : Frame := h.frames[id]?.getD .empty

/-- Adds an object. -/
def addObject (h : Heap) (o : ObjectCell) : Value × Heap :=
  (.object h.objects.size, { h with objects := h.objects.push o })

/-- Adds an array with the given elements. -/
def addArray (h : Heap) (elements : Reference) : Value × Heap :=
  (.array h.arrays.size, { h with arrays := h.arrays.push ⟨elements, false⟩ })

/-- Adds a function. -/
def addClosure (h : Heap) (c : Closure) : Value × Heap :=
  (.function h.closures.size, { h with closures := h.closures.push c })

/-- Adds a frame. -/
def addFrame (h : Heap) (f : Frame) : Nat × Heap :=
  (h.frames.size, { h with frames := h.frames.push f })

/-- What a value holds at a key. Primitives, functions and built-ins hold nothing. -/
def getKeyOf (h : Heap) (k : Key) : Value → Reference
  | .object id => (h.object id).get k
  | .array id => (h.array id).get k
  | .intrinsic i =>
      let owner : Option BuiltinOwner := match i with
        | .object => some .objectStatic
        | .array => some .arrayStatic
        | _ => none
      match k, owner with
      | .name name, some owner =>
          match Builtin.find? owner name with
          | some b => .single (.builtin b)
          | none => .empty
      | _, _ => .empty
  | _ => .empty

/-- What the possibilities of a reference hold at a key. -/
def getKey (h : Heap) (r : Reference) (k : Key) : Reference :=
  .unionAll (r.values.map (h.getKeyOf k))

/-- Writes at a key of one value. Only containers can be written to. -/
def setKeyOf (h : Heap) (k : Key) (v : Reference) : Value → Heap
  | .object id => { h with objects := h.objects.modify id (·.set k v) }
  | .array id => { h with arrays := h.arrays.modify id (·.set k v) }
  | _ => h

/-- Writes at a key of every possibility, keeping what was there before. -/
def setKey (h : Heap) (r : Reference) (k : Key) (v : Reference) : Heap :=
  r.values.foldl (fun h w => h.setKeyOf k v w) h

/-- Binds a name in a frame. -/
def define (h : Heap) (frame : Nat) (name : String) (o : Operand) : Heap :=
  { h with frames := h.frames.modify frame (·.define name o) }

/-- Marks a function as an accessor. -/
def markAccessor (h : Heap) (id : Nat) (a : Accessor) : Heap :=
  { h with closures := h.closures.modify id ({ · with accessor := some a }) }

/-! ## Scopes -/

/-- The innermost frame that binds a name. -/
def owner? (h : Heap) (stack : Stack) (name : String) : Option Nat :=
  stack.find? fun id => ((h.frame id).find? name).isSome

/-- What a name is bound to. -/
def lookup? (h : Heap) (stack : Stack) (name : String) : Option Operand :=
  stack.findSome? fun id => (h.frame id).find? name

end Heap

namespace Stack

/-- The outermost frame, which holds the globals. -/
def globals? (s : Stack) : Option Nat := s.getLast?

/-- The frame right inside the globals, or the globals if there is none. -/
def programFrame? : Stack → Option Nat
  | [] => none
  | [frame] => some frame
  | [frame, _] => some frame
  | _ :: rest => programFrame? rest

/-- The frames around the innermost one. The globals are never left. -/
def pop? : Stack → Option Stack
  | _ :: frame :: rest => some (frame :: rest)
  | _ => none

end Stack

end FrozenGlobals
