import FrozenGlobals.Analysis.Evaluator

/-!
# Native methods

Models of the built-in methods of arrays and of the `Array` and `Object` constructors. A model
checks what the call could mutate, calls back into scripts where the method does, and yields what
the method may return. A mutating method reports its target once, whatever it writes.
-/

namespace FrozenGlobals

/-- The elements of the arrays in a queue and of all arrays nested in them. `unseen` holds the
arrays that may still be opened, so each is opened once. -/
def Heap.flatten (h : Heap) (unseen : List Nat) (queue : List Value) (out : Reference) :
    Reference :=
  match queue with
  | [] => out
  | .array id :: rest =>
      if _h : id ∈ unseen then
        let elements := (h.array id).elements
        h.flatten (unseen.erase id) (rest ++ elements.arrays.values) (out.union elements)
      else h.flatten unseen rest out
  | _ :: rest => h.flatten unseen rest out
termination_by (unseen.length, queue.length)
decreasing_by
  · left
    have := List.length_pos_of_mem _h
    rw [List.length_erase_of_mem _h]
    omega
  · right; simp
  · right; simp

namespace Evaluator

open Run

/-! ## Parts of calls -/

/-- The arrays the method was read from. -/
def receiverArrays (c : CallSite) : Run Reference := do
  match c.receiver with
  | some object => return (← deref object).arrays
  | none => return .empty

/-- The elements of a reference. -/
def elements (r : Reference) : Run Reference := getKey r .any

/-- The argument at an index at this moment. -/
def argument (c : CallSite) (i : Nat) : Run Reference := deref (c.arg i)

/-- The arrays a mutating method modifies, which are reported if they are part of the globals. -/
def arrayTarget (c : CallSite) : Run Reference := do
  let arrays ← receiverArrays c
  let _ ← checkGlobal arrays c.site .arrayMethod
  return arrays

/-- The first argument, which is reported if it is part of the globals. -/
def objectTarget (c : CallSite) : Run Reference := do
  let target ← argument c 0
  let _ ← checkGlobal target c.site .objectMethod
  return target

/-- A reference to a new array. -/
def arrayOf (r : Reference) : Run Reference := return .single (← newArray r)

/-- A reference to a new object that may hold values under any key. -/
def objectOf (r : Reference) : Run Reference := return .single (← newObject ⟨[], some r⟩)

/-- A new property descriptor. -/
def descriptor (value : Reference) : Run Value :=
  newObject (ObjectCell.empty.set (.name "value") value)

/-- Calls back a function argument if it was passed. -/
def callback (E : Evaluator) (c : CallSite) (i : Nat) (args : List Reference) :
    Run Reference := do
  match c.args[i]? with
  | none => return .empty
  | some fn => E.invokeAll (← deref fn) (c.callback (args.map .known))

/-- Calls back with an element, its index and the array. Yields the elements and what the calls
return. -/
def elementCallback (E : Evaluator) (c : CallSite) : Run (Reference × Reference) := do
  let arrays ← receiverArrays c
  let elements ← elements arrays
  return (elements, ← E.callback c 0 [elements, .anyPrimitive, arrays])

/-! ## Array methods -/

/-- `push` and `unshift`. -/
def insertElements (c : CallSite) : Run Reference := do
  let arrays ← arrayTarget c
  c.args.forM fun a => do setKey arrays .any (← deref a)
  return .anyPrimitive

/-- `pop` and `shift`. -/
def removeElement (c : CallSite) : Run Reference := do
  return (← elements (← arrayTarget c)).union .undefined

/-- `splice` inserts the arguments from the third on. -/
def splice (c : CallSite) : Run Reference := do
  let arrays ← arrayTarget c
  let removed ← arrayOf (← elements arrays)
  (c.args.drop 2).forM fun a => do setKey arrays .any (← deref a)
  return removed

/-- `sort`. -/
def sort (E : Evaluator) (c : CallSite) : Run Reference := do
  let arrays ← arrayTarget c
  let elements ← elements arrays
  let _ ← E.callback c 0 [elements, elements]
  return arrays

/-- `fill`. -/
def fill (c : CallSite) : Run Reference := do
  let arrays ← arrayTarget c
  setKey arrays .any (← argument c 0)
  return arrays

/-- `flatMap`. -/
def flatMap (E : Evaluator) (c : CallSite) : Run Reference := do
  let (_, results) ← E.elementCallback c
  arrayOf (results.union (← elements results.arrays))

/-- `reduce` and `reduceRight` call back once, with all that may have been accumulated. -/
def reduce (E : Evaluator) (c : CallSite) : Run Reference := do
  let arrays ← receiverArrays c
  let elements ← elements arrays
  let start ← match c.args[1]? with
    | some a => pure (elements.union (← deref a))
    | none => pure elements
  let results ← E.callback c 0 [start, elements, .anyPrimitive, arrays]
  return results.union start

/-- `concat` appends the elements of arrays, and other values as they are. -/
def concat (c : CallSite) : Run Reference := do
  let first ← elements (← receiverArrays c)
  let heap := (← get).heap
  let args ← derefAll c.args
  arrayOf (args.values.foldl (fun out v =>
    match v with
    | .array id => out.union (heap.array id).elements
    | v => out.insert v) first)

/-- `flat` reaches every level. -/
def flat (c : CallSite) : Run Reference := do
  let arrays ← receiverArrays c
  let heap := (← get).heap
  arrayOf (heap.flatten (List.range heap.arrays.size) arrays.values .empty)

/-- `toSorted`. -/
def toSorted (E : Evaluator) (c : CallSite) : Run Reference := do
  let elements ← elements (← receiverArrays c)
  let _ ← E.callback c 0 [elements, elements]
  arrayOf elements

/-- A new array of the elements and some of the arguments. -/
def copyWith (c : CallSite) (args : List Operand) : Run Reference := do
  let elements ← elements (← receiverArrays c)
  arrayOf (elements.union (← derefAll args))

/-- `Array.from`. -/
def arrayFrom (E : Evaluator) (c : CallSite) : Run Reference := do
  let elements ← elements (← argument c 0)
  if c.args.length < 2 then arrayOf elements
  else arrayOf (← E.callback c 1 [elements, .anyPrimitive])

/-! ## Object methods -/

/-- `Object.assign` adds what the sources hold under any key. -/
def objectAssign (c : CallSite) : Run Reference := do
  let target ← objectTarget c
  (c.args.drop 1).forM fun a => do setKey target .any (← elements (← deref a))
  return target

/-- `Object.defineProperty`. -/
def defineProperty (c : CallSite) : Run Reference := do
  let target ← objectTarget c
  setKey target .any (← getKey (← argument c 2) (.name "value"))
  return target

/-- `Object.defineProperties`. -/
def defineProperties (c : CallSite) : Run Reference := do
  let target ← objectTarget c
  setKey target .any (← getKey (← elements (← argument c 1)) (.name "value"))
  return target

/-- `Object.groupBy`. -/
def groupBy (E : Evaluator) (c : CallSite) : Run Reference := do
  let items ← elements (← argument c 0)
  let _ ← E.callback c 1 [items, .anyPrimitive]
  objectOf (← arrayOf items)

/-- `Object.create` inherits from the prototype, and takes the values of the descriptors. -/
def createObject (c : CallSite) : Run Reference := do
  let inherited ← elements (← argument c 0)
  let own ← match c.args[1]? with
    | some a => getKey (← elements (← deref a)) (.name "value")
    | none => pure .empty
  objectOf (inherited.union own)

/-! ## Dispatch -/

/-- What a built-in may return. -/
def model (E : Evaluator) (b : Builtin) (c : CallSite) : Run Reference := do
  match b with
  | .arrayPush | .arrayUnshift => insertElements c
  | .arrayPop | .arrayShift => removeElement c
  | .arraySplice => splice c
  | .arraySort => E.sort c
  | .arrayReverse | .arrayCopyWithin => arrayTarget c
  | .arrayFill => fill c
  | .arrayMap => arrayOf (← E.elementCallback c).2
  | .arrayFilter => arrayOf (← E.elementCallback c).1
  | .arrayForEach =>
      let _ ← E.elementCallback c
      return .empty
  | .arrayFind | .arrayFindLast => return (← E.elementCallback c).1
  | .arrayFindIndex | .arrayFindLastIndex =>
      let _ ← E.elementCallback c
      return Reference.undefined.union .anyPrimitive
  | .arrayEvery | .arraySome =>
      let _ ← E.elementCallback c
      return .boolean
  | .arrayFlatMap => E.flatMap c
  | .arrayReduce | .arrayReduceRight => E.reduce c
  | .arraySlice | .arrayToReversed | .arrayValues => arrayOf (← elements (← receiverArrays c))
  | .arrayConcat => concat c
  | .arrayFlat => flat c
  | .arrayToSorted => E.toSorted c
  | .arrayToSpliced => copyWith c (c.args.drop 2)
  | .arrayWith => copyWith c ((c.args.drop 1).take 1)
  | .arrayAt => return (← elements (← receiverArrays c)).union .undefined
  | .arrayIndexOf | .arrayLastIndexOf | .arrayJoin | .arrayToString | .arrayToLocaleString =>
      return .anyPrimitive
  | .arrayIncludes | .arrayIsArray | .objectHasOwn | .objectIs | .objectIsExtensible
  | .objectIsFrozen | .objectIsSealed => return .boolean
  | .arrayEntries =>
      arrayOf (← arrayOf (Reference.anyPrimitive.union (← elements (← receiverArrays c))))
  | .arrayKeys | .objectKeys | .objectGetOwnPropertyNames | .objectGetOwnPropertySymbols =>
      arrayOf .anyPrimitive
  | .arrayOf => arrayOf (← derefAll c.args)
  | .arrayFrom => E.arrayFrom c
  | .objectAssign => objectAssign c
  | .objectDefineProperty => defineProperty c
  | .objectDefineProperties => defineProperties c
  | .objectFreeze | .objectSeal | .objectPreventExtensions | .objectSetPrototypeOf =>
      objectTarget c
  | .objectValues => arrayOf (← elements (← argument c 0))
  | .objectEntries =>
      arrayOf (← arrayOf (Reference.anyPrimitive.union (← elements (← argument c 0))))
  | .objectFromEntries => objectOf (← elements (← elements (← argument c 0)))
  | .objectGroupBy => E.groupBy c
  | .objectGetOwnPropertyDescriptor =>
      return Reference.undefined.insert (← descriptor (← elements (← argument c 0)))
  | .objectGetOwnPropertyDescriptors =>
      objectOf (.single (← descriptor (← elements (← argument c 0))))
  | .objectCreate => createObject c
  | .objectGetPrototypeOf =>
      report c.site "Don't touch prototypes" none
      return .empty
  | .unknown _ =>
      warn ("built-in " ++ b.render ++ " at " ++ c.site.span.render ++ " is not modeled")
      return .empty

/-- Calls a built-in. -/
def callBuiltin (E : Evaluator) (b : Builtin) (c : CallSite) : Run Reference := do
  match b with
  | .unknown _ => pure ()
  | b => log .debug fun _ =>
      ("Calling built-in", [("builtin", .text b.render), ("args", .ofNat c.args.length)])
  E.model b c

/-- Calls a global constructor. -/
def callIntrinsic (i : Intrinsic) (c : CallSite) : Run Reference := do
  match i with
  | .eval =>
      report c.site "Cannot call eval" none
      return .empty
  | .function =>
      report c.site "Cannot construct a function from source" none
      return .empty
  | .array => arrayOf (← derefAll c.args)
  | .object =>
      let fresh ← newObject .empty
      let first ← match c.args.head? with
        | some a => deref a
        | none => pure .empty
      return (Reference.single fresh).union first.containers
  | .unknown _ => return .empty

end Evaluator

end FrozenGlobals
