import FrozenGlobals.Proofs.Chaining.Computations

/-!
# Native methods of programs without marks

Native methods look at values only, so they do the same without marks in the code of functions if
the functions they call back do.
-/

namespace FrozenGlobals

open Run

namespace Setup.Follows

variable {setup : Setup}

/-! ## Parts of native calls -/

/-- The elements of containers. -/
theorem elements (r : Reference) :
    setup.Follows (Evaluator.elements r) (Evaluator.elements r) := getKey r .any

/-- A new array. -/
theorem arrayOf (r : Reference) : setup.Follows (Evaluator.arrayOf r) (Evaluator.arrayOf r) :=
  (newArray r).bind fun _ => .pure _

/-- A new object with values under any key. -/
theorem objectOf (r : Reference) : setup.Follows (Evaluator.objectOf r) (Evaluator.objectOf r) :=
  (newObject _).bind fun _ => .pure _

/-- A property descriptor. -/
theorem descriptor (r : Reference) :
    setup.Follows (Evaluator.descriptor r) (Evaluator.descriptor r) := newObject _

/-- The arrays among what a method was read from. -/
theorem receiverArrays (c : CallSite) :
    setup.Follows (Evaluator.receiverArrays c) (Evaluator.receiverArrays c) := by
  unfold Evaluator.receiverArrays
  cases c.receiver with
  | none => exact .pure _
  | some object => exact (deref object).bind fun _ => .pure _

/-- An argument of a call. -/
theorem argument (c : CallSite) (i : Nat) :
    setup.Follows (Evaluator.argument c i) (Evaluator.argument c i) := deref _

/-- The arrays that a method modifies, which are checked. -/
theorem arrayTarget (c : CallSite) :
    setup.Follows (Evaluator.arrayTarget c) (Evaluator.arrayTarget c) :=
  (receiverArrays c).bind fun _ => (checkGlobal ..).seq (.pure _)

/-- The object that a function modifies, which is checked. -/
theorem objectTarget (c : CallSite) :
    setup.Follows (Evaluator.objectTarget c) (Evaluator.objectTarget c) :=
  (argument c 0).bind fun _ => (checkGlobal ..).seq (.pure _)

/-- The elements of what the method was read from. -/
theorem ownElements {f f' : Reference → Run Reference} (h : ∀ r, setup.Follows (f r) (f' r))
    (c : CallSite) :
    setup.Follows (do f (← Evaluator.elements (← Evaluator.receiverArrays c)))
      (do f' (← Evaluator.elements (← Evaluator.receiverArrays c))) :=
  (receiverArrays c).bind fun _ => (elements _).bind h

/-- The elements of the first argument. -/
theorem firstElements {f f' : Reference → Run Reference} (h : ∀ r, setup.Follows (f r) (f' r))
    (c : CallSite) :
    setup.Follows (do f (← Evaluator.elements (← Evaluator.argument c 0)))
      (do f' (← Evaluator.elements (← Evaluator.argument c 0))) :=
  (argument c 0).bind fun _ => (elements _).bind h

/-- An array of pairs of a key and a value. -/
theorem pairsOf (r : Reference) :
    setup.Follows (do Evaluator.arrayOf (← Evaluator.arrayOf (Reference.anyPrimitive.union r)))
      (do Evaluator.arrayOf (← Evaluator.arrayOf (Reference.anyPrimitive.union r))) :=
  (arrayOf _).bind arrayOf

/-- Writes what several operands stand for. -/
theorem setAll (r : Reference) (os : List Operand) :
    setup.Follows (os.forM fun a => do Run.setKey r .any (← Run.deref a))
      (os.forM fun a => do Run.setKey r .any (← Run.deref a)) :=
  forEach (fun a => (deref a).bind fun _ => setKey ..) os

/-! ## Methods that do not call back -/

/-- `push` and `unshift`. -/
theorem insertElements (c : CallSite) :
    setup.Follows (Evaluator.insertElements c) (Evaluator.insertElements c) :=
  (arrayTarget c).bind fun r => (setAll r c.args).seq (.pure _)

/-- `pop` and `shift`. -/
theorem removeElement (c : CallSite) :
    setup.Follows (Evaluator.removeElement c) (Evaluator.removeElement c) :=
  (arrayTarget c).bind fun _ => (elements _).bind fun _ => .pure _

/-- `splice`. -/
theorem splice (c : CallSite) : setup.Follows (Evaluator.splice c) (Evaluator.splice c) :=
  (arrayTarget c).bind fun r => (elements r).bind fun _ => (arrayOf _).bind fun _ =>
    (setAll r (c.args.drop 2)).seq (.pure _)

/-- `fill`. -/
theorem fill (c : CallSite) : setup.Follows (Evaluator.fill c) (Evaluator.fill c) :=
  (arrayTarget c).bind fun _ => (argument c 0).bind fun _ => (setKey ..).seq (.pure _)

/-- `concat`. -/
theorem concat (c : CallSite) : setup.Follows (Evaluator.concat c) (Evaluator.concat c) :=
  (receiverArrays c).bind fun _ => (elements _).bind fun _ => .get fun _ =>
    (derefAll c.args).bind fun _ => arrayOf _

/-- The elements of nested arrays are the same whatever functions the heap holds. -/
theorem flat (c : CallSite) : setup.Follows (Evaluator.flat c) (Evaluator.flat c) := by
  refine (receiverArrays c).bind fun arrays => .get fun s => ?_
  have h := s.heap.flatten_unchained (List.range s.heap.arrays.size) arrays.values .empty
  show setup.Follows (Evaluator.arrayOf (s.heap.flatten _ _ _))
    (Evaluator.arrayOf (s.heap.unchained.flatten (List.range s.heap.arrays.size)
      arrays.values .empty))
  rw [h]
  exact arrayOf _

/-- Methods that copy elements and add arguments. -/
theorem copyWith (c : CallSite) (args : List Operand) :
    setup.Follows (Evaluator.copyWith c args) (Evaluator.copyWith c args) :=
  ownElements (fun _ => (derefAll args).bind fun _ => arrayOf _) c

/-- `Object.assign`. -/
theorem objectAssign (c : CallSite) :
    setup.Follows (Evaluator.objectAssign c) (Evaluator.objectAssign c) :=
  (objectTarget c).bind fun _ => Follows.seq
    (forEach (fun a => (deref a).bind fun _ => (elements _).bind fun _ => setKey ..) _) (.pure _)

/-- `Object.defineProperty`. -/
theorem defineProperty (c : CallSite) :
    setup.Follows (Evaluator.defineProperty c) (Evaluator.defineProperty c) :=
  (objectTarget c).bind fun _ => (argument c 2).bind fun _ => (getKey ..).bind fun _ =>
    (setKey ..).seq (.pure _)

/-- `Object.defineProperties`. -/
theorem defineProperties (c : CallSite) :
    setup.Follows (Evaluator.defineProperties c) (Evaluator.defineProperties c) :=
  (objectTarget c).bind fun _ => (argument c 1).bind fun _ => (elements _).bind fun _ =>
    (getKey ..).bind fun _ => (setKey ..).seq (.pure _)

/-- `Object.create`. -/
theorem createObject (c : CallSite) :
    setup.Follows (Evaluator.createObject c) (Evaluator.createObject c) := by
  unfold Evaluator.createObject
  refine firstElements (fun inherited => ?_) c
  cases c.args[1]? with
  | none => exact objectOf _
  | some a =>
    exact (deref a).bind fun _ => (elements _).bind fun _ => (getKey ..).bind fun _ => objectOf _

/-- A global constructor. -/
theorem callIntrinsic (i : Intrinsic) (c : CallSite) :
    setup.Follows (Evaluator.callIntrinsic i c) (Evaluator.callIntrinsic i c) := by
  cases i with
  | eval | function => exact (report ..).seq (.pure _)
  | array => exact (derefAll c.args).bind fun _ => arrayOf _
  | object =>
    unfold Evaluator.callIntrinsic
    refine (newObject _).bind fun _ => ?_
    cases c.args.head? with
    | none => exact .pure _
    | some a => exact (deref a).bind fun _ => .pure _
  | unknown code => exact .pure _

/-! ## Methods that call back -/

section

variable {E E' : Evaluator} (hE : ∀ v c, setup.Follows (E.invoke v c) (E'.invoke v c))
include hE

/-- All possibilities of a callee are called back alike. -/
theorem invokeAll (r : Reference) (c : CallSite) :
    setup.Follows (E.invokeAll r c) (E'.invokeAll r c) := by
  unfold Evaluator.invokeAll
  exact foldEach (fun _ v => (hE v c).bind fun _ => .pure _) ..

/-- An argument that is a function is called back. -/
theorem callback (c : CallSite) (i : Nat) (args : List Reference) :
    setup.Follows (E.callback c i args) (E'.callback c i args) := by
  unfold Evaluator.callback
  cases c.args[i]? with
  | none => exact .pure _
  | some fn => exact (deref fn).bind fun _ => invokeAll hE ..

/-- What a method does after it called back with an element. -/
theorem elementCallback {f f' : Reference × Reference → Run Reference}
    (h : ∀ p, setup.Follows (f p) (f' p)) (c : CallSite) :
    setup.Follows (do f (← E.elementCallback c)) (do f' (← E'.elementCallback c)) :=
  Follows.bind ((receiverArrays c).bind fun _ => (elements _).bind fun _ =>
    (callback hE ..).bind fun _ => .pure _) h

/-- `sort`. -/
theorem sort (c : CallSite) : setup.Follows (E.sort c) (E'.sort c) :=
  (arrayTarget c).bind fun _ => (elements _).bind fun _ => (callback hE ..).seq (.pure _)

/-- `flatMap`. -/
theorem flatMap (c : CallSite) : setup.Follows (E.flatMap c) (E'.flatMap c) :=
  elementCallback hE (fun p => (elements p.2.arrays).bind fun _ => arrayOf _) c

/-- `reduce` and `reduceRight`. -/
theorem reduce (c : CallSite) : setup.Follows (E.reduce c) (E'.reduce c) := by
  unfold Evaluator.reduce
  refine (receiverArrays c).bind fun _ => (elements _).bind fun _ => ?_
  cases c.args[1]? with
  | none => exact (callback hE ..).bind fun _ => .pure _
  | some a => exact (deref a).bind fun _ => (callback hE ..).bind fun _ => .pure _

/-- `toSorted`. -/
theorem toSorted (c : CallSite) : setup.Follows (E.toSorted c) (E'.toSorted c) :=
  ownElements (fun r => (callback hE ..).seq (arrayOf r)) c

/-- `Array.from`. -/
theorem arrayFrom (c : CallSite) : setup.Follows (E.arrayFrom c) (E'.arrayFrom c) := by
  refine firstElements (fun r => ?_) c
  split
  · exact arrayOf r
  · exact (callback hE ..).bind fun _ => arrayOf _

/-- `Object.groupBy`. -/
theorem groupBy (c : CallSite) : setup.Follows (E.groupBy c) (E'.groupBy c) :=
  firstElements (fun r => (callback hE ..).seq ((arrayOf r).bind fun _ => objectOf _)) c

/-! ## Dispatch -/

/-- Every model of a native method does the same without marks. -/
theorem model (b : Builtin) (c : CallSite) : setup.Follows (E.model b c) (E'.model b c) := by
  cases b with
  | arrayPush | arrayUnshift => exact insertElements c
  | arrayPop | arrayShift => exact removeElement c
  | arraySplice => exact splice c
  | arraySort => exact sort hE c
  | arrayReverse | arrayCopyWithin => exact arrayTarget c
  | arrayFill => exact fill c
  | arrayMap => exact elementCallback hE (fun p => arrayOf p.2) c
  | arrayFilter => exact elementCallback hE (fun p => arrayOf p.1) c
  | arrayForEach | arrayFind | arrayFindLast | arrayFindIndex | arrayFindLastIndex | arrayEvery
  | arraySome => exact elementCallback hE (fun _ => .pure _) c
  | arrayFlatMap => exact flatMap hE c
  | arrayReduce | arrayReduceRight => exact reduce hE c
  | arraySlice | arrayToReversed | arrayValues => exact ownElements arrayOf c
  | arrayConcat => exact concat c
  | arrayFlat => exact flat c
  | arrayToSorted => exact toSorted hE c
  | arrayToSpliced | arrayWith => exact copyWith c _
  | arrayAt => exact ownElements (fun _ => .pure _) c
  | arrayIndexOf | arrayLastIndexOf | arrayJoin | arrayToString | arrayToLocaleString
  | arrayIncludes | arrayIsArray | objectHasOwn | objectIs | objectIsExtensible | objectIsFrozen
  | objectIsSealed => exact .pure _
  | arrayEntries => exact ownElements pairsOf c
  | arrayKeys | objectKeys | objectGetOwnPropertyNames | objectGetOwnPropertySymbols =>
    exact arrayOf _
  | arrayOf => exact (derefAll c.args).bind arrayOf
  | arrayFrom => exact arrayFrom hE c
  | objectAssign => exact objectAssign c
  | objectDefineProperty => exact defineProperty c
  | objectDefineProperties => exact defineProperties c
  | objectFreeze | objectSeal | objectPreventExtensions | objectSetPrototypeOf =>
    exact objectTarget c
  | objectValues => exact firstElements arrayOf c
  | objectEntries => exact firstElements pairsOf c
  | objectFromEntries => exact firstElements (fun r => (elements r).bind objectOf) c
  | objectGroupBy => exact groupBy hE c
  | objectGetOwnPropertyDescriptor =>
    exact firstElements (fun r => (descriptor r).bind fun _ => .pure _) c
  | objectGetOwnPropertyDescriptors =>
    exact firstElements (fun r => (descriptor r).bind fun _ => objectOf _) c
  | objectCreate => exact createObject c
  | objectGetPrototypeOf => exact (report ..).seq (.pure _)
  | unknown code => exact (warn _).seq (.pure _)

/-- Every call of a built-in follows, with its entry in the log. -/
theorem callBuiltin (b : Builtin) (c : CallSite) :
    setup.Follows (E.callBuiltin b c) (E'.callBuiltin b c) := by
  have h := model hE b c
  cases b with
  | unknown code => exact h
  | _ => exact (log .debug fun _ => by rfl).seq h

end

end Setup.Follows

end FrozenGlobals
