import FrozenGlobals.Number.Decimal
import FrozenGlobals.Text.Quoted

/-!
# Abstract values

The possibilities an expression may evaluate to. Primitives, intrinsics and built-ins are compared
by what they are; objects, arrays and functions are names of cells in a heap and compared by name.

A `Reference` is the set of values an expression could have, in the order in which they were found.
`Reference.mem_insert` and `Reference.mem_union` say that adding to one loses nothing and gains
nothing else.
-/

namespace FrozenGlobals

/-! ## Keys -/

/-- A property name, or the wildcard that stands for every property at once. -/
inductive Key where
  | name (text : String)
  | any
deriving DecidableEq, Repr, Inhabited

namespace Key

/-- Whether a key can address array elements: the wildcard and non-empty runs of digits. -/
def isIndex : Key → Bool
  | .any => true
  | .name text => !text.isEmpty && text.toList.all Char.isDigit

def render : Key → String
  | .any => "*"
  | .name text => text

end Key

/-! ## Primitives -/

/-- A value without properties; `any` is some primitive that is not known. -/
inductive Primitive where
  | undefined
  | null
  | bool (value : Bool)
  /-- A number by its text. -/
  | number (text : String)
  | string (text : String)
  | any
deriving DecidableEq, Repr, Inhabited

namespace Primitive

def ofNumber (x : Number.Binary64) : Primitive := .number x.text

def render : Primitive → String
  | .undefined => "undefined"
  | .null => "null"
  | .bool value => if value then "true" else "false"
  | .number text => text
  | .string text => Text.quote text
  | .any => "*"

end Primitive

/-! ## Intrinsics -/

/-- The global constructors with a meaning of their own. -/
inductive Intrinsic where
  | object | array | eval | function
  /-- A number that names no intrinsic. -/
  | unknown (code : UInt8)
deriving DecidableEq, Repr, Inhabited

namespace Intrinsic

/-- The intrinsic with a given number. -/
def ofCode (code : UInt8) : Intrinsic :=
  if code == 1 then .object
  else if code == 2 then .array
  else if code == 3 then .eval
  else if code == 4 then .function
  else .unknown code

/-- The intrinsic a name stands for when nothing else binds it. -/
def ofName? (name : String) : Option Intrinsic :=
  if name == "Object" then some .object
  else if name == "Array" then some .array
  else if name == "eval" then some .eval
  else if name == "Function" then some .function
  else none

def render : Intrinsic → String
  | .object => "Object"
  | .array => "Array"
  | .eval => "eval"
  | .function => "Function"
  | .unknown _ => "intrinsic"

end Intrinsic

/-! ## Built-ins -/

/-- The native methods with a model. -/
inductive Builtin where
  | arrayPush | arrayPop | arrayShift | arrayUnshift | arraySplice | arraySort | arrayReverse
  | arrayFill | arrayCopyWithin
  | arrayMap | arrayFilter | arrayForEach | arrayFind | arrayFindIndex | arrayFindLast
  | arrayFindLastIndex | arrayEvery | arraySome | arrayFlatMap | arrayReduce | arrayReduceRight
  | arraySlice | arrayConcat | arrayFlat | arrayToSorted | arrayToReversed | arrayToSpliced
  | arrayWith | arrayAt | arrayIndexOf | arrayLastIndexOf | arrayIncludes | arrayJoin
  | arrayEntries | arrayKeys | arrayValues | arrayToString | arrayToLocaleString
  | arrayIsArray | arrayOf | arrayFrom
  | objectAssign | objectDefineProperty | objectDefineProperties | objectFreeze | objectSeal
  | objectPreventExtensions | objectSetPrototypeOf
  | objectKeys | objectGetOwnPropertyNames | objectGetOwnPropertySymbols | objectValues
  | objectEntries | objectFromEntries | objectGroupBy | objectGetOwnPropertyDescriptor
  | objectGetOwnPropertyDescriptors | objectCreate | objectHasOwn | objectIs | objectIsExtensible
  | objectIsFrozen | objectIsSealed | objectGetPrototypeOf
  /-- A number that names no built-in. -/
  | unknown (code : UInt8)
deriving DecidableEq, Repr, Inhabited

/-- Where a built-in is found: on array instances, or on the `Array` or `Object` constructor. -/
inductive BuiltinOwner where
  | arrayInstance | arrayStatic | objectStatic
deriving DecidableEq, Repr, Inhabited

namespace Builtin

open BuiltinOwner

/-- All built-ins in the order of their numbers, with where they are found and their names. -/
def table : List (Builtin × BuiltinOwner × String) :=
  [(.arrayPush, arrayInstance, "push"), (.arrayPop, arrayInstance, "pop"),
   (.arrayShift, arrayInstance, "shift"), (.arrayUnshift, arrayInstance, "unshift"),
   (.arraySplice, arrayInstance, "splice"), (.arraySort, arrayInstance, "sort"),
   (.arrayReverse, arrayInstance, "reverse"), (.arrayFill, arrayInstance, "fill"),
   (.arrayCopyWithin, arrayInstance, "copyWithin"),
   (.arrayMap, arrayInstance, "map"), (.arrayFilter, arrayInstance, "filter"),
   (.arrayForEach, arrayInstance, "forEach"), (.arrayFind, arrayInstance, "find"),
   (.arrayFindIndex, arrayInstance, "findIndex"), (.arrayFindLast, arrayInstance, "findLast"),
   (.arrayFindLastIndex, arrayInstance, "findLastIndex"), (.arrayEvery, arrayInstance, "every"),
   (.arraySome, arrayInstance, "some"), (.arrayFlatMap, arrayInstance, "flatMap"),
   (.arrayReduce, arrayInstance, "reduce"), (.arrayReduceRight, arrayInstance, "reduceRight"),
   (.arraySlice, arrayInstance, "slice"), (.arrayConcat, arrayInstance, "concat"),
   (.arrayFlat, arrayInstance, "flat"), (.arrayToSorted, arrayInstance, "toSorted"),
   (.arrayToReversed, arrayInstance, "toReversed"),
   (.arrayToSpliced, arrayInstance, "toSpliced"), (.arrayWith, arrayInstance, "with"),
   (.arrayAt, arrayInstance, "at"), (.arrayIndexOf, arrayInstance, "indexOf"),
   (.arrayLastIndexOf, arrayInstance, "lastIndexOf"),
   (.arrayIncludes, arrayInstance, "includes"), (.arrayJoin, arrayInstance, "join"),
   (.arrayEntries, arrayInstance, "entries"), (.arrayKeys, arrayInstance, "keys"),
   (.arrayValues, arrayInstance, "values"), (.arrayToString, arrayInstance, "toString"),
   (.arrayToLocaleString, arrayInstance, "toLocaleString"),
   (.arrayIsArray, arrayStatic, "isArray"), (.arrayOf, arrayStatic, "of"),
   (.arrayFrom, arrayStatic, "from"),
   (.objectAssign, objectStatic, "assign"),
   (.objectDefineProperty, objectStatic, "defineProperty"),
   (.objectDefineProperties, objectStatic, "defineProperties"),
   (.objectFreeze, objectStatic, "freeze"), (.objectSeal, objectStatic, "seal"),
   (.objectPreventExtensions, objectStatic, "preventExtensions"),
   (.objectSetPrototypeOf, objectStatic, "setPrototypeOf"),
   (.objectKeys, objectStatic, "keys"),
   (.objectGetOwnPropertyNames, objectStatic, "getOwnPropertyNames"),
   (.objectGetOwnPropertySymbols, objectStatic, "getOwnPropertySymbols"),
   (.objectValues, objectStatic, "values"), (.objectEntries, objectStatic, "entries"),
   (.objectFromEntries, objectStatic, "fromEntries"), (.objectGroupBy, objectStatic, "groupBy"),
   (.objectGetOwnPropertyDescriptor, objectStatic, "getOwnPropertyDescriptor"),
   (.objectGetOwnPropertyDescriptors, objectStatic, "getOwnPropertyDescriptors"),
   (.objectCreate, objectStatic, "create"), (.objectHasOwn, objectStatic, "hasOwn"),
   (.objectIs, objectStatic, "is"), (.objectIsExtensible, objectStatic, "isExtensible"),
   (.objectIsFrozen, objectStatic, "isFrozen"), (.objectIsSealed, objectStatic, "isSealed"),
   (.objectGetPrototypeOf, objectStatic, "getPrototypeOf")]

/-- The built-in with a given number, counted from one. -/
def ofCode (code : UInt8) : Builtin :=
  if code == 0 then .unknown code
  else
    match table[code.toNat - 1]? with
    | some (b, _, _) => b
    | none => .unknown code

/-- The number of a built-in. -/
def code : Builtin → UInt8
  | .unknown code => code
  | b => (table.findIdx (fun (x, _, _) => x == b) + 1).toUInt8

/-- The built-in found under a name. -/
def find? (owner : BuiltinOwner) (name : String) : Option Builtin :=
  (table.find? fun (_, o, n) => o == owner && n == name).map (·.1)

/-- A built-in by the place where it is found. -/
def render (b : Builtin) : String :=
  match table.find? fun (x, _, _) => x == b with
  | some (_, .arrayInstance, name) => "Array.prototype." ++ name
  | some (_, .arrayStatic, name) => "Array." ++ name
  | some (_, .objectStatic, name) => "Object." ++ name
  | none => "builtin"

/-- Whether a built-in modifies its receiver or first argument. -/
def isMutating : Builtin → Bool
  | .arrayPush | .arrayPop | .arrayShift | .arrayUnshift | .arraySplice | .arraySort
  | .arrayReverse | .arrayFill | .arrayCopyWithin
  | .objectAssign | .objectDefineProperty | .objectDefineProperties | .objectFreeze
  | .objectSeal | .objectPreventExtensions | .objectSetPrototypeOf => true
  | _ => false

/-- Whether a built-in always calls a function argument. -/
def takesCallback : Builtin → Bool
  | .arrayMap | .arrayFilter | .arrayForEach | .arrayFind | .arrayFindIndex | .arrayFindLast
  | .arrayFindLastIndex | .arrayEvery | .arraySome | .arrayFlatMap | .arrayReduce
  | .arrayReduceRight | .arrayFrom | .objectGroupBy => true
  | _ => false

end Builtin

/-! ## Values -/

/-- The classes of values. -/
inductive ValueKind where
  | primitive | object | array | function | intrinsic | builtin
deriving DecidableEq, Repr, Inhabited

namespace ValueKind

def all : List ValueKind := [.primitive, .object, .array, .function, .intrinsic, .builtin]

def name : ValueKind → String
  | .primitive => "primitive"
  | .object => "object"
  | .array => "array"
  | .function => "function"
  | .intrinsic => "intrinsic"
  | .builtin => "builtin"

end ValueKind

/-- One possibility an expression may evaluate to. Objects, arrays and functions are given by their
place in the heap. -/
inductive Value where
  | primitive (p : Primitive)
  | object (id : Nat)
  | array (id : Nat)
  | function (id : Nat)
  | intrinsic (i : Intrinsic)
  | builtin (b : Builtin)
deriving DecidableEq, Repr, Inhabited

namespace Value

def kind : Value → ValueKind
  | .primitive _ => .primitive
  | .object _ => .object
  | .array _ => .array
  | .function _ => .function
  | .intrinsic _ => .intrinsic
  | .builtin _ => .builtin

/-- Whether a value can be written to. -/
def isContainer : Value → Bool
  | .object _ | .array _ => true
  | _ => false

/-- Whether a value is code that is not part of any script. -/
def isNative : Value → Bool
  | .intrinsic _ | .builtin _ => true
  | _ => false

end Value

/-! ## References -/

/-- A set of possibilities in the order in which they were found. -/
structure Reference where
  values : List Value
  nodup : values.Nodup := by simp
deriving DecidableEq

namespace Reference

instance : Inhabited Reference := ⟨⟨[], .nil⟩⟩
instance : Membership Value Reference := ⟨fun r v => v ∈ r.values⟩

/-- Being a possibility is being in the list of possibilities. -/
theorem mem_def {r : Reference} {v : Value} : v ∈ r ↔ v ∈ r.values := Iff.rfl

instance (v : Value) (r : Reference) : Decidable (v ∈ r) :=
  inferInstanceAs (Decidable (v ∈ r.values))

/-- No possibility. -/
def empty : Reference := ⟨[], .nil⟩

/-- A single possibility. -/
def single (v : Value) : Reference := ⟨[v], by simp⟩

/-- Adds a possibility. -/
def insert (r : Reference) (v : Value) : Reference :=
  if h : v ∈ r.values then r
  else ⟨r.values ++ [v], by
    rw [List.nodup_append]
    refine ⟨r.nodup, by simp, ?_⟩
    intro a ha b hb hab
    rw [List.mem_singleton.1 hb] at hab
    exact h (hab ▸ ha)⟩

/-- Adds possibilities one after another. -/
def insertAll (r : Reference) (vs : List Value) : Reference := vs.foldl insert r

/-- The possibilities of both. -/
def union (r s : Reference) : Reference := r.insertAll s.values

/-- The possibilities of a list of values, each once. -/
def ofList (vs : List Value) : Reference := empty.insertAll vs

/-- The possibilities of several references. -/
def unionAll (rs : List Reference) : Reference := rs.foldl union empty

def ofPrimitive (p : Primitive) : Reference := single (.primitive p)

/-- Some primitive. -/
def anyPrimitive : Reference := ofPrimitive .any

def undefined : Reference := ofPrimitive .undefined

/-- Either truth value. -/
def boolean : Reference := ofList [.primitive (.bool true), .primitive (.bool false)]

def isEmpty (r : Reference) : Bool := r.values.isEmpty

def size (r : Reference) : Nat := r.values.length

/-- The possibilities with a property. -/
def filter (r : Reference) (p : Value → Bool) : Reference :=
  ⟨r.values.filter p, r.nodup.sublist List.filter_sublist⟩

/-- The objects and arrays. -/
def containers (r : Reference) : Reference := r.filter Value.isContainer

/-- The arrays. -/
def arrays (r : Reference) : Reference := r.filter fun v => v.kind == .array

/-- Whether something is possible and all of it is native code. -/
def onlyNative (r : Reference) : Bool := !r.isEmpty && r.values.all Value.isNative

/-- The empty reference has no possibilities. -/
@[simp] theorem not_mem_empty (v : Value) : v ∉ empty := by simp [mem_def, empty]

/-- A reference of one possibility has that one. -/
@[simp] theorem mem_single {v w : Value} : v ∈ single w ↔ v = w := by simp [mem_def, single]

/-- Adding a possibility keeps the others. -/
@[simp] theorem mem_insert {r : Reference} {v w : Value} :
    v ∈ r.insert w ↔ v ∈ r ∨ v = w := by
  unfold insert
  split
  · simp only [mem_def] at *
    exact ⟨Or.inl, fun h => h.elim id fun hv => hv ▸ ‹_›⟩
  · simp [mem_def]

/-- Inserting values adds these values. -/
@[simp] theorem mem_insertAll {r : Reference} {vs : List Value} {v : Value} :
    v ∈ r.insertAll vs ↔ v ∈ r ∨ v ∈ vs := by
  induction vs generalizing r with
  | nil => simp [insertAll]
  | cons w ws ih =>
      have : r.insertAll (w :: ws) = (r.insert w).insertAll ws := rfl
      rw [this, ih, mem_insert, List.mem_cons, or_assoc]

/-- A union holds the possibilities of both sides and no others. -/
@[simp] theorem mem_union {r s : Reference} {v : Value} :
    v ∈ r.union s ↔ v ∈ r ∨ v ∈ s := mem_insertAll

/-- Filtering keeps the possibilities that pass. -/
@[simp] theorem mem_filter {r : Reference} {p : Value → Bool} {v : Value} :
    v ∈ r.filter p ↔ v ∈ r ∧ p v := by simp [mem_def, filter]

end Reference

end FrozenGlobals
