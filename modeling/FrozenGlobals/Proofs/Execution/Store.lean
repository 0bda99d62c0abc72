import FrozenGlobals.Host.Conversion
import FrozenGlobals.Proofs.Host.Traversal
import FrozenGlobals.Script.Tree

/-!
# Stores of executions

What a script works on when it really runs: primitive values, containers at addresses, and the names
in scope. Containers have properties of their own and nothing else, and the length of an array is a
number. A `Dialect` is the part of the language that is left open: what operators compute, how
values convert, and where they fail to.

A `Store` also keeps the ranges of the nodes that mutated the globals, which is what an analysis is
asked to find. `Store.ofGlobals` is the store that host data describes.
-/

namespace FrozenGlobals.Execution

open Script (Span Expr UnaryOp BinaryOp)
open Number (Binary64)
open Host (Datum Container Graph)

/-! ## Values -/

/-- A value without parts. -/
inductive Scalar where
  | undefined
  | null
  | bool (value : Bool)
  | number (value : Binary64)
  | string (text : String)
  | bigInt (value : Int)
deriving DecidableEq, Inhabited

/-- Where a container is: a shared container of the host, a copied one that stands at an entry of
the globals or inside another container, or one that the script created. -/
inductive Address where
  | shared (id : Nat)
  | entry (i : Nat)
  | part (outer : Address) (i : Nat)
  | fresh (n : Nat)
deriving DecidableEq, Inhabited

/-- Whether the host provided the container. -/
def Address.isHost : Address → Bool
  | .fresh _ => false
  | _ => true

inductive Val where
  | scalar (s : Scalar)
  | ref (a : Address)
deriving DecidableEq, Inhabited

def Val.undefined : Val := .scalar .undefined

/-- Whether a value is missing, as `??` sees it. -/
def Val.isNullish : Val → Bool
  | .scalar .undefined | .scalar .null => true
  | _ => false

/-! ## Containers -/

inductive Shape where
  | object
  | array (length : Nat)
deriving DecidableEq, Inhabited

/-- A container: its shape and its properties, the length of an array apart. -/
structure Cell where
  shape : Shape
  props : String → Option Val
deriving Inhabited

/-- The position a property name stands for. -/
def index? (key : String) : Option Nat := key.toNat?.filter fun n => toString n == key

namespace Cell

/-- The properties with one of them changed. -/
def update (props : String → Option Val) (key : String) (v : Option Val) : String → Option Val :=
  fun k => if k = key then v else props k

/-- Reads a property; a missing one is undefined. -/
def read (c : Cell) (key : String) : Val :=
  match c.shape with
  | .array length =>
      if key = "length" then .scalar (.number (.ofNat length)) else (c.props key).getD .undefined
  | .object => (c.props key).getD .undefined

/-- Writes a property. A written length removes the elements beyond it; an element beyond the length
extends it. -/
def write (c : Cell) (key : String) (v : Val) (length? : Option Nat) : Option Cell :=
  match c.shape with
  | .object => some ⟨.object, update c.props key (some v)⟩
  | .array length =>
      if key = "length" then
        length?.map fun n =>
          ⟨.array n, fun k => if (index? k).any (n ≤ ·) then none else c.props k⟩
      else
        some ⟨.array (max length (((index? key).map (· + 1)).getD 0)),
          update c.props key (some v)⟩

/-- Deletes a property. The length of an array stays. -/
def delete (c : Cell) (key : String) : Cell := ⟨c.shape, update c.props key none⟩

end Cell

/-! ## Stores -/

/-- What a scope has under a name: nothing, a declaration that was not reached, or a value. -/
inductive Slot where
  | absent
  | pending
  | bound (v : Val)
deriving DecidableEq, Inhabited

abbrev Scope := String → Slot

namespace Scope

def set (s : Scope) (name : String) (slot : Slot) : Scope :=
  fun n => if n = name then slot else s n

/-- The scope of a block that declares names. -/
def declaring (names : List String) : Scope :=
  fun n => if n ∈ names then .pending else .absent

end Scope

/-- The state of an execution: the scopes of the blocks around, innermost first, that of the program
and that of the globals, the containers, and the ranges of the nodes that mutated the globals. -/
structure Store where
  blocks : List Scope
  program : Scope
  globals : Scope
  cells : Address → Option Cell
  /-- The number of the next container that the script creates. -/
  next : Nat
  mutations : List Span

namespace Store

/-- What the innermost of scopes that has a name has under it. -/
def slotIn (name : String) : List Scope → Slot
  | [] => .absent
  | scope :: rest => if scope name = .absent then slotIn name rest else scope name

/-- What a name stands for. -/
def find (s : Store) (name : String) : Slot := slotIn name (s.blocks ++ [s.program, s.globals])

/-- Whether a name is one of the globals where it stands. -/
def isGlobal (s : Store) (name : String) : Bool :=
  slotIn name (s.blocks ++ [s.program]) = .absent && s.globals name ≠ .absent

/-- Sets a name in the first scope that has it. -/
def setFirst (name : String) (v : Val) : List Scope → List Scope
  | [] => []
  | scope :: rest =>
      if scope name = .absent then scope :: setFirst name v rest
      else scope.set name (.bound v) :: rest

/-- Sets a name where it is found. A name that is not found becomes one of the program. -/
def assign (s : Store) (name : String) (v : Val) : Store :=
  if slotIn name s.blocks ≠ .absent then { s with blocks := setFirst name v s.blocks }
  else if s.program name = .absent ∧ s.globals name ≠ .absent then
    { s with globals := s.globals.set name (.bound v) }
  else { s with program := s.program.set name (.bound v) }

/-- Gives a name declared in the innermost scope its value. -/
def declare (s : Store) (name : String) (v : Val) : Store :=
  match s.blocks with
  | [] => { s with program := s.program.set name (.bound v) }
  | scope :: rest => { s with blocks := scope.set name (.bound v) :: rest }

/-- Adds a container. -/
def add (s : Store) (c : Cell) : Val × Store :=
  (.ref (.fresh s.next),
    { s with
      cells := fun a => if a = .fresh s.next then some c else s.cells a
      next := s.next + 1 })

/-- Replaces a container. -/
def put (s : Store) (a : Address) (c : Cell) : Store :=
  { s with cells := fun b => if b = a then some c else s.cells b }

end Store

/-! ## Dialects -/

/-- What is left open of the language. Operators and conversions may depend on all of the store, and
they may fail, which ends an execution. Small whole numbers are written in decimal. -/
structure Dialect where
  /-- Data without parts as scripts see it. -/
  scalar : Datum → Scalar
  /-- The value of a big integer, whose digits the tree does not keep. -/
  bigInt : Span → Int
  /-- The text of a number. -/
  numeral : Binary64 → String
  numeral_ofNat : ∀ n < 1000000, numeral (.ofNat n) = toString n
  /-- Names that have a value although no scope has them. -/
  constant : String → Option Scalar
  truthy : Scalar → Bool
  unary : UnaryOp → Store → Val → Option Scalar
  binary : BinaryOp → Store → Val → Val → Option Scalar
  /-- What `++` or `--` writes, and what it yields. -/
  step : Span → Store → Val → Option (Scalar × Scalar)
  template : Span → Store → List Val → Option Scalar
  /-- A property of a value without parts. -/
  property : Scalar → String → Option Scalar
  /-- A container as a property name. -/
  name : Store → Address → Option String
  /-- A value as the length of an array. -/
  length : Store → Val → Option Nat

namespace Dialect

/-- A value without parts as a property name. -/
def key (d : Dialect) : Scalar → String
  | .undefined => "undefined"
  | .null => "null"
  | .bool value => if value then "true" else "false"
  | .number value => d.numeral value
  | .string text => text
  | .bigInt value => toString value

def isTrue (d : Dialect) : Val → Bool
  | .scalar s => d.truthy s
  | .ref _ => true

end Dialect

/-! ## The store of the globals -/

section
variable (d : Dialect) (g : Graph)

/-- The container of the graph that stands where data was copied to. -/
def copied? : Datum → Option Container
  | .container id => (g.find? id).filter fun k => k.isVisible && !k.isShared
  | _ => none

/-- What data is that stands at an address. Shared containers have an address of their own, and
scripts do not look into hidden ones. -/
def valueAt (a : Address) : Datum → Val
  | .container id =>
      match g.find? id with
      | some k =>
          if k.isShared then .ref (.shared id)
          else if k.isVisible then .ref a
          else .scalar (d.scalar (.container id))
      | none => .scalar (d.scalar (.container id))
  | datum => .scalar (d.scalar datum)

/-- The container that the host provides at an address. -/
def containerAt (entries : List (String × Datum)) : Address → Option Container
  | .shared id => (g.find? id).filter (·.isShared)
  | .entry i => entries[i]?.bind fun e => copied? g e.2
  | .part outer i =>
      (containerAt entries outer).bind fun k => (k.parts[i]?).bind fun e => copied? g e.2
  | .fresh _ => none

/-- The container at an address with its parts. -/
def cellOf (a : Address) : Container → Cell
  | .object entries absent =>
      let parts := (Container.object entries absent).parts
      ⟨.object, fun key =>
        (parts.findIdx? fun e => e.1 = .key key).bind fun i =>
          (parts[i]?).map fun e => valueAt d g (.part a i) e.2⟩
  | .array items _ =>
      ⟨.array items.length, fun key =>
        (index? key).bind fun i => (items[i]?).map fun e => valueAt d g (.part a i) e⟩
  | .keyedBy _ => ⟨.object, fun _ => none⟩

/-- The store that globals describe, for a program that declares names. -/
def Store.ofGlobals (entries : List (String × Datum)) (declared : List String) : Store where
  blocks := []
  program := .declaring declared
  globals := fun name =>
    ((entries.findIdx? fun e => e.1 = name).bind fun i =>
      (entries[i]?).map fun e => valueAt d g (.entry i) e.2).elim .absent .bound
  cells := fun a => (containerAt g entries a).map (cellOf d g a)
  next := 0
  mutations := []

end

end FrozenGlobals.Execution
