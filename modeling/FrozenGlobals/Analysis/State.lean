import FrozenGlobals.Analysis.Failure
import FrozenGlobals.Canonical
import FrozenGlobals.Diagnostic
import FrozenGlobals.Host.Conversion
import FrozenGlobals.Log
import FrozenGlobals.Script.Hoisting

/-!
# The state of an analysis

What an analysis is given (`Setup`), what it changes (`State`), and the elementary steps:
allocating, reading what names stand for, warning, logging and reporting. A step that fails keeps
the state it failed in, and the brackets here put back what a part of the analysis has to leave as
it found it.
-/

namespace FrozenGlobals

open Script (Program Span NodeKind Hoisting Function)

/-! ## What an analysis is given -/

/-- The settings of an analysis. -/
structure Options where
  /-- How many calls may nest; a negative number sets no ceiling. -/
  maxCallDepth : Int
  /-- Whether constructs that cannot be modelled end the analysis. -/
  strict : Bool
  /-- Whether warnings are kept. -/
  warnings : Bool
  /-- What is logged, if anything, unless there is a logger. -/
  logLevel : Option Log.Level
  /-- Takes the entries of every level. -/
  logger : Option Log.Logger := none
  /-- How many possibilities log entries show. -/
  logLimit : Int
  /-- How deep globals made from schemas are nested. -/
  maxSchemaDepth : Int
deriving Inhabited

def Options.standard : Options :=
  { maxCallDepth := 100, strict := true, warnings := true, logLevel := none, logLimit := 5
    maxSchemaDepth := 16 }

/-- Where log entries go, if anywhere: a logger that was given overrides the level. -/
def Options.sink? (o : Options) : Option Log.Logger := o.logger <|> o.logLevel.map .text

/-- A program with what its blocks declare on entry. -/
structure Prepared where
  program : Program
  hoisting : Hoisting
  hoisting_eq : hoisting = program.hoisting

instance : Inhabited Prepared := ⟨⟨default, _, rfl⟩⟩

def Prepared.ofProgram (p : Program) : Prepared := ⟨p, p.hoisting, rfl⟩

/-- External code for a member of the globals: the number of its program, and the data it runs
against. -/
structure Implementation where
  program : Option Nat
  globals : Host.Datum
deriving Inhabited

/-- Finds the implementations registered for a path. -/
abbrev Resolver := Path → Except String (List Implementation)

/-- What an analysis is given. The analyzed program is the first one. -/
structure Setup where
  options : Options
  programs : Array Prepared
  graph : Host.Graph
  resolver : Option Resolver
  /-- The analysis was called off before it began. -/
  canceled : Bool
deriving Inhabited

/-! ## What an analysis changes -/

/-- A function literal: the number of its program and where it stands. Functions without code share
one. -/
abbrev FunctionKey := Option (Nat × Span)

def Closure.key (c : Closure) : FunctionKey := c.code.map fun k => (k.unit, k.literal.span)

/-- How often each function was counted. -/
abbrev Tally := List (FunctionKey × Nat)

namespace Tally

def count (t : Tally) (k : FunctionKey) : Nat := (t.lookup k).getD 0

/-- Counts a function once more. -/
def add (k : FunctionKey) : Tally → Tally
  | [] => [(k, 1)]
  | (j, n) :: rest => if j == k then (j, n + 1) :: rest else (j, n) :: add k rest

/-- Takes back one count of a function. -/
def remove (k : FunctionKey) : Tally → Tally
  | [] => []
  | (j, n) :: rest => if j == k then (j, n - 1) :: rest else (j, n) :: remove k rest

end Tally

/-- What an analysis changes. -/
structure State where
  heap : Heap
  provenance : Provenance
  /-- Cells of the shared host containers converted so far. -/
  known : List (Nat × Value)
  /-- Everything thrown so far. -/
  thrown : Reference
  diagnostics : Array Diagnostic
  warnings : Array String
  /-- The entries that the logger kept. -/
  log : Array Log.Entry
  /-- The paths the resolver was asked for. -/
  requests : Array Path
  /-- How many calls are nested. -/
  depth : Nat
  /-- How many calls were followed in all. -/
  calls : Nat
  /-- How often each function is being called. -/
  active : Tally
  /-- How often each function was called while it was being called. -/
  reentries : Tally
  /-- The functions whose recursion was reported to be cut. -/
  budgetWarned : List FunctionKey
  /-- Whether the ceiling of nested calls was reported. -/
  ceilingWarned : Bool
  /-- The program whose code is evaluated. -/
  unit : Nat
  /-- The calls of the analyzed program through which external code is reached, innermost first.
  What external code calls in turn is reached through the same call of the analyzed program. -/
  anchors : List Span
deriving Inhabited

def State.start : State :=
  { heap := .empty, provenance := .empty, known := [], thrown := .empty, diagnostics := #[]
    warnings := #[], log := #[], requests := #[], depth := 0, calls := 0, active := []
    reentries := [], budgetWarned := [], ceilingWarned := false, unit := 0, anchors := [] }

/-- Computations of an analysis. -/
abbrev Run (α : Type) := ReaderT Setup (EStateM Failure State) α

namespace Run

/-! ## Brackets -/

/-- Runs a step and, whether it ends or fails, puts something back. -/
def restoring {α : Type} (x : Run α) (restore : State → State) : Run α := fun setup s =>
  match x setup s with
  | .ok a s => .ok a (restore s)
  | .error e s => .error e (restore s)

/-- Runs a step with another program as the current one. -/
def inUnit {α : Type} (unit : Nat) (x : Run α) : Run α := do
  let before := (← get).unit
  modify ({ · with unit })
  x.restoring ({ · with unit := before })

/-- Runs a step whose diagnostics are reported at a call of the analyzed program. -/
def anchored {α : Type} (span : Span) (x : Run α) : Run α := do
  let before := (← get).anchors
  modify ({ · with anchors := span :: before })
  x.restoring ({ · with anchors := before })

/-- Runs a step as a call of a function. -/
def counted {α : Type} (key : FunctionKey) (x : Run α) : Run α := do
  modify fun s =>
    { s with
      reentries := if 0 < s.active.count key then s.reentries.add key else s.reentries
      depth := s.depth + 1
      calls := s.calls + 1
      active := s.active.add key }
  x.restoring fun s => { s with depth := s.depth - 1, active := s.active.remove key }

/-- Notes on a failing step that it followed callbacks of a path. -/
def within {α : Type} (path : String) (x : Run α) : Run α := fun setup s =>
  match x setup s with
  | .ok a s => .ok a s
  | .error e s => .error (e.within path) s

/-- Runs a step on a stack of its own, so that deep recursion does not exhaust the stack. -/
def onFreshStack {α : Type} (x : Run α) : Run α := fun setup s =>
  (Task.spawn (fun _ => x setup s) .dedicated).get

/-! ## Values and names -/

/-- The possibilities of an operand at this moment. -/
def deref (o : Operand) : Run Reference := do
  match o with
  | .known r => return r
  | .thrown => return (← get).thrown

/-- The possibilities of several operands at this moment. -/
def derefAll (os : List Operand) : Run Reference := do
  return .unionAll (← os.mapM deref)

/-- Changes the heap. -/
def modifyHeap (f : Heap → Heap) : Run Unit := modify fun s => { s with heap := f s.heap }

def newObject (o : ObjectCell) : Run Value :=
  modifyGet fun s =>
    let (v, heap) := s.heap.addObject o
    (v, { s with heap })

def newArray (elements : Reference) : Run Value :=
  modifyGet fun s =>
    let (v, heap) := s.heap.addArray elements
    (v, { s with heap })

def newFrame (f : Frame) : Run Nat :=
  modifyGet fun s =>
    let (id, heap) := s.heap.addFrame f
    (id, { s with heap })

/-- The function a literal creates under the frames visible. -/
def newFunction (fn : Function) (scope : Stack) : Run Value :=
  modifyGet fun s =>
    let name := (fn.name.map (·.name)).getD ""
    let (v, heap) := s.heap.addClosure
      { name, code := some ⟨s.unit, fn⟩, scope, accessor := none }
    (v, { s with heap })

/-- What a reference holds at a key at this moment. -/
def getKey (r : Reference) (k : Key) : Run Reference := do
  return (← get).heap.getKey r k

/-- Writes at a key of every possibility. -/
def setKey (r : Reference) (k : Key) (v : Reference) : Run Unit :=
  modifyHeap fun h => h.setKey r k v

/-- Binds a name in a frame. -/
def define (frame : Nat) (name : String) (o : Operand) : Run Unit :=
  modifyHeap fun h => h.define frame name o

/-- The innermost frame. -/
def top (stack : Stack) : Run Nat :=
  match stack with
  | frame :: _ => return frame
  | [] => throw (.internal .scopeUnderflow)

/-- The innermost frame that binds a name. -/
def owner? (stack : Stack) (name : String) : Run (Option Nat) := do
  return (← get).heap.owner? stack name

/-- What a name stands for: its binding, an intrinsic, `undefined`, or nothing. -/
def lookup (name : String) (stack : Stack) : Run Operand := do
  match (← get).heap.lookup? stack name with
  | some o => return o
  | none =>
      match Intrinsic.ofName? name with
      | some i => return .known (.single (.intrinsic i))
      | none => return .known (if name == "undefined" then .undefined else .empty)

/-- Replaces the binding of a name where it is bound. A name that is not bound is created in the
frame of the program. -/
def rebind (name : String) (r : Reference) (stack : Stack) : Run Unit := do
  match ← owner? stack name with
  | some frame => define frame name (.known r)
  | none =>
      match Stack.programFrame? stack with
      | some frame => define frame name (.known r)
      | none => throw (.internal .scopeUnderflow)

/-- The frame of the globals of a root. -/
def newGlobals (root : Host.Datum) : Run Nat := do
  match (← read).graph.globals root with
  | .error fault => throw (.invalidGlobals fault)
  | .ok entries =>
      let graph := (← read).graph
      modifyGet fun s =>
        let (id, c) := Host.Conversion.frame graph ⟨s.heap, s.provenance, s.known⟩ entries
        (id, { s with heap := c.heap, provenance := c.provenance, known := c.known })

/-! ## Logging, warnings and reports -/

/-- Hands an entry to the logger. Without one, its fields are not computed. -/
def log (level : Log.Level) (entry : State → String × Log.Fields) : Run Unit := do
  match (← read).options.sink? with
  | none => return ()
  | some logger =>
      modify fun s =>
        let (message, fields) := entry s
        { s with log := logger.accept s.log ⟨level, message, ("analysis", .runName) :: fields⟩ }

/-- Warns that precision is lost. -/
def warn (message : String) : Run Unit := do
  log .warn fun _ => (message, [])
  if (← read).options.warnings then
    modify fun s => { s with warnings := s.warnings.push message }

/-- Meets a construct that cannot be modelled: a failure in strict mode, else a warning. -/
def unsupported (code : UnsupportedCode) (kind : NodeKind) (span : Span) : Run Unit := do
  let u : Unsupported := ⟨code, kind, span⟩
  if (← read).options.strict then throw (.unsupported u) else warn u.message

/-- Ends a canceled analysis. -/
def checkCanceled : Run Unit := do
  if (← read).canceled then throw .canceled

/-- Where a diagnostic about a range is reported. -/
def anchor (span : Span) : Run Span := do
  return (← get).anchors.head?.getD span

end Run

/-- A place in the syntax that can be reported on. -/
structure Site where
  kind : NodeKind
  span : Span
deriving DecidableEq, Repr, Inhabited

namespace Run

/-- Records a diagnostic about a site. -/
def report (site : Site) (message : String) (path : Option Path) : Run Unit := do
  let span ← anchor site.span
  modify fun s => { s with
    diagnostics := s.diagnostics.push ⟨message, span, (path.map Path.render).getD ""⟩ }
  log .info fun _ => ("Violation: " ++ message,
    [("start", .ofInt span.start), ("end", .ofInt span.stop), ("node", .text site.kind.name)])

end Run

/-! ## Violations -/

/-- The ways to mutate a global value. -/
inductive Violation where
  | update | delete | assign | assignProperty | arrayMethod | objectMethod
deriving DecidableEq, Repr

/-- The message about a mutation of the value at a path. -/
def Violation.message (v : Violation) (path : Path) : String :=
  (match v with
    | .update => "Cannot update global value "
    | .delete => "Cannot delete property of global value "
    | .assign => "Cannot assign to global value "
    | .assignProperty => "Cannot assign to property of global value "
    | .arrayMethod => "Can't call mutating array instance method on "
    | .objectMethod => "Cannot call mutating Object prototype method on ") ++ path.render

namespace Run

/-- Reports a violation if a possibility is part of the globals, and tells whether one is. -/
def checkGlobal (r : Reference) (site : Site) (violation : Violation) : Run Bool := do
  match (← get).provenance.findAny? r with
  | none => return false
  | some path =>
      report site (violation.message path) (some path)
      return true

/-- Reports a violation if a name is bound by the globals themselves. -/
def checkGlobalName (name : String) (stack : Stack) (site : Site) (violation : Violation) :
    Run Unit := do
  match ← owner? stack name with
  | none => return ()
  | some frame =>
      if Stack.globals? stack == some frame then
        let path : Path := [.key name]
        report site (violation.message path) (some path)

end Run

end FrozenGlobals
