import FrozenGlobals.Proofs.Execution.Store
import FrozenGlobals.Script.Hoisting

/-!
# Executions of scripts

What a script without calls, loops and jumps does to a store. Expressions are evaluated from left to
right; an assignment evaluates the object and the key of the member it writes before the value.
Reading a name that is declared but not initialised ends the execution, and so does whatever the
dialect has no result for. A store keeps what was recorded before an execution ends.

`Dialect.run` is an execution of a whole program from the store of its globals. Constructs outside
of this part of the language end an execution.
-/

namespace FrozenGlobals.Execution

open Script (Span Expr Pattern Property Stmt Binding)
open Host (Datum Graph)

/-- Computations that may end early. -/
abbrev Exec (α : Type) := EStateM Unit Store α

/-- Ends the execution. -/
def stop {α : Type} : Exec α := throw ()

/-- The store in which a computation ends. -/
def endOf {α : Type} (x : Exec α) (s : Store) : Store :=
  match x s with
  | .ok _ s => s
  | .error _ s => s

def orStop {α : Type} : Option α → Exec α
  | some a => pure a
  | none => stop

/-- Notes that a node mutates the globals. -/
def mutate (isGlobal : Bool) (span : Span) : Exec Unit :=
  modify fun s => if isGlobal then { s with mutations := s.mutations ++ [span] } else s

/-- Creates a container. -/
def create (c : Cell) : Exec Val := modifyGet fun s => s.add c

def cellAt (a : Address) : Exec Cell := do orStop ((← get).cells a)

/-- Deletes a property. -/
def deleteProperty (span : Span) (base : Val) (key : String) : Exec Val :=
  match base with
  | .scalar _ => if base.isNullish then stop else return .scalar (.bool true)
  | .ref a => do
      mutate a.isHost span
      let c ← cellAt a
      modify (·.put a (c.delete key))
      return .scalar (.bool true)

namespace Dialect

variable (d : Dialect)

/-! ## Names and properties -/

def readName (name : String) : Exec Val := do
  match (← get).find name with
  | .bound v => return v
  | .pending => stop
  | .absent => return .scalar (← orStop (d.constant name))

/-- The value of a name that need not exist. -/
def peekName (name : String) : Exec Val := do
  match (← get).find name with
  | .bound v => return v
  | .pending => stop
  | .absent => return .scalar ((d.constant name).getD .undefined)

/-- Writes a name. Constants are left as they are. -/
def writeName (span : Span) (name : String) (v : Val) : Exec Unit := do
  let s ← get
  match s.find name with
  | .bound _ =>
      mutate (s.isGlobal name) span
      modify (·.assign name v)
  | .pending => stop
  | .absent => if (d.constant name).isSome then return () else modify (·.assign name v)

/-- A value as a property name. -/
def keyName (v : Val) : Exec String :=
  match v with
  | .scalar s => return d.key s
  | .ref a => do orStop (d.name (← get) a)

def readProperty (base : Val) (key : String) : Exec Val :=
  match base with
  | .scalar s => do return .scalar (← orStop (d.property s key))
  | .ref a => do return (← cellAt a).read key

/-- Writes a property. A value without parts ignores it. -/
def writeProperty (span : Span) (base : Val) (key : String) (v : Val) : Exec Unit :=
  match base with
  | .scalar _ => if base.isNullish then stop else return ()
  | .ref a => do
      mutate a.isHost span
      let c ← orStop ((← cellAt a).write key v (d.length (← get) v))
      modify (·.put a c)

/-! ## Expressions -/

mutual

/-- Evaluates an expression. -/
def eval : Expr → Exec Val
  | .identifier id => d.readName id.name
  | .string _ text => return .scalar (.string text)
  | .number _ (some value) => return .scalar (.number value)
  | .number span none => return .scalar (.bigInt (d.bigInt span))
  | .boolean _ value => return .scalar (.bool value)
  | .null _ => return .scalar .null
  | .regExp _ => create ⟨.object, fun _ => none⟩
  | .template span none parts => do
      let vs ← evalAll parts
      return .scalar (← orStop (d.template span (← get) vs))
  | .array _ items => do create ⟨.array items.length, ← evalItems 0 (fun _ => none) items⟩
  | .object _ properties => do create ⟨.object, ← evalProperties (fun _ => none) properties⟩
  | .dot _ object name => do d.readProperty (← eval object) name
  | .bracket _ object key => do
      let base ← eval object
      let key ← eval key
      d.readProperty base (← d.keyName key)
  | .assign span .plain (.leaf (.identifier id)) value => do
      let v ← eval value
      d.writeName span id.name v
      return v
  | .assign span .plain (.leaf target) value => do
      let member ← evalMember target
      let v ← eval value
      d.writeProperty span member.1 (← d.keyName member.2) v
      return v
  | .unary span .delete operand => do
      let member ← evalMember operand
      deleteProperty span member.1 (← d.keyName member.2)
  | .unary _ .typeOf (.identifier id) => do
      let v ← d.peekName id.name
      return .scalar (← orStop (d.unary .typeOf (← get) v))
  | .unary _ op operand => do
      let v ← eval operand
      return .scalar (← orStop (d.unary op (← get) v))
  | .update span (.identifier id) => do
      let old ← d.readName id.name
      let new ← orStop (d.step span (← get) old)
      d.writeName span id.name (.scalar new.1)
      return .scalar new.2
  | .update span operand => do
      let member ← evalMember operand
      let key ← d.keyName member.2
      let old ← d.readProperty member.1 key
      let new ← orStop (d.step span (← get) old)
      d.writeProperty span member.1 key (.scalar new.1)
      return .scalar new.2
  | .binary _ .and left right => do
      let v ← eval left
      if d.isTrue v then eval right else return v
  | .binary _ .or left right => do
      let v ← eval left
      if d.isTrue v then return v else eval right
  | .binary _ .nullish left right => do
      let v ← eval left
      if v.isNullish then eval right else return v
  | .binary _ op left right => do
      let v ← eval left
      let w ← eval right
      return .scalar (← orStop (d.binary op (← get) v w))
  | .conditional _ test yes no => do
      let v ← eval test
      if d.isTrue v then eval yes else eval no
  | .sequence _ items => do return (← evalAll items).getLast?.getD .undefined
  | _ => stop

/-- Evaluates the object of a member and its key. -/
def evalMember : Expr → Exec (Val × Val)
  | .dot _ object name => do return (← eval object, .scalar (.string name))
  | .bracket _ object key => do
      let base ← eval object
      return (base, ← eval key)
  | _ => stop

/-- Evaluates expressions one after another. -/
def evalAll : List Expr → Exec (List Val)
  | [] => return []
  | e :: rest => do
      let v ← eval e
      return v :: (← evalAll rest)

/-- Evaluates the items of an array literal that stand at a position and behind it. -/
def evalItems (i : Nat) (props : String → Option Val) :
    List (Option Expr) → Exec (String → Option Val)
  | [] => return props
  | none :: rest => evalItems (i + 1) props rest
  | some e :: rest => do
      let v ← eval e
      evalItems (i + 1) (Cell.update props (toString i) (some v)) rest

/-- Evaluates the properties of an object literal. -/
def evalProperties (props : String → Option Val) :
    List Property → Exec (String → Option Val)
  | [] => return props
  | .short id _ :: rest => do
      let v ← d.readName id.name
      evalProperties (Cell.update props id.name (some v)) rest
  | .keyed (.identifier id) false .value value :: rest => do
      let v ← eval value
      evalProperties (Cell.update props id.name (some v)) rest
  | .keyed (.string _ text) false .value value :: rest => do
      let v ← eval value
      evalProperties (Cell.update props text (some v)) rest
  | _ => stop

end

/-! ## Statements -/

/-- The names that the declarations among statements declare. -/
def declaredNames (body : List Stmt) : List String :=
  (body.map fun s =>
    match s with
    | .declareLexical _ bindings => Script.Binding.names bindings
    | _ => []).flatten

/-- Runs a declarator. -/
def declare : Binding → Exec Unit
  | .mk (.leaf (.identifier id)) none => modify (·.declare id.name .undefined)
  | .mk (.leaf (.identifier id)) (some init) => do
      let v ← d.eval init
      modify (·.declare id.name v)
  | _ => stop

mutual

/-- Runs a statement. -/
def exec : Stmt → Exec Unit
  | .block (.mk _ body) => do
      modify fun s => { s with blocks := .declaring (declaredNames body) :: s.blocks }
      execAll body
      modify fun s => { s with blocks := s.blocks.tail }
  | .expression value => do let _ ← d.eval value
  | .declareLexical _ bindings => bindings.forM d.declare
  | .ifElse _ test yes none => do
      let v ← d.eval test
      if d.isTrue v then exec yes else return ()
  | .ifElse _ test yes (some no) => do
      let v ← d.eval test
      if d.isTrue v then exec yes else exec no
  | .empty _ => return ()
  | _ => stop

/-- Runs statements one after another. -/
def execAll : List Stmt → Exec Unit
  | [] => return ()
  | s :: rest => do
      exec s
      execAll rest

end

/-- Runs a program from the store that its globals describe, and yields the store in which it
ends. -/
def run (g : Graph) (entries : List (String × Datum)) (body : List Stmt) : Store :=
  endOf (d.execAll body) (.ofGlobals d g entries (declaredNames body))

end Dialect

end FrozenGlobals.Execution
