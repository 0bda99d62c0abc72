import FrozenGlobals.Analysis.Member

/-!
# Writes

Assignments, updates and deletions, and the destructuring of patterns. Every write is checked
against the globals before it is recorded, and a name keeps what it stood for before.
-/

namespace FrozenGlobals

open Script (Expr Pattern PatternItem PatternProperty AssignOp Span)

namespace Evaluator

open Run

/-- Checks a write to a name, and records what it stands for from then on. -/
def writeName (name : String) (value : Operand) (stack : Stack) (site : Site)
    (violation : Violation) : Run Unit := do
  let current ← lookup name stack
  unless ← checkGlobal (← deref current) site violation do
    checkGlobalName name stack site violation
  rebind name ((← deref current).union (← deref value)) stack

/-- Checks an assignment of a value to a target, and records it. -/
def assignTo (E : Evaluator) (target : Expr) (value : Operand) (site : Site) (stack : Stack) :
    Run Unit := do
  match target with
  | .identifier id => writeName id.name value stack site .assign
  | .dot .. | .bracket .. =>
      let (object, key) ← E.memberTarget target stack
      let slot ← getKey (← deref object) key
      let _ ← checkGlobal slot site .assign
      let _ ← checkGlobal (← deref object) site .assignProperty
      E.callSetters slot object value site
      setKey (← deref object) key (← deref value)
  | .privateDot _ object _ =>
      let object ← E.value object stack
      let _ ← checkGlobal object site .assignProperty
  | target => unsupported .assignTarget target.kind target.span

/-! ## Patterns -/

/-- Adds to a `var` binding. A name that no frame inside the globals binds is bound in the innermost
frame. -/
def addVariable (name : String) (value : Operand) (stack : Stack) : Run Unit := do
  match ← owner? stack name with
  | some frame =>
      if Stack.globals? stack == some frame then define (← top stack) name value
      else
        let existing := (((← get).heap.frame frame).find? name).getD (.known .empty)
        define frame name (.known ((← deref existing).union (← deref value)))
  | none => define (← top stack) name value

/-- Does with a leaf of a pattern what the pattern is for. -/
def installLeaf (E : Evaluator) (how : Install) (leaf : Expr) (value : Operand) (stack : Stack) :
    Run Unit := do
  match how, leaf with
  | .assign site, leaf => E.assignTo leaf value site stack
  | .lexical, .identifier id => define (← top stack) id.name value
  | .variable, .identifier id => addVariable id.name value stack
  | _, leaf => unsupported .assignBinding leaf.kind leaf.span

/-- Binds one position of an array pattern to the elements. -/
def bindItem (E : Evaluator) (how : Install) (elements : Reference) (stack : Stack)
    (item : PatternItem) : Run Unit := do
  match item with
  | .mk target none => E.bind how target (.known elements) stack
  | .mk (.leaf (.identifier id)) (some fallback) =>
      let fallback ← E.value fallback stack
      E.installLeaf how (.identifier id) (.known (elements.union fallback)) stack
  | item => unsupported .assignBinding item.kind item.span

/-- Binds one property of an object pattern. -/
def bindProperty (E : Evaluator) (how : Install) (init : Operand) (stack : Stack)
    (property : PatternProperty) : Run Unit := do
  match property with
  | .short id fallback =>
      let found ← getKey (← deref init) (.name id.name)
      let found ← match fallback with
        | none => pure found
        | some fallback => pure (found.union (← E.value fallback stack))
      E.installLeaf how (.identifier id) (.known found) stack
  | .keyed key computed item =>
      let key ← E.propertyKey key computed stack
      match item with
      | .mk target none =>
          E.bind how target (.known (← getKey (← deref init) key)) stack
      | item => unsupported .assignBinding item.kind item.span

/-- Binds what is left over to the name behind `...`, as a new container. -/
def bindRest (E : Evaluator) (how : Install) (rest : Option Pattern) (container : Run Value)
    (stack : Stack) : Run Unit := do
  match rest with
  | none => return ()
  | some (.leaf (.identifier id)) =>
      E.installLeaf how (.identifier id) (.known (.single (← container))) stack
  | some rest => unsupported .restBinding rest.kind rest.span

/-- Destructures a value. -/
def bindStep (E : Evaluator) (how : Install) (target : Pattern) (init : Operand)
    (stack : Stack) : Run Unit := do
  match target with
  | .leaf leaf => E.installLeaf how leaf init stack
  | .array _ items rest =>
      let elements ← getKey (← deref init) .any
      items.forM fun item =>
        match item with
        | none => pure ()
        | some item => E.bindItem how elements stack item
      E.bindRest how rest (newArray elements) stack
  | .object _ properties rest =>
      properties.forM (E.bindProperty how init stack)
      E.bindRest how rest
        (do newObject ⟨[], some (← getKey (← deref init) .any)⟩) stack

/-! ## Expressions that write -/

/-- Evaluates an assignment. Arithmetic operators write some primitive; logical ones may write the
right-hand side. -/
def assign (E : Evaluator) (span : Span) (op : AssignOp) (target : Pattern) (value : Expr)
    (stack : Stack) : Run Operand := do
  let right ← E.resolve value stack
  let written : Operand := match op with
    | .plain => right
    | .combined op => if op.isLogical then right else .known .anyPrimitive
  E.bind (.assign ⟨.assign, span⟩) target written stack
  return written

/-- Evaluates `++` or `--`. -/
def update (E : Evaluator) (span : Span) (operand : Expr) (stack : Stack) : Run Operand := do
  let site : Site := ⟨.update, span⟩
  match operand with
  | .identifier id => writeName id.name (.known .anyPrimitive) stack site .update
  | .dot .. | .bracket .. =>
      let (object, key) ← E.memberTarget operand stack
      let object ← deref object
      let _ ← checkGlobal (← getKey object key) site .update
      let _ ← checkGlobal object site .update
      setKey object key .anyPrimitive
  | operand =>
      let _ ← checkGlobal (← E.value operand stack) site .update
  return .known .anyPrimitive

/-- Evaluates `delete`. -/
def deleteProperty (E : Evaluator) (span : Span) (operand : Expr) (stack : Stack) :
    Run Operand := do
  match operand with
  | .dot .. | .bracket .. =>
      let (object, _) ← E.memberTarget operand stack
      let _ ← checkGlobal (← deref object) ⟨.unary, span⟩ .delete
  | operand => E.visit operand stack
  return .known .boolean

end Evaluator

end FrozenGlobals
