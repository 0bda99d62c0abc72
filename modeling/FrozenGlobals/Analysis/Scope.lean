import FrozenGlobals.Analysis.Evaluator

/-!
# Scopes

Entering a block makes a frame from the block's template: its `var` names, without any value yet,
and its functions, which see the frame they are declared in. A program runs in a scope of its own on
top of its globals.
-/

namespace FrozenGlobals

open Script (Block Stmt Hoisting ScopeTemplate)

namespace Run

/-- The template of a block of the current program. -/
def template (start : Int) : Run ScopeTemplate := do
  match (← read).programs[(← get).unit]? with
  | none => throw (.internal .noProgram)
  | some p =>
      match p.hoisting.find? start with
      | none => throw (.internal (.noScope start))
      | some t => return t

/-- Pushes a new frame for a template. -/
def instantiate (t : ScopeTemplate) (stack : Stack) : Run Stack := do
  let frame ← newFrame (t.vars.foldl (fun f name => f.define name (.known .empty)) .empty)
  let inner := frame :: stack
  t.functions.forM fun fn => do
    match fn.name with
    | none => return ()
    | some id => define frame id.name (.known (.single (← newFunction fn inner)))
  return inner

/-- Pushes an empty frame. -/
def pushFrame (stack : Stack) : Run Stack := return (← newFrame .empty) :: stack

end Run

namespace Evaluator

open Run

/-- Runs statements one after another. -/
def walkAll (E : Evaluator) (fold : Bool) (body : List Stmt) (stack : Stack) : Run Reference :=
  body.foldlM (fun result s => return result.union (← E.walk fold s stack)) .empty

/-- Runs a block in a scope of its own. -/
def walkBlock (E : Evaluator) (fold : Bool) (b : Block) (stack : Stack) : Run Reference := do
  checkCanceled
  let t ← template b.start
  log .debug fun _ => ("Entering block",
    [("block", .ofInt b.start), ("frames", .ofNat stack.length), ("vars", .ofNat t.vars.length),
     ("funcs", .ofNat t.functions.length)])
  E.walkAll fold b.body (← instantiate t stack)

/-- Runs a program on top of its globals, and yields what it evaluates to: the value of its only
statement if that is an expression. -/
def runProgram (E : Evaluator) (unit : Nat) (globals : Stack) : Run Reference :=
  inUnit unit do
    let stack ← instantiate (← template Hoisting.root) globals
    match (← read).programs[unit]? with
    | none => throw (.internal .noProgram)
    | some p => E.walkAll (p.program.body.length == 1) p.program.body stack

end Evaluator

end FrozenGlobals
