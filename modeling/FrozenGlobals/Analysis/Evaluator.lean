import FrozenGlobals.Analysis.State

/-!
# The evaluator

Evaluation is mutually recursive: expressions call functions, functions run statements, statements
bind patterns and evaluate expressions. An `Evaluator` bundles the four activities, and each step of
the evaluation is written against an evaluator for what lies one level below. The steps are plain
definitions; they are tied together once, in `Evaluator.ofFuel`.

Evaluating an expression yields an `Operand`. What is possible is read from it when it is used,
because the set of thrown values may have grown in between.
-/

namespace FrozenGlobals

open Script (Expr Pattern Stmt)

/-- An evaluated call: where it stands, what the callee was read from, and the arguments. -/
structure CallSite where
  site : Site
  receiver : Option Operand
  args : List Operand
deriving Inhabited

namespace CallSite

/-- An argument, which is undefined if it was not passed. -/
def arg (c : CallSite) (i : Nat) : Operand := c.args[i]?.getD (.known .undefined)

/-- A call at the same place without a receiver. -/
def callback (c : CallSite) (args : List Operand) : CallSite := ⟨c.site, none, args⟩

end CallSite

/-- What is done with the leaves of a pattern. -/
inductive Install where
  /-- `let`, `const`, parameters and `catch` bind in the innermost frame. -/
  | lexical
  /-- `var` adds to the binding made when the function was entered. -/
  | variable
  /-- An assignment writes, and is reported at a site. -/
  | assign (site : Site)
deriving DecidableEq, Repr, Inhabited

/-- The activities of the evaluation. -/
structure Evaluator where
  /-- What an expression may evaluate to. -/
  resolve : Expr → Stack → Run Operand
  /-- Destructures a value. -/
  bind : Install → Pattern → Operand → Stack → Run Unit
  /-- Runs a statement, and yields what it may return. Expression statements count as returning
  their value if `fold` is set. -/
  walk : (fold : Bool) → Stmt → Stack → Run Reference
  /-- Calls a value, and yields what it may return. -/
  invoke : Value → CallSite → Run Reference

def Site.ofExpr (e : Expr) : Site := ⟨e.kind, e.span⟩

namespace Evaluator

open Run

/-- Evaluates an expression that may be missing. A missing one is undefined. -/
def resolve? (E : Evaluator) (e : Option Expr) (stack : Stack) : Run Operand :=
  match e with
  | some e => E.resolve e stack
  | none => return .known .undefined

/-- Evaluates an expression for its effects. -/
def visit (E : Evaluator) (e : Expr) (stack : Stack) : Run Unit := do
  let _ ← E.resolve e stack

/-- Evaluates an expression that may be missing for its effects. -/
def visit? (E : Evaluator) (e : Option Expr) (stack : Stack) : Run Unit :=
  match e with
  | some e => E.visit e stack
  | none => return ()

/-- Evaluates an expression, and reads what it is at this moment. -/
def value (E : Evaluator) (e : Expr) (stack : Stack) : Run Reference := do
  deref (← E.resolve e stack)

/-- Calls every possibility, and yields what the calls may return. -/
def invokeAll (E : Evaluator) (callee : Reference) (c : CallSite) : Run Reference :=
  callee.values.foldlM (fun result v => return result.union (← E.invoke v c)) .empty

end Evaluator

end FrozenGlobals
