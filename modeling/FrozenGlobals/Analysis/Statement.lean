import FrozenGlobals.Analysis.Scope
import FrozenGlobals.Analysis.Write

/-!
# Statements

Statements are run once each, branches and loop bodies included, in source order. What a statement
yields is what it may return. Function declarations do nothing where they stand: entering their
block declared them.
-/

namespace FrozenGlobals

open Script (Binding Stmt Expr ForInit ForTarget LoopKind Case Catch Pattern)

namespace Evaluator

open Run

/-- Evaluates a declarator, and binds its target. -/
def declare (E : Evaluator) (how : Install) (stack : Stack) (b : Binding) : Run Unit := do
  E.bind how b.target (← E.resolve? b.init stack) stack

/-- Evaluates what stands first in the head of a `for` loop. -/
def forInit (E : Evaluator) (init : Option ForInit) (stack : Stack) : Run Unit :=
  match init with
  | none => return ()
  | some (.expression e) => E.visit e stack
  | some (.declareVar bindings) => bindings.forM (E.declare .variable stack)
  | some (.declareLexical _ bindings) => bindings.forM (E.declare .lexical stack)

/-- Binds the variable of a loop over a collection. -/
def forTarget (E : Evaluator) (target : ForTarget) (value : Operand) (site : Site)
    (stack : Stack) : Run Unit := do
  match target with
  | .declareVar b => E.bind .variable b.target value stack
  | .declareLexical _ p => E.bind .lexical p value stack
  | .assign (.leaf e) => E.assignTo e value site stack
  | .assign p => unsupported .assignTarget p.kind p.span

/-- Runs the clauses of a `switch`. -/
def walkCases (E : Evaluator) (fold : Bool) (cases : List Case) (stack : Stack) :
    Run Reference :=
  cases.foldlM (fun result (.mk _ test body) => do
    E.visit? test stack
    return result.union (← E.walkAll fold body stack)) .empty

/-- Runs a `catch` clause. Its parameter is everything thrown anywhere. -/
def walkCatch (E : Evaluator) (fold : Bool) (handler : Option Catch) (stack : Stack) :
    Run Reference := do
  match handler with
  | none => return .empty
  | some (.mk _ parameter body) =>
      let stack ← pushFrame stack
      match parameter with
      | none => pure ()
      | some p => E.bind .lexical p .thrown stack
      E.walkBlock fold body stack

/-- Runs a statement, and yields what it may return. -/
def walkStep (E : Evaluator) (fold : Bool) (s : Stmt) (stack : Stack) : Run Reference := do
  match s with
  | .block b => E.walkBlock fold b stack
  | .expression e =>
      let value ← E.value e stack
      return if fold then value else .empty
  | .declareVar _ bindings =>
      bindings.forM (E.declare .variable stack)
      return .empty
  | .declareLexical _ bindings =>
      bindings.forM (E.declare .lexical stack)
      return .empty
  | .declareFunction _ => return .empty
  | .declareClass cls =>
      match cls.name with
      | none => pure ()
      | some id => define (← top stack) id.name (.known .empty)
      warn ("class body at " ++ s.span.render ++ " is not analyzed")
      return .empty
  | .returnWith _ argument => deref (← E.resolve? argument stack)
  | .throwWith _ argument =>
      let value ← E.value argument stack
      modify fun s => { s with thrown := s.thrown.union value }
      return .empty
  | .ifElse _ test yes no =>
      E.visit test stack
      let yes ← E.walk fold yes stack
      match no with
      | none => return yes
      | some no => return yes.union (← E.walk fold no stack)
  | .forLoop _ init test update body =>
      let stack ← pushFrame stack
      E.forInit init stack
      E.visit? test stack
      let result ← E.walk fold body stack
      E.visit? update stack
      return result
  | .forEach span kind target source body =>
      let stack ← pushFrame stack
      let source ← E.value source stack
      let value ← match kind with
        | .forOf => getKey source .any
        | .forIn => pure .anyPrimitive
      E.forTarget target (.known value) ⟨s.kind, span⟩ stack
      E.walk fold body stack
  | .whileLoop _ test body =>
      E.visit test stack
      E.walk fold body stack
  | .doWhile _ body test =>
      let result ← E.walk fold body stack
      E.visit test stack
      return result
  | .switchOn span subject cases =>
      E.visit subject stack
      E.walkCases fold cases (← instantiate (← template span.start) stack)
  | .tryCatch _ body handler finalizer =>
      let result ← E.walkBlock fold body stack
      let result := result.union (← E.walkCatch fold handler stack)
      match finalizer with
      | none => return result
      | some b => return result.union (← E.walkBlock fold b stack)
  | .labelled _ _ body => E.walk fold body stack
  | .withObject span object body =>
      E.visit object stack
      warn ("with statement at " ++ span.render
        ++ ": property lookups through its object are not tracked")
      E.walk fold body stack
  | .jump _ | .empty _ | .debugger _ => return .empty

end Evaluator

end FrozenGlobals
