import FrozenGlobals.Proofs.Chaining.Evaluation

/-!
# Statements without marks

Statements follow if the evaluators one level below do. `Evaluator.follows_ofFuel` is what comes out
for whole evaluations: with any number of levels, the evaluation without marks does what the
evaluation does, unless that one runs out of levels.
-/

namespace FrozenGlobals

open Script (Span Expr Stmt Place)

namespace Evaluator

namespace Follows

open Setup.Follows (deref define top warn getKey)

variable {setup : Setup} {E E' : Evaluator} {stack : Stack} (hE : Follows setup E E')
include hE

/-! ## Declarations -/

/-- Declarations follow, declarator by declarator. -/
theorem declareAll (how : Install) (bindings : List Script.Binding) :
    setup.Follows (bindings.forM (E.declare how stack))
      ((bindings.map Script.Binding.unchained).forM (E'.declare how stack)) := by
  refine .forM (fun b => ?_) bindings
  unfold Evaluator.declare
  rw [Script.Binding.target_pruned, Script.Binding.init_pruned]
  exact (hE.resolve? b.init).bind fun _ => hE.bind how b.target _ stack

/-- The head of a `for` loop follows. -/
theorem forInit (init : Option Script.ForInit) :
    setup.Follows (E.forInit init stack)
      (E'.forInit (init.map Script.ForInit.unchained) stack) := by
  unfold Evaluator.forInit
  cases init with
  | none => exact .pure ()
  | some init =>
    cases init with
    | expression e => exact hE.visit e .value
    | declareVar bindings =>
      rw [Option.map_some, Script.ForInit.unchained, Script.ForInit.pruned,
        Script.prunedBindings_eq]
      exact hE.declareAll .variable bindings
    | declareLexical span bindings =>
      rw [Option.map_some, Script.ForInit.unchained, Script.ForInit.pruned,
        Script.prunedBindings_eq]
      exact hE.declareAll .lexical bindings

/-- The target of a loop over a collection follows. -/
theorem forTarget (target : Script.ForTarget) (value : Operand) (site : Site) :
    setup.Follows (E.forTarget target value site stack)
      (E'.forTarget target.unchained value site stack) := by
  unfold Evaluator.forTarget
  cases target with
  | declareVar b =>
    rw [Script.ForTarget.unchained, Script.ForTarget.pruned]
    dsimp only
    rw [Script.Binding.target_pruned]
    exact hE.bind .variable b.target value stack
  | declareLexical start target => exact hE.bind .lexical target value stack
  | assign target =>
    have hother : setup.Follows _ _ := .unsupportedPattern .assignTarget target
    cases target with
    | leaf e => exact hE.assignTo e value site
    | _ => exact hother

/-! ## Clauses -/

/-- The clauses of a `switch` follow, in order. -/
theorem walkCases (fold : Bool) (cases : List Script.Case) :
    setup.Follows (E.walkCases fold cases stack)
      (E'.walkCases fold (cases.map Script.Case.unchained) stack) := by
  unfold Evaluator.walkCases
  refine .foldlM (fun result clause => ?_) cases _
  obtain ⟨start, test, body⟩ := clause
  rw [Script.Case.unchained, Script.Case.pruned, Script.prunedExpr?_eq, Script.prunedStmts_eq]
  exact (hE.visit? test).seq ((hE.walkAll fold body).bind fun _ => .pure _)

/-- A `catch` clause follows. -/
theorem walkCatch (fold : Bool) (handler : Option Script.Catch) :
    setup.Follows (E.walkCatch fold handler stack)
      (E'.walkCatch fold (handler.map Script.Catch.unchained) stack) := by
  unfold Evaluator.walkCatch
  cases handler with
  | none => exact .pure _
  | some handler =>
    obtain ⟨start, parameter, body⟩ := handler
    rw [Option.map_some, Script.Catch.unchained, Script.Catch.pruned, Script.prunedPattern?_eq]
    refine (Setup.Follows.pushFrame stack).bind fun inner => ?_
    cases parameter with
    | none => exact hE.walkBlock fold body
    | some p => exact (hE.bind .lexical p .thrown inner).seq (hE.walkBlock fold body)

/-! ## Statements -/

/-- Statements of every form follow. -/
theorem walkStep (fold : Bool) (s : Stmt) :
    setup.Follows (E.walkStep fold s stack) (E'.walkStep fold s.unchained stack) := by
  cases s with
  | block b => exact hE.walkBlock fold b
  | expression e => exact (hE.value e .value).bind fun _ => .pure _
  | declareVar span bindings =>
    unfold Evaluator.walkStep
    rw [Stmt.unchained, Stmt.pruned, Script.prunedBindings_eq]
    exact (hE.declareAll .variable bindings).seq (.pure _)
  | declareLexical span bindings =>
    unfold Evaluator.walkStep
    rw [Stmt.unchained, Stmt.pruned, Script.prunedBindings_eq]
    exact (hE.declareAll .lexical bindings).seq (.pure _)
  | declareFunction fn => exact .pure _
  | declareClass cls =>
    unfold Evaluator.walkStep
    dsimp only
    rw [Stmt.span_pruned, Stmt.unchained, Stmt.pruned]
    dsimp only
    rw [Script.Class.name_pruned]
    cases cls.name with
    | none => exact (warn _).seq (.pure _)
    | some id => exact (top stack).bind fun _ => (define ..).seq ((warn _).seq (.pure _))
  | returnWith span argument =>
    unfold Evaluator.walkStep
    rw [Stmt.unchained, Stmt.pruned, Script.prunedExpr?_eq]
    exact (hE.resolve? argument).bind deref
  | throwWith span argument =>
    exact (hE.value argument .value).bind fun _ =>
      Setup.Follows.seq (.changes fun _ => by rfl) (.pure _)
  | ifElse span test yes no =>
    unfold Evaluator.walkStep
    rw [Stmt.unchained, Stmt.pruned, Script.prunedStmt?_eq]
    refine (hE.visit test .value).seq ((hE.walk fold yes stack).bind fun _ => ?_)
    cases no with
    | none => exact .pure _
    | some no => exact (hE.walk fold no stack).bind fun _ => .pure _
  | forLoop span init test update body =>
    unfold Evaluator.walkStep
    rw [Stmt.unchained, Stmt.pruned, Script.prunedForInit?_eq, Script.prunedExpr?_eq,
      Script.prunedExpr?_eq]
    refine (Setup.Follows.pushFrame stack).bind fun inner => (hE.forInit init).seq ?_
    refine (hE.visit? test).seq ((hE.walk fold body inner).bind fun _ => ?_)
    exact (hE.visit? update).seq (.pure _)
  | forEach span kind target source body =>
    unfold Evaluator.walkStep
    rw [Stmt.kind_pruned, Stmt.unchained, Stmt.pruned]
    refine (Setup.Follows.pushFrame stack).bind fun inner => ?_
    refine (hE.value source .value).bind fun r => ?_
    have hend : ∀ (value : Operand) (site : Site), setup.Follows
        (do
          E.forTarget target value site inner
          E.walk fold body inner)
        (do
          E'.forTarget target.unchained value site inner
          E'.walk fold body.unchained inner) :=
      fun value site => (hE.forTarget target value site).seq (hE.walk fold body inner)
    cases kind with
    | forOf => exact (getKey r .any).bind fun _ => hend _ _
    | forIn => exact hend _ _
  | whileLoop span test body => exact (hE.visit test .value).seq (hE.walk fold body stack)
  | doWhile span body test =>
    exact (hE.walk fold body stack).bind fun _ => (hE.visit test .value).seq (.pure _)
  | switchOn span subject cases =>
    unfold Evaluator.walkStep
    rw [Stmt.unchained, Stmt.pruned, Script.prunedCases_eq]
    refine (hE.visit subject .value).seq (.template span.start fun t => ?_)
    exact (Setup.Follows.instantiate t stack).bind fun _ => hE.walkCases fold cases
  | tryCatch span body handler finalizer =>
    unfold Evaluator.walkStep
    rw [Stmt.unchained, Stmt.pruned, Script.prunedCatch?_eq, Script.prunedBlock?_eq]
    refine (hE.walkBlock fold body).bind fun _ => (hE.walkCatch fold handler).bind fun _ => ?_
    cases finalizer with
    | none => exact .pure _
    | some b => exact (hE.walkBlock fold b).bind fun _ => .pure _
  | labelled span label body => exact hE.walk fold body stack
  | withObject span object body =>
    exact (hE.visit object .value).seq ((warn _).seq (hE.walk fold body stack))
  | jump _ | empty _ | debugger _ => exact .pure _

end Follows

/-! ## Levels -/

/-- Once levels are enough for an expression, more of them make no difference. -/
theorem outlasts_ofFuel (setup : Setup) {n m : Nat} (hle : n ≤ m) (e : Expr) (stack : Stack) :
    setup.Outlasts ((ofFuel n).resolve e stack) ((ofFuel m).resolve e stack) := by
  intro s
  have hagrees : (Discipline.lasting setup).Agree s.position ((ofFuel n).resolve e stack)
      ((ofFuel m).resolve e stack) fun _ => True :=
    (agrees_lasting setup hle).resolve trivial trivial
  have hagree := hagrees.alone s trivial rfl
  cases hr : (ofFuel n).resolve e stack setup s with
  | ok o t =>
    rw [hr] at hagree
    exact .inr hagree.1
  | error f t =>
    rw [hr] at hagree
    rcases hagree with rfl | hagree
    · exact .inl ⟨t, rfl⟩
    · exact .inr hagree.1

/-- With any number of levels, the evaluation without marks does what the evaluation does, unless
that one runs out of levels. -/
theorem follows_ofFuel (setup : Setup) (n : Nat) : Follows setup (ofFuel n) (ofFuel n) := by
  induction n with
  | zero =>
    exact ⟨fun _ _ _ => .outOfFuel, fun _ _ _ _ => .outOfFuel, fun _ _ _ => .outOfFuel,
      fun _ _ => .outOfFuel⟩
  | succ n ih =>
    exact ⟨fun e place _ => ih.resolveStep (outlasts_ofFuel _ n.le_succ) e place,
      fun how p o _ => ih.bindStep how p o, fun fold s _ => ih.walkStep fold s, ih.invokeStep⟩

end Evaluator

end FrozenGlobals
