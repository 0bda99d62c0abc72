import FrozenGlobals.Proofs.Coupling.Evaluation

/-!
# Coupled statements

Statements correspond if the evaluators one level below do. `Evaluator.Couples.step` is the step
from one level to the next, and `Evaluator.Couples.ofFuel` what follows for the evaluators of two
analyses.
-/

namespace FrozenGlobals

open Run
open Script (Span Node Expr Pattern Stmt Hoisting)

namespace Evaluator.Couples

open Coupling

variable {A B : Setup} {C : Coupling A B} {E E' : Evaluator} {u : Nat} {w : C.Stage}
  {st st' : Stack}

section
variable (hC : C.Laws) (hE : E.Couples C E')
include hC hE

/-! ## Statements -/

/-- Declarators correspond. -/
theorem declare {how : Install} {b : Script.Binding} (h : C.runs u w (.binding b) st st')
    (hnames : how = .lexical ∨ ∀ name ∈ b.target.names, C.installs w how name st) :
    C.Couples u w (E.declare how st b) (E'.declare how st' (b.emptied (C.empties u)))
      fun _ _ _ => True := by
  unfold Evaluator.declare
  rw [Script.Binding.target_pruned, Script.Binding.init_pruned]
  have htarget : C.Binds u w how b.target st st' := by
    refine ⟨hC.part h ?_, hnames⟩
    cases b
    simp [Node.parts, Node.children, Script.Binding.target]
  refine (hE.resolve? hC fun e he => hC.part h ?_).bind fun w₁ o o' hle ho =>
    hE.bind (htarget.mono hC hle) ho
  cases b
  simp_all [Node.parts, Node.children, Script.Binding.init]

/-- Declarations correspond, declarator by declarator. -/
theorem declareAll {how : Install} {bindings : List Script.Binding}
    (h : ∀ b ∈ bindings, C.runs u w (.binding b) st st')
    (hnames : how = .lexical ∨ ∀ b ∈ bindings, ∀ name ∈ b.target.names,
      C.installs w how name st) :
    C.Couples u w (bindings.forM (E.declare how st))
      ((bindings.map (Script.Binding.emptied (C.empties u))).forM (E'.declare how st'))
      fun _ _ _ => True := by
  refine .forM (forall₂_map_self _ bindings) fun w₁ b _ hle hmem heq => ?_
  subst heq
  refine hE.declare hC (hC.runs_le hle (h b hmem)) (hnames.imp_right fun h name hn => ?_)
  exact hC.installs_le hle (h b hmem name hn)

/-- The heads of `for` loops correspond. -/
theorem forInit {init : Option Script.ForInit} (h : ∀ i ∈ init, C.runs u w (.forInit i) st st') :
    C.Couples u w (E.forInit init st)
      (E'.forInit (init.map (Script.ForInit.emptied (C.empties u))) st') fun _ _ _ => True := by
  unfold Evaluator.forInit
  cases init with
  | none => exact .pure fun _ _ => trivial
  | some init =>
    have hinit := h init rfl
    cases init with
    | expression e => exact hE.visit (hC.part hinit (by simp [Node.parts, Node.children]))
    | declareVar bindings =>
      rw [Option.map_some, Script.ForInit.emptied, Script.ForInit.pruned, Script.prunedBindings_eq]
      refine hE.declareAll hC (fun b hb => hC.part hinit ?_) (.inr (hC.declaredFirst hinit))
      simp [Node.parts, Node.children, hb]
    | declareLexical span bindings =>
      rw [Option.map_some, Script.ForInit.emptied, Script.ForInit.pruned, Script.prunedBindings_eq]
      refine hE.declareAll hC (fun b hb => hC.part hinit ?_) (.inl rfl)
      simp [Node.parts, Node.children, hb]

/-- The targets of loops over collections correspond. -/
theorem forTarget {target : Script.ForTarget} (h : C.runs u w (.forTarget target) st st')
    {o o' : Operand} (ho : C.Operands w o o') (site : Site) :
    C.Couples u w (E.forTarget target o site st)
      (E'.forTarget (target.emptied (C.empties u)) o' site st') fun _ _ _ => True := by
  unfold Evaluator.forTarget
  cases target with
  | declareVar b =>
    have hb : C.runs u w (.binding b) st st' := hC.part h (by simp [Node.parts, Node.children])
    rw [Script.ForTarget.emptied, Script.ForTarget.pruned]
    dsimp only
    rw [Script.Binding.target_pruned]
    refine hE.bind ⟨hC.part hb ?_, .inr (hC.declaredEach h)⟩ ho
    cases b
    simp [Node.parts, Node.children, Script.Binding.target]
  | declareLexical start target =>
    exact hE.bind ⟨hC.part h (by simp [Node.parts, Node.children]), .inl rfl⟩ ho
  | assign target =>
    have htarget : C.Binds u w (.assign site) target st st' :=
      ⟨hC.part h (by simp [Node.parts, Node.children]), .inr (hC.assignedEach site h)⟩
    have hother : C.Couples u w (unsupported .assignTarget target.kind target.span)
        (unsupported .assignTarget (target.emptied (C.empties u)).kind
          (target.emptied (C.empties u)).span)
        fun _ _ _ => True := by
      rw [Pattern.kind_pruned, Pattern.span_pruned]
      exact (hC.unsupported ..).imp fun _ _ _ _ _ => trivial
    cases target with
    | leaf e => exact assignTo hC hE htarget ho
    | array _ _ _ | object _ _ _ => exact hother

/-- The clauses of a `switch` correspond, in order. -/
theorem walkCases (fold : Bool) {cases : List Script.Case}
    (h : ∀ c ∈ cases, C.runs u w (.clause c) st st') :
    C.Couples u w (E.walkCases fold cases st)
      (E'.walkCases fold (cases.map (Script.Case.emptied (C.empties u))) st') C.ref := by
  refine .foldlM (forall₂_map_self _ cases) hC.ref_le (fun w₁ clause _ r r' hle hmem heq hr => ?_)
    hC.ref_empty
  subst heq
  have hclause := hC.runs_le hle (h _ hmem)
  obtain ⟨start, test, body⟩ := clause
  rw [Script.Case.emptied, Script.Case.pruned, Script.prunedExpr?_eq, Script.prunedStmts_eq]
  refine (hE.visit? fun e he => hC.part hclause ?_).bind fun w₂ _ _ hle₂ _ => ?_
  · simp only [Node.parts, Node.children, List.mem_append, List.mem_map, Option.mem_toList]
    exact .inl ⟨e, he, rfl⟩
  · refine (hE.walkAll hC fold fun s hs => hC.runs_le hle₂ (hC.part hclause ?_)).bind
      fun w₃ q q' hle₃ hq => .pure fun w₄ hle₄ => ?_
    · simp [Node.parts, Node.children, hs]
    · exact hC.ref_union (hC.ref_le (C.trans hle₂ (C.trans hle₃ hle₄)) hr) (hC.ref_le hle₄ hq)

omit hE in
/-- An empty frame is pushed before something else is done. -/
theorem pushFrame {α β : Type} {x : Stack → Run α} {y : Stack → Run β} {Q : C.Stage → α → β → Prop}
    (h : ∀ w₁ f f', C.le w w₁ → C.frame w₁ f f' →
      C.Couples u w₁ (x (f :: st)) (y (f' :: st')) Q) :
    C.Couples u w (Run.pushFrame st >>= x) (Run.pushFrame st' >>= y) Q := by
  unfold Run.pushFrame
  rw [bind_assoc, bind_assoc]
  exact hC.newFrame.bind fun w₁ f f' hle hf => h w₁ f f' hle hf

/-- `catch` clauses correspond. -/
theorem walkCatch (fold : Bool) {handler : Option Script.Catch}
    (h : ∀ c ∈ handler, C.runs u w (.handler c) st st') :
    C.Couples u w (E.walkCatch fold handler st)
      (E'.walkCatch fold (handler.map (Script.Catch.emptied (C.empties u))) st') C.ref := by
  unfold Evaluator.walkCatch
  cases handler with
  | none => exact .pure fun _ _ => hC.ref_empty
  | some handler =>
    have hhandler := h _ rfl
    obtain ⟨start, parameter, body⟩ := handler
    rw [Option.map_some, Script.Catch.emptied, Script.Catch.pruned, Script.prunedPattern?_eq]
    refine pushFrame hC fun w₁ f f' hle hf => ?_
    have hhandler := hC.push (hC.runs_le hle hhandler) hf
    have hbody : C.runs u w₁ (.block body) (f :: st) (f' :: st') :=
      hC.part hhandler (by simp [Node.parts, Node.children])
    cases parameter with
    | none => exact hE.walkBlock hC fold (hC.opens_of_runs hbody)
    | some p =>
      have hp : C.Binds u w₁ .lexical p (f :: st) (f' :: st') :=
        ⟨hC.part hhandler (by simp [Node.parts, Node.children]), .inl rfl⟩
      exact (hE.bind hp .thrown).bind fun w₂ _ _ hle₂ _ =>
        hE.walkBlock hC fold (hC.opens_of_runs (hC.runs_le hle₂ hbody))

omit hE in
/-- What a part of a statement may return is added to what others may. -/
theorem withRest {r r' : Reference} (hr : C.ref w r r') {x y : Run Reference}
    (h : C.Couples u w x y C.ref) :
    C.Couples u w (do return r.union (← x)) (do return r'.union (← y)) C.ref :=
  h.bind fun _ _ _ hle hq => .pure fun _ hle₂ =>
    hC.ref_union (hC.ref_le (C.trans hle hle₂) hr) (hC.ref_le hle₂ hq)

omit hE in
/-- Something is done after it is known what a statement may return. -/
theorem before {r r' : Reference} (hr : C.ref w r r') {x y : Run Unit}
    (h : C.Couples u w x y fun _ _ _ => True) :
    C.Couples u w (do x; return r) (do y; return r') C.ref :=
  h.bind fun _ _ _ hle _ => .pure fun _ hle₂ => hC.ref_le (C.trans hle hle₂) hr

/-! ## Forms of statements -/

omit hE in
/-- What stands in a statement may be run whenever the statement may be. -/
theorem stmtPart {s : Stmt} {w₁ : C.Stage} {n : Node} (h : C.runs u w (.stmt s) st st')
    (hle : C.le w w₁) (hmem : n ∈ (Node.stmt s).parts) : C.runs u w₁ n st st' :=
  hC.runs_le hle (hC.part h hmem)

omit hE in
/-- Statements that return nothing. -/
theorem nothing : C.Couples u w (pure .empty : Run Reference) (pure .empty) C.ref :=
  .pure fun _ _ => hC.ref_empty

/-- An expression is what the statement returns if the program is folded into its value. -/
theorem walkExpression (fold : Bool) {e : Expr} (h : C.runs u w (.stmt (.expression e)) st st') :
    C.Couples u w (E.walkStep fold (.expression e) st)
      (E'.walkStep fold ((Stmt.expression e).emptied (C.empties u)) st') C.ref := by
  refine (hE.value hC (stmtPart hC h (C.refl w) ?_)).bind fun w₁ r r' _ hr =>
    .pure fun w₂ hle₂ => ?_
  · simp [Node.parts, Node.children, Stmt.children]
  · cases fold with
    | true => exact hC.ref_le hle₂ hr
    | false => exact hC.ref_empty

/-- The names of a `var` declaration may be installed, since the statement declares them. -/
theorem walkDeclareVar (fold : Bool) {span : Span} {bindings : List Script.Binding}
    (h : C.runs u w (.stmt (.declareVar span bindings)) st st') :
    C.Couples u w (E.walkStep fold (.declareVar span bindings) st)
      (E'.walkStep fold ((Stmt.declareVar span bindings).emptied (C.empties u)) st') C.ref := by
  unfold Evaluator.walkStep
  rw [Stmt.emptied, Stmt.pruned, Script.prunedBindings_eq]
  refine (hE.declareAll hC (fun b hb => stmtPart hC h (C.refl w) ?_)
    (.inr (hC.declared h))).seq (nothing hC)
  simp [Node.parts, Node.children, Stmt.children, hb]

/-- The names of a `let` or `const` declaration are bound in the innermost frame. -/
theorem walkDeclareLexical (fold : Bool) {span : Span} {bindings : List Script.Binding}
    (h : C.runs u w (.stmt (.declareLexical span bindings)) st st') :
    C.Couples u w (E.walkStep fold (.declareLexical span bindings) st)
      (E'.walkStep fold ((Stmt.declareLexical span bindings).emptied (C.empties u)) st')
      C.ref := by
  unfold Evaluator.walkStep
  rw [Stmt.emptied, Stmt.pruned, Script.prunedBindings_eq]
  refine (hE.declareAll hC (fun b hb => stmtPart hC h (C.refl w) ?_) (.inl rfl)).seq (nothing hC)
  simp [Node.parts, Node.children, Stmt.children, hb]

omit hE in
/-- A class declaration binds its name to nothing, and warns at the range that it has either way. -/
theorem walkDeclareClass (fold : Bool) {cls : Script.Class}
    (h : C.runs u w (.stmt (.declareClass cls)) st st') :
    C.Couples u w (E.walkStep fold (.declareClass cls) st)
      (E'.walkStep fold ((Stmt.declareClass cls).emptied (C.empties u)) st') C.ref := by
  unfold Evaluator.walkStep
  dsimp only
  rw [Stmt.span_pruned]
  have hwarn : ∀ {w₁}, C.Couples u w₁
      (do
        warn ("class body at " ++ (Stmt.declareClass cls).span.render ++ " is not analyzed")
        return Reference.empty)
      (do
        warn ("class body at " ++ (Stmt.declareClass cls).span.render ++ " is not analyzed")
        return Reference.empty) C.ref := (hC.warn _).seq (nothing hC)
  rw [Stmt.emptied, Stmt.pruned]
  dsimp only
  rw [Script.Class.name_pruned]
  cases cls.name with
  | none => exact hwarn
  | some id =>
    refine (hC.top h).bind fun w₁ f f' _ hf => ?_
    exact (hC.define id.name hf (.known hC.ref_empty)).seq hwarn

/-- What is returned. -/
theorem walkReturn (fold : Bool) {span : Span} {argument : Option Expr}
    (h : C.runs u w (.stmt (.returnWith span argument)) st st') :
    C.Couples u w (E.walkStep fold (.returnWith span argument) st)
      (E'.walkStep fold ((Stmt.returnWith span argument).emptied (C.empties u)) st') C.ref := by
  unfold Evaluator.walkStep
  rw [Stmt.emptied, Stmt.pruned, Script.prunedExpr?_eq]
  refine (hE.resolve? hC fun e he => stmtPart hC h (C.refl w) ?_).bind
    fun _ _ _ _ ho => deref hC ho
  simpa [Node.parts, Node.children, Stmt.children] using he

/-- Both branches of a conditional statement are run. -/
theorem walkIfElse (fold : Bool) {span : Span} {test : Expr} {yes : Stmt} {no : Option Stmt}
    (h : C.runs u w (.stmt (.ifElse span test yes no)) st st') :
    C.Couples u w (E.walkStep fold (.ifElse span test yes no) st)
      (E'.walkStep fold ((Stmt.ifElse span test yes no).emptied (C.empties u)) st') C.ref := by
  unfold Evaluator.walkStep
  rw [Stmt.emptied, Stmt.pruned, Script.prunedStmt?_eq]
  refine (hE.visit (stmtPart hC h (C.refl w) ?_)).bind fun w₁ _ _ hle _ =>
    (hE.walk (stmtPart hC h hle ?_)).bind fun w₂ r r' hle₂ hr => ?_
  · simp [Node.parts, Node.children, Stmt.children]
  · simp [Node.parts, Node.children, Stmt.children]
  cases no with
  | none => exact .pure fun _ hle₃ => hC.ref_le hle₃ hr
  | some no =>
    refine withRest hC hr (hE.walk (stmtPart hC h (C.trans hle hle₂) ?_))
    simp [Node.parts, Node.children, Stmt.children]

/-- A `for` loop is run in a frame of its own. -/
theorem walkForLoop (fold : Bool) {span : Span} {init : Option Script.ForInit}
    {test update : Option Expr} {body : Stmt}
    (h : C.runs u w (.stmt (.forLoop span init test update body)) st st') :
    C.Couples u w (E.walkStep fold (.forLoop span init test update body) st)
      (E'.walkStep fold ((Stmt.forLoop span init test update body).emptied (C.empties u)) st')
      C.ref := by
  unfold Evaluator.walkStep
  rw [Stmt.emptied, Stmt.pruned, Script.prunedForInit?_eq, Script.prunedExpr?_eq,
    Script.prunedExpr?_eq]
  refine pushFrame hC fun w₁ f f' hle hf => ?_
  -- what stands in the head and the body sees the frame of the loop
  have part : ∀ {w₂ n}, C.le w₁ w₂ →
      n ∈ (Node.stmt (.forLoop span init test update body)).parts →
      C.runs u w₂ n (f :: st) (f' :: st') := fun hle₂ hmem =>
    hC.runs_le hle₂ (hC.push (stmtPart hC h hle hmem) hf)
  refine (hE.forInit hC fun i hi => part (C.refl w₁) ?_).bind fun w₂ _ _ hle₂ _ => ?_
  · simp_all [Node.parts, Node.children, Stmt.children]
  refine (hE.visit? fun e he => part hle₂ ?_).bind fun w₃ _ _ hle₃ _ => ?_
  · simp_all [Node.parts, Node.children, Stmt.children]
  have hle₃ := C.trans hle₂ hle₃
  refine (hE.walk (part hle₃ ?_)).bind fun w₄ r r' hle₄ hr => ?_
  · simp [Node.parts, Node.children, Stmt.children]
  refine before hC hr (hE.visit? fun e he => part (C.trans hle₃ hle₄) ?_)
  simp_all [Node.parts, Node.children, Stmt.children]

/-- A loop over a collection binds its variable, in a frame of its own, to what it goes through. -/
theorem walkForEach (fold : Bool) {span : Span} {kind : Script.LoopKind} {target : Script.ForTarget}
    {source : Expr} {body : Stmt}
    (h : C.runs u w (.stmt (.forEach span kind target source body)) st st') :
    C.Couples u w (E.walkStep fold (.forEach span kind target source body) st)
      (E'.walkStep fold ((Stmt.forEach span kind target source body).emptied (C.empties u)) st')
      C.ref := by
  unfold Evaluator.walkStep
  rw [Stmt.kind_pruned, Stmt.emptied, Stmt.pruned]
  refine pushFrame hC fun w₁ f f' hle hf => ?_
  have part : ∀ {w₂ n}, C.le w₁ w₂ →
      n ∈ (Node.stmt (.forEach span kind target source body)).parts →
      C.runs u w₂ n (f :: st) (f' :: st') := fun hle₂ hmem =>
    hC.runs_le hle₂ (hC.push (stmtPart hC h hle hmem) hf)
  -- loops of both kinds bind the target and run the body
  have hend : ∀ {w₂ r r'}, C.le w₁ w₂ → C.ref w₂ r r' → C.Couples u w₂
      (do
        E.forTarget target (.known r) ⟨(Stmt.forEach span kind target source body).kind, span⟩
          (f :: st)
        E.walk fold body (f :: st))
      (do
        E'.forTarget (target.emptied (C.empties u)) (.known r')
          ⟨(Stmt.forEach span kind target source body).kind, span⟩ (f' :: st')
        E'.walk fold (body.emptied (C.empties u)) (f' :: st')) C.ref := by
    intro w₂ r r' hle₂ hr
    refine (hE.forTarget hC (part hle₂ ?_) (.known hr) _).bind fun w₃ _ _ hle₃ _ =>
      hE.walk (part (C.trans hle₂ hle₃) ?_)
    · simp [Node.parts, Node.children, Stmt.children]
    · simp [Node.parts, Node.children, Stmt.children]
  refine (hE.value hC (part (C.refl w₁) ?_)).bind fun w₂ r r' hle₂ hr => ?_
  · simp [Node.parts, Node.children, Stmt.children]
  cases kind with
  | forOf => exact (hC.getKey .any hr).bind fun _ _ _ hle₃ hq => hend (C.trans hle₂ hle₃) hq
  | forIn => exact hend hle₂ (hC.ref_primitive .any)

/-- A `switch` opens a scope after its subject was evaluated. -/
theorem walkSwitch (fold : Bool) {span : Span} {subject : Expr} {cases : List Script.Case}
    (h : C.runs u w (.stmt (.switchOn span subject cases)) st st') :
    C.Couples u w (E.walkStep fold (.switchOn span subject cases) st)
      (E'.walkStep fold ((Stmt.switchOn span subject cases).emptied (C.empties u)) st')
      C.ref := by
  unfold Evaluator.walkStep
  rw [Stmt.emptied, Stmt.pruned, Script.prunedCases_eq]
  refine (hE.visit (stmtPart hC h (C.refl w) ?_)).bind fun w₁ _ _ hle _ => ?_
  · simp [Node.parts, Node.children, Stmt.children]
  have hopens := hC.opens_le hle (hC.opens_of_runs h)
  refine (hC.enter hopens rfl).bind fun w₂ t t' hle₂ ht => ?_
  refine (hC.instantiate (hC.opens_le hle₂ hopens) ht).bind fun w₃ inner inner' _ hinner => ?_
  refine hE.walkCases hC fold fun c hc => hinner _ ?_
  simp [Node.parts, Node.children, Stmt.children, hc]

/-- The block, the handler and the finalizer of a `try` statement are all run. -/
theorem walkTry (fold : Bool) {span : Span} {body : Script.Block} {handler : Option Script.Catch}
    {finalizer : Option Script.Block}
    (h : C.runs u w (.stmt (.tryCatch span body handler finalizer)) st st') :
    C.Couples u w (E.walkStep fold (.tryCatch span body handler finalizer) st)
      (E'.walkStep fold ((Stmt.tryCatch span body handler finalizer).emptied (C.empties u)) st')
      C.ref := by
  unfold Evaluator.walkStep
  rw [Stmt.emptied, Stmt.pruned, Script.prunedCatch?_eq, Script.prunedBlock?_eq]
  refine (hE.walkBlock hC fold (hC.opens_of_runs (stmtPart hC h (C.refl w) ?_))).bind
    fun w₁ r r' hle hr => ?_
  · simp [Node.parts, Node.children, Stmt.children]
  refine (hE.walkCatch hC fold fun c hc => stmtPart hC h hle ?_).bind fun w₂ q q' hle₂ hq => ?_
  · simp_all [Node.parts, Node.children, Stmt.children]
  have hrq := hC.ref_union (hC.ref_le hle₂ hr) hq
  cases finalizer with
  | none => exact .pure fun _ hle₃ => hC.ref_le hle₃ hrq
  | some b =>
    refine withRest hC hrq
      (hE.walkBlock hC fold (hC.opens_of_runs (stmtPart hC h (C.trans hle hle₂) ?_)))
    simp [Node.parts, Node.children, Stmt.children]

/-- Statements correspond, form by form. -/
theorem walkStep (fold : Bool) {s : Stmt} (h : C.runs u w (.stmt s) st st') :
    C.Couples u w (E.walkStep fold s st)
      (E'.walkStep fold (s.emptied (C.empties u)) st') C.ref := by
  have part : ∀ {w₁ n}, C.le w w₁ → n ∈ (Node.stmt s).parts → C.runs u w₁ n st st' :=
    stmtPart hC h
  cases s with
  | block b =>
    refine hE.walkScope hC fold rfl (fun s hs => ?_) (hC.opens_of_runs h)
    obtain ⟨span, body⟩ := b
    exact List.mem_map_of_mem hs
  | expression e => exact hE.walkExpression hC fold h
  | declareVar span bindings => exact hE.walkDeclareVar hC fold h
  | declareLexical span bindings => exact hE.walkDeclareLexical hC fold h
  | declareClass cls => exact walkDeclareClass hC fold h
  | returnWith span argument => exact hE.walkReturn hC fold h
  | throwWith span argument =>
    refine (hE.value hC (part (C.refl w) ?_)).bind fun w₁ r r' _ hr =>
      (hC.throws hr).seq (nothing hC)
    simp [Node.parts, Node.children, Stmt.children]
  | ifElse span test yes no => exact hE.walkIfElse hC fold h
  | forLoop span init test update body => exact hE.walkForLoop hC fold h
  | forEach span kind target source body => exact hE.walkForEach hC fold h
  | whileLoop span test body =>
    refine (hE.visit (part (C.refl w) ?_)).bind fun w₁ _ _ hle _ => hE.walk (part hle ?_)
    · simp [Node.parts, Node.children, Stmt.children]
    · simp [Node.parts, Node.children, Stmt.children]
  | doWhile span body test =>
    refine (hE.walk (part (C.refl w) ?_)).bind fun w₁ r r' hle hr =>
      before hC hr (hE.visit (part hle ?_))
    · simp [Node.parts, Node.children, Stmt.children]
    · simp [Node.parts, Node.children, Stmt.children]
  | switchOn span subject cases => exact hE.walkSwitch hC fold h
  | tryCatch span body handler finalizer => exact hE.walkTry hC fold h
  | labelled span label body =>
    refine hE.walk (part (C.refl w) ?_)
    simp [Node.parts, Node.children, Stmt.children]
  | withObject span object body =>
    refine (hE.visit (part (C.refl w) ?_)).bind fun w₁ _ _ hle _ =>
      (hC.warn _).bind fun w₂ _ _ hle₂ _ => hE.walk (part (C.trans hle hle₂) ?_)
    · simp [Node.parts, Node.children, Stmt.children]
    · simp [Node.parts, Node.children, Stmt.children]
  | declareFunction _ | jump _ | empty _ | debugger _ => exact nothing hC

/-! ## Steps -/

/-- The activities one level above correspond. -/
theorem step (hl : C.left ⟨E.resolveStep, E.bindStep, E.walkStep, E.invokeStep⟩)
    (hr : C.right ⟨E'.resolveStep, E'.bindStep, E'.walkStep, E'.invokeStep⟩) :
    Couples C ⟨E.resolveStep, E.bindStep, E.walkStep, E.invokeStep⟩
      ⟨E'.resolveStep, E'.bindStep, E'.walkStep, E'.invokeStep⟩ where
  left := hl
  right := hr
  resolve h := hE.resolveStep hC h
  bind h ho := hE.bindStep hC h ho
  walk h := hE.walkStep hC _ h
  invoke hv hc := hE.invokeStep hC hv hc

end

/-- The evaluators of two analyses correspond. -/
theorem ofFuel (hC : C.Laws) (hl : ∀ n, C.left (.ofFuel n)) (hr : ∀ n, C.right (.ofFuel n))
    (n : Nat) : (Evaluator.ofFuel n).Couples C (.ofFuel n) := by
  induction n with
  | zero =>
    exact ⟨hl 0, hr 0, fun _ => .throw (hC.failures_refl _), fun _ _ => .throw (hC.failures_refl _),
      fun _ => .throw (hC.failures_refl _), fun _ _ => .throw (hC.failures_refl _)⟩
  | succ n ih => exact ih.step hC (hl (n + 1)) (hr (n + 1))

end Evaluator.Couples

end FrozenGlobals
