import FrozenGlobals.Proofs.Coupling.Calling
import FrozenGlobals.Proofs.Discipline.Evaluation

/-!
# Coupled evaluations

Scopes, functions, external code and expressions correspond if the evaluators one level below do.
-/

namespace FrozenGlobals

open Run
open Script (Span Node Expr Pattern Stmt Hoisting)

/-- Emptying classes leaves the marks of optional chaining. -/
theorem unwrapOptional_emptied (σ : Script.Class → Bool) (e : Expr) :
    unwrapOptional (e.emptied σ) = (unwrapOptional e).emptied σ := by
  fun_induction unwrapOptional e with
  | case1 inner ih => exact ih
  | case2 inner ih => exact ih
  | case3 e h₁ h₂ =>
    cases e with
    | optional inner => exact absurd rfl (h₁ inner)
    | optionalChain inner => exact absurd rfl (h₂ inner)
    | _ => rfl

namespace Coupling

variable {A B : Setup} {C : Coupling A B} {u : Nat} {w : C.Stage}

/-! ## Brackets -/

namespace Couples

variable {α β : Type} {x : Run α} {y : Run β} {Q : C.Stage → α → β → Prop}

/-- Naming the path that a failure comes from does not matter. -/
theorem within (hC : C.Laws) (path : String) (h : C.Couples u w x y Q) :
    C.Couples u w (Run.within path x) (Run.within path y) Q := by
  refine ⟨fun w₁ hle s t hst hu => ?_⟩
  have h := h.run w₁ hle s t hst hu
  unfold Run.within
  cases hx : x A s <;> cases hy : y B t <;> rw [hx, hy] at h
  case error.error => exact hC.failures_within path h
  all_goals exact h

/-- Computations that read the states correspond if they do so from states that correspond. -/
theorem get {f : State → Run α} {g : State → Run β}
    (h : ∀ w₁, C.le w w₁ → ∀ s t, C.states w₁ s t → C.Couples u w₁ (f s) (g t) Q) :
    C.Couples u w (MonadState.get >>= f) (MonadState.get >>= g) Q :=
  ⟨fun w₁ hle s t hst hu => (h w₁ hle s t hst).run w₁ (C.refl w₁) s t hst hu⟩

end Couples

end Coupling

namespace Evaluator.Couples

open Coupling

variable {A B : Setup} {C : Coupling A B} {E E' : Evaluator} {u : Nat} {w : C.Stage}
  {st st' : Stack}

section
variable (hC : C.Laws) (hE : E.Couples C E')
include hC hE

/-! ## Scopes -/

/-- Statements in sequence correspond. -/
theorem walkAll (fold : Bool) {body : List Stmt} (h : ∀ s ∈ body, C.runs u w (.stmt s) st st') :
    C.Couples u w (E.walkAll fold body st)
      (E'.walkAll fold (body.map (Stmt.emptied (C.empties u))) st') C.ref := by
  refine .foldlM (forall₂_map_self _ body) hC.ref_le (fun w₁ s _ r r' hle hmem heq hr => ?_)
    hC.ref_empty
  subst heq
  refine (hE.walk (hC.runs_le hle (h s hmem))).bind fun w₂ q q' hle₂ hq => ?_
  exact .pure fun w₃ hle₃ => hC.ref_union (hC.ref_le (C.trans hle₂ hle₃) hr) (hC.ref_le hle₃ hq)

/-- A block is run in the scope of a node. -/
theorem walkScope (fold : Bool) {n : Node} {b : Script.Block} (hn : n.entry? = some b.start)
    (hb : ∀ s ∈ b.body, .stmt s ∈ n.parts) (h : C.opens u w n st st') :
    C.Couples u w (E.walkBlock fold b st)
      (E'.walkBlock fold (b.emptied (C.empties u)) st') C.ref := by
  unfold Evaluator.walkBlock
  rw [Script.Block.start_pruned, Script.Block.body_pruned]
  refine hC.checkCanceled.seq ((hC.enter h hn).bind fun w₁ t t' hle ht => (hC.log ..).seq ?_)
  refine (hC.instantiate (hC.opens_le hle h) ht).bind fun w₂ inner inner' hle₂ hinner => ?_
  exact hE.walkAll hC fold fun s hs => hinner _ (hb s hs)

/-- Blocks correspond, in frames that correspond. -/
theorem walkBlock (fold : Bool) {b : Script.Block} (h : C.opens u w (.block b) st st') :
    C.Couples u w (E.walkBlock fold b st)
      (E'.walkBlock fold (b.emptied (C.empties u)) st') C.ref := by
  refine hE.walkScope hC fold rfl (fun s hs => ?_) h
  obtain ⟨span, body⟩ := b
  exact List.mem_map_of_mem hs

/-- A program is run on top of frames of globals. -/
theorem runProgram {v f f' : Nat}
    (h : ∀ p, A.programs[v]? = some p → C.opens v w (.program p.program.body) [f] [f']) :
    C.Couples u w (E.runProgram v [f]) (E'.runProgram v [f']) C.ref := by
  unfold Evaluator.runProgram
  refine .inUnit hC.states_unit hC.unit_eq ?_
  have hprograms := hC.programs v
  revert hprograms
  cases hp : A.programs[v]? with
  | none =>
    cases hp' : B.programs[v]? with
    | some _ => exact nofun
    | none =>
      have hnone : ∀ (setup : Setup) (s : State), setup.programs[v]? = none → s.unit = v →
          Run.template Hoisting.root setup s = .error (.internal .noProgram) s := by
        intro setup s hnone hu
        rw [Run.template_eq _ setup hu, hnone]
      refine fun _ => ⟨fun w₁ _ s t hst hu => ?_⟩
      rw [bind_of_error (hnone A s hp hu), bind_of_error (hnone B t hp' (hu ▸ hC.unit_eq hst))]
      exact hC.failures_refl _
  | some p =>
    cases hp' : B.programs[v]? with
    | none => exact nofun
    | some p' =>
      rintro ⟨hbody⟩
      have hopens := h p hp
      refine (hC.enter hopens rfl).bind fun w₁ t t' hle ht => ?_
      refine (hC.instantiate (hC.opens_le hle hopens) ht).bind fun w₂ inner inner' _ hinner => ?_
      refine .read ?_
      rw [hp, hp']
      dsimp only
      rw [hbody, List.length_map]
      exact hE.walkAll hC _ fun s hs => hinner _ (List.mem_map_of_mem hs)

/-! ## Functions -/

omit hE in
/-- Arguments that were passed, or undefined. -/
theorem passed {args args' : List Operand} (h : List.Forall₂ (C.Operands w) args args') :
    C.Operands w (args.head?.getD (.known .undefined)) (args'.head?.getD (.known .undefined)) := by
  cases h with
  | nil => exact .primitive hC .undefined
  | cons ho _ => exact ho

/-- A parameter is bound alike before something else is done. -/
theorem bindParam {α β : Type} {x : Run α} {y : Run β} {Q : C.Stage → α → β → Prop} {f f' : Nat}
    {b : Script.Binding} (h : C.runs u w (.ofPattern b.target) (f :: st) (f' :: st'))
    (hf : C.frame w f f')
    (hpattern : A.options.strict = false → (∀ id, b.target ≠ .leaf (.identifier id)) →
      ∀ w₁, ∀ name ∈ b.target.names, C.binds w₁ f name)
    {o o' : Operand} (ho : C.Operands w o o')
    (hx : ∀ w₁, C.le w w₁ → (∀ name ∈ b.target.names, C.binds w₁ f name) → C.Couples u w₁ x y Q) :
    C.Couples u w (E.bindParam f (f :: st) b o x)
      (E'.bindParam f' (f' :: st') (b.emptied (C.empties u)) o' y) Q := by
  unfold Evaluator.bindParam
  rw [Script.Binding.target_pruned]
  revert h hpattern hx
  generalize b.target = target
  intro h hpattern hx
  have hother : (∀ id, target ≠ .leaf (.identifier id)) → C.Couples u w
      (do
        unsupported .paramBinding target.kind target.span
        E.bind .lexical target o (f :: st)
        x)
      (do
        unsupported .paramBinding (target.emptied (C.empties u)).kind
          (target.emptied (C.empties u)).span
        E'.bind .lexical (target.emptied (C.empties u)) o' (f' :: st')
        y) Q := by
    intro hne
    rw [Pattern.kind_pruned, Pattern.span_pruned]
    refine (hC.unsupported ..).bind fun w₁ _ _ hle hstrict => ?_
    refine (hE.bind ⟨hC.runs_le hle h, .inl rfl⟩ (ho.mono hC hle)).bind fun w₂ _ _ hle₂ _ => ?_
    exact hx w₂ (C.trans hle hle₂) (hpattern hstrict hne w₂)
  cases target with
  | leaf e =>
    cases e with
    | identifier id =>
      refine (hC.define id.name hf ho).bind fun w₁ _ _ hle hb => hx w₁ hle fun name hn => ?_
      rw [Pattern.names, List.mem_singleton] at hn
      exact hn ▸ hb
    | _ => exact hother fun _ h => by cases h
  | array _ _ _ | object _ _ _ => exact hother fun _ h => by cases h

/-- Parameters are bound alike, and what is left of the arguments corresponds. -/
theorem bindItems {fn : Script.Function} {f f' : Nat} (hs : C.scope u w fn st st')
    (hf : C.frame w f f') {items : List Script.Binding} (hi : ∀ b ∈ items, b ∈ fn.params.items)
    {args args' : List Operand} (ha : List.Forall₂ (C.Operands w) args args') :
    C.Couples u w (E.bindItems f (f :: st) items args)
      (E'.bindItems f' (f' :: st') (items.map (Script.Binding.emptied (C.empties u))) args')
      fun w left left' => List.Forall₂ (C.Operands w) left left' ∧
        ∀ b ∈ items, ∀ name ∈ b.target.names, C.binds w f name := by
  induction items generalizing w args args' with
  | nil =>
    exact .pure fun _ hle => ⟨ha.imp fun _ _ => .mono hC hle, nofun⟩
  | cons b rest ih =>
    have hb := hi b (by simp)
    have hparams := hC.scope_params hs hf
    have hbinding : C.runs u w (.binding b) (f :: st) (f' :: st') := by
      refine hC.part hparams ?_
      revert hb
      cases fn.params
      exact fun hb => List.mem_append_left _ (List.mem_map_of_mem hb)
    have htarget : C.runs u w (.ofPattern b.target) (f :: st) (f' :: st') := by
      refine hC.part hbinding ?_
      cases b
      simp [Node.parts, Node.children, Script.Binding.target]
    have hrest : ∀ w₁, C.le w w₁ → (∀ name ∈ b.target.names, C.binds w₁ f name) →
        C.Couples u w₁ (E.bindItems f (f :: st) rest (args.drop 1))
          (E'.bindItems f' (f' :: st') (rest.map (Script.Binding.emptied (C.empties u)))
            (args'.drop 1))
          fun w left left' => List.Forall₂ (C.Operands w) left left' ∧
            ∀ c ∈ b :: rest, ∀ name ∈ c.target.names, C.binds w f name := by
      intro w₁ hle hbound
      refine (ih (hC.scope_le hle hs) (hC.frame_le hle hf)
        (fun c hc => hi c (List.mem_cons_of_mem _ hc))
        (List.forall₂_drop 1 (ha.imp fun _ _ => .mono hC hle))).imp fun w₂ _ _ hle₂ h => ⟨h.1, ?_⟩
      intro c hc
      rcases List.mem_cons.1 hc with rfl | hc
      · exact fun name hn => hC.binds_le hle₂ (hbound name hn)
      · exact h.2 c hc
    have hpattern : A.options.strict = false → (∀ id, b.target ≠ .leaf (.identifier id)) →
        ∀ w₁, ∀ name ∈ b.target.names, C.binds w₁ f name := fun hstrict hne w₁ =>
      hC.scope_pattern hs hstrict (.inl (List.mem_map_of_mem hb)) hne
    rw [List.map_cons]
    unfold Evaluator.bindItems
    rw [Script.Binding.init_pruned]
    cases hinit : b.init with
    | none => exact hE.bindParam hC htarget hf hpattern (passed hC ha) hrest
    | some init =>
      have hexpr : C.runs u w (.expr init) (f :: st) (f' :: st') := by
        refine hC.part hbinding ?_
        cases b
        simp_all [Node.parts, Node.children, Script.Binding.init]
      refine (hE.operand hexpr).bind fun w₁ fallback fallback' hle hfallback => ?_
      refine (deref hC ((passed hC ha).mono hC hle)).bind fun w₂ r r' hle₂ hr => ?_
      refine (deref hC (hfallback.mono hC hle₂)).bind fun w₃ q q' hle₃ hq => ?_
      have hle₃' := C.trans hle (C.trans hle₂ hle₃)
      exact hE.bindParam hC (hC.runs_le hle₃' htarget) (hC.frame_le hle₃' hf) hpattern
        (.known (hC.ref_union (hC.ref_le hle₃ hr) hq)) fun w₄ hle₄ => hrest w₄ (C.trans hle₃' hle₄)

omit hE in
/-- A name is bound to a new array of arguments before something else is done. -/
theorem defineArray {α β : Type} {x : Run α} {y : Run β} {Q : C.Stage → α → β → Prop} {f f' : Nat}
    (hf : C.frame w f f') (name : String) {args args' : List Operand}
    (ha : List.Forall₂ (C.Operands w) args args')
    (h : ∀ w₁, C.le w w₁ → C.binds w₁ f name → C.Couples u w₁ x y Q) :
    C.Couples u w
      (do
        Run.define f name (.known (← Evaluator.arrayOf (← Run.derefAll args)))
        x)
      (do
        Run.define f' name (.known (← Evaluator.arrayOf (← Run.derefAll args')))
        y) Q := by
  refine (derefAll hC ha).bind fun w₁ r r' hle hr => (arrayOf hC hr).bind fun w₂ o o' hle₂ ho => ?_
  have hle₂ := C.trans hle hle₂
  exact (hC.define name (hC.frame_le hle₂ hf) (.known ho)).bind fun w₃ _ _ hle₃ hb =>
    h w₃ (C.trans hle₂ hle₃) hb

/-- In frames of corresponding calls, parameters are bound alike, the rest parameter last. -/
theorem bindParamsIn {fn : Script.Function} {f f' : Nat} (hs : C.scope u w fn st st')
    (hf : C.frame w f f') {args args' : List Operand}
    (ha : List.Forall₂ (C.Operands w) args args') :
    C.Couples u w (E.bindParamsIn f (f :: st) fn.params args)
      (E'.bindParamsIn f' (f' :: st') (fn.params.emptied (C.empties u)) args')
      fun w st st' => C.opens u w (.ofBody fn.body) st st' := by
  unfold Evaluator.bindParamsIn
  rw [Script.Params.items_pruned, Script.Params.rest_pruned]
  refine (hE.bindItems hC hs hf (fun _ h => h) ha).bind fun w₁ left left' hle hleft => ?_
  have hf := hC.frame_le hle hf
  have hs := hC.scope_le hle hs
  have hbody : ∀ {w₂}, C.le w₁ w₂ →
      (∀ name ∈ Script.restNames fn.params.rest, C.binds w₂ f name) →
      C.opens u w₂ (.ofBody fn.body) (f :: st) (f' :: st') := by
    intro w₂ hle₂ hrest
    refine hC.scope_body (hC.scope_le hle₂ hs) (hC.frame_le hle₂ hf) fun name hn => ?_
    rcases List.mem_append.1 hn with hn | hn
    · simp only [Script.Binding.names, List.mem_flatten, List.mem_map] at hn
      obtain ⟨_, ⟨b, hb, rfl⟩, hn⟩ := hn
      exact hC.binds_le hle₂ (hleft.2 b hb name hn)
    · exact hrest name hn
  revert hbody
  cases hrest : fn.params.rest with
  | none => exact fun hbody => .pure fun w₂ hle₂ => hbody hle₂ (by simp [Script.restNames])
  | some p =>
    intro hbody
    have hother : (∀ id, p ≠ .leaf (.identifier id)) → C.Couples u w₁
        (do
          unsupported .paramBinding p.kind p.span
          return f :: st)
        (do
          unsupported .paramBinding (p.emptied (C.empties u)).kind (p.emptied (C.empties u)).span
          return f' :: st')
        fun w st st' => C.opens u w (.ofBody fn.body) st st' := by
      intro hne
      rw [Pattern.kind_pruned, Pattern.span_pruned]
      refine (hC.unsupported ..).bind fun w₂ _ _ hle₂ hstrict => .pure fun w₃ hle₃ => ?_
      exact hbody (C.trans hle₂ hle₃) (hC.scope_pattern hs hstrict (.inr hrest) hne)
    cases p with
    | leaf e =>
      cases e with
      | identifier id =>
        refine defineArray hC hf id.name hleft.1 fun w₂ hle₂ hb => .pure fun w₃ hle₃ =>
          hbody (C.trans hle₂ hle₃) fun name hn => ?_
        rw [Script.restNames, Pattern.names, List.mem_singleton] at hn
        exact hn ▸ hC.binds_le hle₃ hb
      | _ => exact hother fun _ h => by cases h
    | array _ _ _ | object _ _ _ => exact hother fun _ h => by cases h

/-- The frames of corresponding calls correspond and bind the parameters. -/
theorem bindParams {id id' : Nat} {fn fn' : Closure} {code code' : Code}
    (h : C.Callees w fn fn' code code') (hv : C.value w (.function id) (.function id'))
    {args args' : List Operand} (ha : List.Forall₂ (C.Operands w) args args') :
    C.Couples code.unit w (E.bindParams (.function id) fn code args)
      (E'.bindParams (.function id') fn' code' args')
      fun w st st' => C.opens code.unit w (.ofBody code.literal.body) st st' := by
  have hend : ∀ w₁ f f', C.le w w₁ → C.frame w₁ f f' → C.Couples code.unit w₁
      (E.bindParamsIn f (f :: fn.scope) code.literal.params args)
      (E'.bindParamsIn f' (f' :: fn'.scope)
        (code.literal.params.emptied (C.empties code.unit)) args')
      fun w st st' => C.opens code.unit w (.ofBody code.literal.body) st st' := by
    intro w₁ f f' hle hf
    exact hE.bindParamsIn hC (hC.scope_le hle h.scope) hf (ha.imp fun _ _ => .mono hC hle)
  unfold Evaluator.bindParams
  rw [h.literal, Script.Function.isArrow_pruned, Script.Function.params_pruned, h.name]
  refine hC.newFrame.bind fun w₁ f f' hle hf => ?_
  cases code.literal.isArrow with
  | true => exact hend w₁ f f' hle hf
  | false =>
    -- the arguments are bound after the own name, if there is one
    have hargs : ∀ {w₂}, C.le w₁ w₂ → C.Couples code.unit w₂
        (do
          Run.define f "arguments" (.known (← Evaluator.arrayOf (← Run.derefAll args)))
          E.bindParamsIn f (f :: fn.scope) code.literal.params args)
        (do
          Run.define f' "arguments" (.known (← Evaluator.arrayOf (← Run.derefAll args')))
          E'.bindParamsIn f' (f' :: fn'.scope)
            (code.literal.params.emptied (C.empties code.unit)) args')
        fun w st st' => C.opens code.unit w (.ofBody code.literal.body) st st' := by
      intro w₂ hle₂
      have hf := hC.frame_le hle₂ hf
      have hle₂ := C.trans hle hle₂
      exact defineArray hC hf _ (ha.imp fun _ _ => .mono hC hle₂) fun w₃ hle₃ _ =>
        hend w₃ f f' (C.trans hle₂ hle₃) (hC.frame_le hle₃ hf)
    cases fn.name.isEmpty with
    | true => exact hargs (C.refl w₁)
    | false =>
      exact (hC.define _ hf (.known (hC.ref_single (hC.value_le hle hv)))).bind
        fun w₂ _ _ hle₂ _ => hargs hle₂

/-- The bodies of functions correspond. -/
theorem runBody {code code' : Code} (hl : code'.literal = code.literal.emptied (C.empties u))
    (h : C.opens u w (.ofBody code.literal.body) st st') :
    C.Couples u w (E.runBody code st) (E'.runBody code' st') C.ref := by
  unfold Evaluator.runBody
  rw [hl, Script.Function.body_pruned]
  revert h
  cases code.literal.body with
  | block b => exact fun h => hE.walkBlock hC false h
  | expression value =>
    intro h
    refine hE.value hC (hC.runs_of_opens h rfl ?_)
    simp [Node.ofBody, Node.parts, Node.children]

/-- Calls of values that correspond correspond. -/
theorem invokeStep {v v' : Value} {c c' : CallSite} (hv : C.value w v v') (hc : C.Sites w c c') :
    C.Couples u w (E.invokeStep v c) (E'.invokeStep v' c') C.ref := by
  have hkind := hC.value_kind hv
  have hempty : C.Couples u w (pure .empty : Run Reference) (pure .empty) C.ref :=
    .pure fun _ _ => hC.ref_empty
  unfold Evaluator.invokeStep
  cases v with
  | intrinsic i =>
    rw [hC.value_native hv rfl]
    exact callIntrinsic hC hc i
  | builtin b =>
    rw [hC.value_native hv rfl]
    exact callBuiltin hC hc hE b
  | function id =>
    cases v' with
    | function id' =>
      refine hC.callFunction hE hv hc fun {w₁ fn fn' code code'} hle h => ?_
      refine (hE.bindParams hC h (hC.value_le hle hv) (hc.mono hC hle).args).bind
        fun w₂ st st' _ hopens => ?_
      exact hE.runBody hC h.literal hopens
    | _ => cases hkind
  | primitive _ | object _ | array _ => cases v' <;> first | exact hempty | exact nomatch hkind

/-! ## External code -/

section
variable (hx : C.External) {c c' : CallSite} (hc : C.Sites w c c')
include hx hc

/-- Implementations correspond if external code does. -/
theorem runImplementation (index : Nat) (impl : Implementation) :
    C.Couples u w (E.runImplementation c index impl) (E'.runImplementation c' index impl)
      C.ref := by
  unfold Evaluator.runImplementation
  cases impl.program with
  | none => exact .throw (hC.failures_refl _)
  | some v =>
    refine (hx.newGlobals impl.globals).bind fun w₁ f f' hle hf => ?_
    refine (hE.runProgram hC (hf v)).bind fun w₂ handlers handlers' hle₂ hh => ?_
    refine hC.invokeAll hE hh ⟨hc.site, .none, ?_⟩
    exact (hc.mono hC (C.trans hle hle₂)).args

/-- The callbacks found for a path correspond, run one after another. -/
theorem followCallbacks (resolver : Resolver) (path : Path) :
    C.Couples u w (E.followCallbacks resolver path c) (E'.followCallbacks resolver path c')
      C.ref := by
  unfold Evaluator.followCallbacks
  refine .within hC _ ((hx.request path).seq ?_)
  cases resolver path with
  | error text => exact .throw (hC.failures_refl _)
  | ok impls =>
    cases impls with
    | nil => exact .pure fun _ _ => hC.ref_empty
    | cons first rest =>
      dsimp only
      rw [hc.site]
      refine (hC.log ..).seq (hx.anchored _ (.foldlM (List.forall₂_same.2 fun _ _ => rfl) hC.ref_le
        (fun w₁ entry entry' r r' hle _ heq hr => ?_) hC.ref_empty))
      obtain rfl : entry = entry' := heq
      refine (hE.runImplementation hC hx (hc.mono hC hle) entry.2 entry.1).bind
        fun w₂ q q' hle₂ hq => .pure fun w₃ hle₃ => ?_
      exact hC.ref_union (hC.ref_le (C.trans hle₂ hle₃) hr) (hC.ref_le hle₃ hq)

end

/-! ## Call expressions -/

omit hC hE in
/-- A spread argument, and everything behind it. -/
theorem arguments_spread (E : Evaluator) (callee : Operand) (st : Stack) (inner : Expr)
    (rest : List Expr) (tail : Option Reference) :
    E.arguments callee st (.spread inner :: rest) tail = (do
      let source ← E.resolve inner st
      Evaluator.refuseSpread callee inner
      let items ← Evaluator.elements (← Run.deref source)
      E.arguments callee st rest (some ((tail.getD .empty).union items))) := by
  rw [Evaluator.arguments]
  simp only [Evaluator.refuseSpread, bind_assoc]
  refine bind_congr fun source => bind_congr fun r => ?_
  cases r.onlyNative <;> rfl

/-- Arguments correspond position by position, those after a spread folded into one. -/
theorem arguments {args : List Expr} (h : ∀ e ∈ args, C.runs u w (.expr e) st st')
    {callee callee' : Operand} (hcallee : C.Operands w callee callee')
    {tail tail' : Option Reference}
    (ht : Option.Rel (C.ref w) tail tail') :
    C.Couples u w (E.arguments callee st args tail)
      (E'.arguments callee' st' (args.map (Expr.emptied (C.empties u))) tail')
      fun w => List.Forall₂ (C.Operands w) := by
  induction args generalizing w tail tail' with
  | nil =>
    cases ht with
    | none => exact .pure fun _ _ => .nil
    | some ht =>
      exact .pure fun w₁ hle => by
        have ht := Operands.known (hC.ref_le hle ht)
        exact .cons ht (.cons ht (.cons ht (.cons ht .nil)))
  | cons e rest ih =>
    have hrest : ∀ {w₁ tail tail'}, C.le w w₁ → Option.Rel (C.ref w₁) tail tail' →
        C.Couples u w₁ (E.arguments callee st rest tail)
          (E'.arguments callee' st' (rest.map (Expr.emptied (C.empties u))) tail')
          fun w => List.Forall₂ (C.Operands w) := fun hle ht =>
      ih (fun e he => hC.runs_le hle (h e (List.mem_cons_of_mem _ he))) (hcallee.mono hC hle) ht
    have he := h e (by simp)
    have hother : (∀ inner, e ≠ .spread inner) → C.Couples u w
        (E.arguments callee st (e :: rest) tail)
        (E'.arguments callee' st'
          (e.emptied (C.empties u) :: rest.map (Expr.emptied (C.empties u))) tail')
        fun w => List.Forall₂ (C.Operands w) := by
      intro hne
      have hne' : ∀ inner, e.emptied (C.empties u) ≠ .spread inner := by
        cases e with
        | spread inner => exact absurd rfl (hne inner)
        | _ => exact fun _ h => by cases h
      cases ht with
      | none =>
        rw [Evaluator.arguments, Evaluator.arguments]
        · refine (hE.operand he).bind fun w₁ o o' hle ho => ?_
          refine (hrest hle .none).bind fun w₂ os os' hle₂ hos => .pure fun w₃ hle₃ => ?_
          exact .cons (ho.mono hC (C.trans hle₂ hle₃)) (hos.imp fun _ _ => .mono hC hle₃)
        · exact hne'
        · exact hne
      | some ht =>
        rw [Evaluator.arguments, Evaluator.arguments]
        · refine (hE.value hC he).bind fun w₁ r r' hle hr => ?_
          exact hrest hle (.some (hC.ref_union (hC.ref_le hle ht) hr))
        · exact hne'
        · exact hne
    cases e with
    | spread inner =>
      have hinner : C.runs u w (.expr inner) st st' :=
        hC.part he (by simp [Node.parts, Node.children, Expr.children])
      rw [List.map_cons, Expr.emptied, Expr.pruned, arguments_spread, arguments_spread]
      refine (hE.operand hinner).bind fun w₁ source source' hle hs => ?_
      refine (hC.refuseSpread inner (hcallee.mono hC hle)).seq ?_
      refine (deref hC hs).bind fun w₂ r r' hle₂ hr => ?_
      refine (elements hC hr).bind fun w₃ items items' hle₃ hi => ?_
      have hle₃ := C.trans hle (C.trans hle₂ hle₃)
      refine hrest hle₃ (.some (hC.ref_union ?_ hi))
      cases ht with
      | none => exact hC.ref_empty
      | some ht => exact hC.ref_le hle₃ ht
    | _ => exact hother fun _ h => by cases h

omit hE in
/-- What an optional chain wraps may be run where the chain may. -/
theorem runs_unwrapOptional {e : Expr} (h : C.runs u w (.expr e) st st') :
    C.runs u w (.expr (unwrapOptional e)) st st' := by
  fun_induction unwrapOptional e with
  | case1 inner ih => exact ih (hC.part h (by simp [Node.parts, Node.children, Expr.children]))
  | case2 inner ih => exact ih (hC.part h (by simp [Node.parts, Node.children, Expr.children]))
  | case3 => exact h

/-- What a callee was read from corresponds too. -/
def Sources (C : Coupling A B) (w : C.Stage) (p p' : Operand × Option (Operand × Key)) : Prop :=
  C.Operands w p.1 p'.1 ∧ Option.Rel (Members C w) p.2 p'.2

/-- The member that is called, with its receiver. -/
theorem calledMember {x y : Run (Operand × Key)} (site : Site)
    (hxy : C.Couples u w x y (Members C)) :
    C.Couples u w
      (do
        let (receiver, key) ← x
        return (← E.readMember receiver key site, some (receiver, key)))
      (do
        let (receiver, key) ← y
        return (← E'.readMember receiver key site, some (receiver, key))) (Sources C) := by
  refine hxy.bind fun w₁ m m' _ hm => ?_
  obtain ⟨receiver, key⟩ := m
  obtain ⟨receiver', key'⟩ := m'
  obtain ⟨ho, rfl⟩ : C.Operands w₁ receiver receiver' ∧ key' = key := hm
  refine (hE.readMember hC key' site ho).bind fun w₂ o o' hle₂ hread => .pure fun w₃ hle₃ => ?_
  exact ⟨hread.mono hC hle₃, .some ⟨ho.mono hC (C.trans hle₂ hle₃), rfl⟩⟩

/-- The callees of calls correspond, with their receivers. -/
theorem calleeOf {callee : Expr} (h : C.runs u w (.expr callee) st st') :
    C.Couples u w (E.calleeOf callee st) (E'.calleeOf (callee.emptied (C.empties u)) st')
      (Sources C) := by
  have hinner := runs_unwrapOptional hC h
  unfold Evaluator.calleeOf
  rw [unwrapOptional_emptied]
  revert hinner
  cases unwrapOptional callee with
  | dot span object name => exact fun hinner => calledMember hC hE _ (hE.memberDot hC hinner)
  | bracket span object key => exact fun hinner => calledMember hC hE _ (hE.memberBracket hC hinner)
  | _ =>
    exact fun hinner => (hE.operand hinner).bind fun w₁ o o' _ ho => .pure fun w₂ hle =>
      ⟨ho.mono hC hle, .none⟩

/-- Call expressions correspond. -/
theorem call {span : Span} {callee : Expr} {args : List Expr}
    (h : C.runs u w (.expr (.call span callee args)) st st') :
    C.Couples u w (E.call span callee args st)
      (E'.call span (callee.emptied (C.empties u)) (args.map (Expr.emptied (C.empties u))) st')
      C.Operands := by
  have hcallee : C.runs u w (.expr callee) st st' :=
    hC.part h (by simp [Node.parts, Node.children, Expr.children])
  have hargs : ∀ e ∈ args, C.runs u w (.expr e) st st' := fun e he =>
    hC.part h (by simp [Node.parts, Node.children, Expr.children, he])
  unfold Evaluator.call
  refine (hE.calleeOf hC hcallee).bind fun w₁ found found' hle hfound => ?_
  obtain ⟨target, source⟩ := found
  obtain ⟨target', source'⟩ := found'
  obtain ⟨htarget, hsource⟩ : C.Operands w₁ target target' ∧
    Option.Rel (Members C w₁) source source' := hfound
  refine (hE.arguments hC (fun e he => hC.runs_le hle (hargs e he)) htarget .none).bind
    fun w₂ args args' hle₂ hargs => ?_
  have htarget := htarget.mono hC hle₂
  have hc : C.Sites w₂ ⟨⟨.call, span⟩, source.map (·.1), args⟩
      ⟨⟨.call, span⟩, source'.map (·.1), args'⟩ := by
    refine ⟨rfl, ?_, hargs⟩
    cases hsource with
    | none => exact .none
    | some hm => exact .some (hm.1.mono hC hle₂)
  refine (deref hC htarget).bind fun w₃ r r' hle₃ hr => ?_
  refine (hC.invokeAll hE hr (hc.mono hC hle₃)).bind fun w₄ result result' hle₄ hresult => .read ?_
  have hend : ∀ {w₅}, C.le w₄ w₅ →
      C.Couples u w₅ (pure (Operand.known result)) (pure (Operand.known result')) C.Operands :=
    fun hle₅ => .pure fun _ hle₆ => .known (hC.ref_le (C.trans hle₅ hle₆) hresult)
  have hle₄ := C.trans hle₃ hle₄
  cases hsource with
  | none => exact hend (C.refl w₄)
  | @some member member' hm =>
  obtain ⟨receiver, key⟩ := member
  obtain ⟨receiver', key'⟩ := member'
  obtain ⟨ho, rfl⟩ : C.Operands w₁ receiver receiver' ∧ key' = key := hm
  rw [hC.resolver]
  cases hresolver : A.resolver with
  | none => exact hend (C.refl w₄)
  | some resolver =>
    have hx : C.External := hC.external (by simp [hresolver])
    refine (deref hC (htarget.mono hC hle₄)).bind fun w₅ q q' hle₅ hq => ?_
    obtain rfl := hx.ref hq
    split
    · exact hend hle₅
    · refine .get fun w₆ hle₆ s t hst => ?_
      have hle₆' := C.trans hle₅ hle₆
      refine (deref hC (ho.mono hC (C.trans hle₂ (C.trans hle₄ hle₆')))).bind
        fun w₇ p p' hle₇ hp => ?_
      obtain rfl := hx.ref hp
      rw [hx.provenance hst]
      have hle₇' := C.trans hle₆' hle₇
      cases s.provenance.findAny? p' with
      | none => exact hend hle₇'
      | some path =>
        refine (hE.followCallbacks hC hx (hc.mono hC (C.trans hle₄ hle₇')) resolver _).bind
          fun w₈ more more' hle₈ hmore => .pure fun w₉ hle₉ => .known ?_
        exact hC.ref_union (hC.ref_le (C.trans hle₇' (C.trans hle₈ hle₉)) hresult)
          (hC.ref_le hle₉ hmore)

/-- `new` expressions correspond. -/
theorem construct {span : Span} {callee : Expr} {args : List Expr}
    (h : C.runs u w (.expr (.construct span callee args)) st st') :
    C.Couples u w (E.construct span callee args st)
      (E'.construct span (callee.emptied (C.empties u)) (args.map (Expr.emptied (C.empties u))) st')
      C.Operands := by
  have hcallee : C.runs u w (.expr callee) st st' :=
    hC.part h (by simp [Node.parts, Node.children, Expr.children])
  have hargs : ∀ e ∈ args, C.runs u w (.expr e) st st' := fun e he =>
    hC.part h (by simp [Node.parts, Node.children, Expr.children, he])
  have heq : ∀ (E : Evaluator) callee args st, E.construct span callee args st = (do
      let callee ← E.resolve (unwrapOptional callee) st
      let args ← E.arguments callee st args none
      E.constructAll span ⟨⟨.construct, span⟩, none, args⟩ (← Run.deref callee)) :=
    fun _ _ _ _ => rfl
  rw [heq, heq, unwrapOptional_emptied]
  refine (hE.operand (runs_unwrapOptional hC hcallee)).bind fun w₁ target target' hle ht => ?_
  refine (hE.arguments hC (fun e he => hC.runs_le hle (hargs e he)) ht .none).bind
    fun w₂ args args' hle₂ hargs => ?_
  refine (deref hC (ht.mono hC hle₂)).bind fun w₃ r r' hle₃ hr => ?_
  exact hC.constructAll span hE hr ⟨rfl, .none, hargs.imp fun _ _ => .mono hC hle₃⟩

/-! ## Expressions -/

/-- Items of array literals correspond, be they spread or not. -/
theorem arrayItem {item : Option Expr} (h : ∀ e ∈ item, C.runs u w (.expr e) st st') :
    C.Couples u w (E.arrayItem st item)
      (E'.arrayItem st' (item.map (Expr.emptied (C.empties u)))) C.ref := by
  unfold Evaluator.arrayItem
  cases item with
  | none => exact .pure fun _ _ => hC.ref_empty
  | some e =>
    have he := h e rfl
    cases e with
    | spread inner =>
      have hinner : C.runs u w (.expr inner) st st' :=
        hC.part he (by simp [Node.parts, Node.children, Expr.children])
      exact (hE.value hC hinner).bind fun _ _ _ _ hr => elements hC (hC.ref_arrays hr)
    | _ => exact hE.value hC he

/-- Array literals correspond. -/
theorem arrayLiteral {span : Span} {items : List (Option Expr)}
    (h : C.runs u w (.expr (.array span items)) st st') :
    C.Couples u w (E.arrayLiteral items st)
      (E'.arrayLiteral (items.map (·.map (Expr.emptied (C.empties u)))) st') C.Operands := by
  refine (Coupling.Couples.mapM (R := C.ref) (forall₂_map_self _ items) hC.ref_le
    fun w₁ item _ hle hmem heq => ?_).bind fun w₁ rs rs' _ hrs => ?_
  · subst heq
    refine hE.arrayItem hC fun e he => hC.runs_le hle (hC.part h ?_)
    simp only [Node.parts, Node.children, Expr.children]
    exact List.mem_map_of_mem (List.mem_filterMap.2 ⟨_, hmem, he⟩)
  · exact (arrayOf hC (hC.ref_unionAll hrs)).bind fun _ _ _ _ hr => .pure fun _ hle =>
      .known (hC.ref_le hle hr)

/-- Properties are added to objects that correspond. -/
theorem addProperty {property : Script.Property} (h : C.runs u w (.property property) st st')
    {o o' : ObjectCell} (ho : C.cell w o o') :
    C.Couples u w (E.addProperty st o property)
      (E'.addProperty st' o' (property.emptied (C.empties u))) C.cell := by
  cases property with
  | short id fallback =>
    have hid : C.runs u w (.expr (.identifier id)) st st' :=
      hC.part h (by simp [Node.parts, Node.children])
    refine (hC.lookup hid).bind fun w₁ a a' hle ha => (deref hC ha).bind fun w₂ r r' hle₂ hr => ?_
    exact .pure fun w₃ hle₃ => hC.cell_set _ (hC.cell_le (C.trans hle (C.trans hle₂ hle₃)) ho)
      (hC.ref_le hle₃ hr)
  | keyed key computed kind value =>
    have hkey : C.runs u w (.expr key) st st' := hC.part h (by simp [Node.parts, Node.children])
    have hvalue : C.runs u w (.expr value) st st' :=
      hC.part h (by simp [Node.parts, Node.children])
    unfold Evaluator.addProperty Script.Property.emptied Script.Property.pruned
    refine (hE.propertyKey hkey).bind fun w₁ k k' hle hk => ?_
    subst hk
    unfold Evaluator.value
    rw [bind_assoc, bind_assoc]
    refine (hE.resolve (hC.runs_le hle hvalue)).bind fun w₂ a a' hle₂ ha => ?_
    refine (hC.deref ha.1).bind fun w₃ r r' hle₃ hr => ?_
    have hle₃' := C.trans hle (C.trans hle₂ hle₃)
    have hend : ∀ {w₄}, C.le w₃ w₄ →
        C.Couples u w₄ (pure (o.set k' r)) (pure (o'.set k' r')) C.cell := fun hle₄ =>
      .pure fun w₅ hle₅ => hC.cell_set _ (hC.cell_le (C.trans hle₃' (C.trans hle₄ hle₅)) ho)
        (hC.ref_le (C.trans hle₄ hle₅) hr.1)
    cases hkind : kind.accessor? with
    | none => exact hend (C.refl w₃)
    | some accessor =>
      refine (hC.markAccessors accessor (hC.runs_le hle₃' h) hkind (hC.result_le hle₃ ha.2)
        hr.2.1 hr.2.2 hr.1).bind fun w₄ _ _ hle₄ _ => hend hle₄
  | spread inner =>
    have hinner : C.runs u w (.expr inner) st st' := hC.part h (by simp [Node.parts, Node.children])
    exact (hE.value hC hinner).bind fun w₁ r r' hle hr => hC.spreadInto (hC.cell_le hle ho) hr

/-- Object literals correspond. -/
theorem objectLiteral {span : Span} {properties : List Script.Property}
    (h : C.runs u w (.expr (.object span properties)) st st') :
    C.Couples u w (E.objectLiteral properties st)
      (E'.objectLiteral (properties.map (Script.Property.emptied (C.empties u))) st')
      C.Operands := by
  refine (Coupling.Couples.foldlM (R := C.cell) (forall₂_map_self _ properties) hC.cell_le
    (fun w₁ property _ o o' hle hmem heq ho => ?_) hC.cell_empty).bind fun w₁ o o' _ ho => ?_
  · subst heq
    refine hE.addProperty hC (hC.runs_le hle (hC.part h ?_)) ho
    simp only [Node.parts, Node.children, Expr.children]
    exact List.mem_map_of_mem hmem
  · exact (hC.newObject ho).bind fun _ _ _ _ hv => .pure fun _ hle =>
      .known (hC.ref_single (hC.value_le hle hv))

omit hE in
/-- Expressions whose value is not tracked correspond. -/
theorem untracked (e : Expr) :
    C.Couples u w (Evaluator.untracked e) (Evaluator.untracked (e.emptied (C.empties u)))
      C.Operands := by
  unfold Evaluator.untracked
  rw [Expr.kind_emptied, Expr.span_pruned]
  exact (hC.warn _).seq (.pure fun _ _ => .known hC.ref_empty)

/-- What is read after two expressions were evaluated. -/
theorem both {left right : Expr} (hl : C.runs u w (.expr left) st st')
    (hr : C.runs u w (.expr right) st st') {f f' : Reference → Reference → Reference}
    (hf : ∀ {w r r' q q'}, C.ref w r r' → C.ref w q q' → C.ref w (f r q) (f' r' q')) :
    C.Couples u w
      (do
        let left ← E.resolve left st
        let right ← E.resolve right st
        return Operand.known (f (← Run.deref left) (← Run.deref right)))
      (do
        let left ← E'.resolve (left.emptied (C.empties u)) st'
        let right ← E'.resolve (right.emptied (C.empties u)) st'
        return Operand.known (f' (← Run.deref left) (← Run.deref right))) C.Operands := by
  refine (hE.operand hl).bind fun w₁ o o' hle ho => ?_
  refine (hE.operand (hC.runs_le hle hr)).bind fun w₂ p p' hle₂ hp => ?_
  refine (deref hC (ho.mono hC hle₂)).bind fun w₃ r r' hle₃ hr => ?_
  refine (deref hC (hp.mono hC hle₃)).bind fun w₄ q q' hle₄ hq => .pure fun w₅ hle₅ => ?_
  exact .known (hf (hC.ref_le (C.trans hle₄ hle₅) hr) (hC.ref_le hle₅ hq))

/-- Members that correspond are read once they are known. -/
theorem readTarget {x y : Run (Operand × Key)} (site : Site)
    (h : C.Couples u w x y (Members C)) :
    C.Couples u w
      (do
        let (object, key) ← x
        E.readMember object key site)
      (do
        let (object, key) ← y
        E'.readMember object key site) C.Operands := by
  refine h.bind fun w₁ m m' _ hm => ?_
  obtain ⟨object, key⟩ := m
  obtain ⟨object', key'⟩ := m'
  obtain ⟨ho, rfl⟩ : C.Operands w₁ object object' ∧ key' = key := hm
  exact hE.readMember hC key' site ho

omit hC hE in
/-- A reference that stands for itself. -/
theorem known {r : Reference} (hr : ∀ {w₁}, C.ref w₁ r r) :
    C.Couples u w (pure (Operand.known r)) (pure (Operand.known r)) C.Operands :=
  .pure fun _ _ => .known hr

/-- The parts of a template are visited before its tag is. -/
theorem templateLiteral {span : Span} {tag : Option Expr} {parts : List Expr}
    (h : C.runs u w (.expr (.template span tag parts)) st st') :
    C.Couples u w (E.resolveStep (.template span tag parts) st)
      (E'.resolveStep ((Expr.template span tag parts).emptied (C.empties u)) st') C.Operands := by
  unfold Evaluator.resolveStep
  rw [Expr.emptied, Expr.pruned, Script.prunedExprs_eq, Script.prunedExpr?_eq]
  refine (Coupling.Couples.forM (forall₂_map_self _ parts) fun w₁ e _ hle hmem heq => ?_).bind
    fun w₁ _ _ hle _ => ?_
  · subst heq
    refine hE.visit (hC.runs_le hle (hC.part h ?_))
    simp [Node.parts, Node.children, Expr.children, hmem]
  · cases tag with
    | none => exact known (hC.ref_primitive .any)
    | some tag =>
      refine (hE.visit (hC.runs_le hle (hC.part h ?_))).seq
        ((hC.warn _).seq (known hC.ref_empty))
      simp [Node.parts, Node.children, Expr.children]

/-- A binary operator joins its operands, compares them or yields some primitive. -/
theorem binaryOperator {span : Span} {op : Script.BinaryOp} {left right : Expr}
    (h : C.runs u w (.expr (.binary span op left right)) st st') :
    C.Couples u w (E.resolveStep (.binary span op left right) st)
      (E'.resolveStep ((Expr.binary span op left right).emptied (C.empties u)) st')
      C.Operands := by
  refine hE.both hC (hC.part h ?_) (hC.part h ?_) fun {w r r' q q'} hr hq => ?_
  · simp [Node.parts, Node.children, Expr.children]
  · simp [Node.parts, Node.children, Expr.children]
  · unfold Evaluator.binaryResult
    split
    · exact hC.ref_union hr hq
    · split
      · exact hC.ref_boolean
      · exact hC.ref_primitive .any

/-- A sequence is what its last expression is. -/
theorem sequence {span : Span} {items : List Expr}
    (h : C.runs u w (.expr (.sequence span items)) st st') :
    C.Couples u w (E.resolveStep (.sequence span items) st)
      (E'.resolveStep ((Expr.sequence span items).emptied (C.empties u)) st') C.Operands := by
  unfold Evaluator.resolveStep
  rw [Expr.emptied, Expr.pruned, Script.prunedExprs_eq]
  refine .foldlM (forall₂_map_self _ items) (fun hle => .mono hC hle)
    (fun w₁ e _ _ _ hle hmem heq _ => ?_) (.primitive hC .undefined)
  subst heq
  refine hE.operand (hC.runs_le hle (hC.part h ?_))
  simp [Node.parts, Node.children, Expr.children, hmem]

/-- What expressions other than functions evaluate to. -/
theorem resolveOther {e : Expr} (h : C.runs u w (.expr e) st st') (hne : ∀ fn, e ≠ .function fn) :
    C.Couples u w (E.resolveStep e st) (E'.resolveStep (e.emptied (C.empties u)) st')
      C.Operands := by
  have part : ∀ {inner : Expr}, Node.expr inner ∈ (Node.expr e).parts →
      C.runs u w (.expr inner) st st' := fun hmem => hC.part h hmem
  have hprimitive : ∀ {w} (p : Primitive), C.Couples u w (pure (Operand.known (.ofPrimitive p)))
      (pure (Operand.known (.ofPrimitive p))) C.Operands := fun p => known (hC.ref_primitive p)
  cases e with
  | function fn => exact absurd rfl (hne fn)
  | identifier id => exact hC.lookup h
  | string _ _ | boolean _ _ | null _ | regExp _ => exact hprimitive _
  | number _ value => cases value <;> exact hprimitive _
  | template span tag parts => exact hE.templateLiteral hC h
  | array span items =>
    rw [Expr.emptied, Expr.pruned, Script.prunedHoles_eq]
    exact hE.arrayLiteral hC h
  | object span properties =>
    rw [Expr.emptied, Expr.pruned, Script.prunedProperties_eq]
    exact hE.objectLiteral hC h
  | classLiteral cls =>
    have hsuper : C.Couples u w (E.visit? cls.superclass st)
        (E'.visit? (cls.emptied (C.empties u)).superclass st') fun _ _ _ => True := by
      rw [Script.Class.superclass_pruned]
      refine hE.visit? fun e he => part ?_
      simpa [Node.parts] using he
    exact hsuper.seq (untracked hC (.classLiteral cls))
  | call span callee args =>
    rw [Expr.emptied, Expr.pruned, Script.prunedExprs_eq]
    exact hE.call hC h
  | construct span callee args =>
    rw [Expr.emptied, Expr.pruned, Script.prunedExprs_eq]
    exact hE.construct hC h
  | dot span object name => exact hE.readTarget hC _ (hE.memberDot hC h)
  | bracket span object key => exact hE.readTarget hC _ (hE.memberBracket hC h)
  | privateDot span object name =>
    refine (hE.visit (part ?_)).seq (known hC.ref_empty)
    simp [Node.parts, Node.children, Expr.children]
  | assign span op target value => exact hE.assign hC h
  | unary span op operand =>
    cases op with
    | delete => exact hE.deleteProperty hC h
    | _ =>
      refine (hE.visit (part ?_)).seq (hprimitive .any)
      simp [Node.parts, Node.children, Expr.children]
  | update span operand => exact hE.update hC h
  | binary span op left right => exact hE.binaryOperator hC h
  | conditional span test yes no =>
    refine (hE.visit (part ?_)).bind fun w₁ _ _ hle _ =>
      hE.both hC (hC.runs_le hle (part ?_)) (hC.runs_le hle (part ?_)) hC.ref_union
    · simp [Node.parts, Node.children, Expr.children]
    · simp [Node.parts, Node.children, Expr.children]
    · simp [Node.parts, Node.children, Expr.children]
  | sequence span items => exact hE.sequence hC h
  | optional inner | optionalChain inner | spread inner =>
    refine hE.operand (part ?_)
    simp [Node.parts, Node.children, Expr.children]
  | yield span argument =>
    have hargument : C.Couples u w (E.visit? argument st)
        (E'.visit? (Script.prunedExpr? (.emptying (C.empties u)) argument) st')
          fun _ _ _ => True := by
      rw [Script.prunedExpr?_eq]
      refine hE.visit? fun e he => part ?_
      simpa [Node.parts, Node.children, Expr.children] using he
    exact hargument.seq (untracked hC (.yield span argument))
  | await span argument =>
    refine (hE.visit (part ?_)).seq (untracked hC (.await span argument))
    simp [Node.parts, Node.children, Expr.children]
  | privateName _ _ | thisValue _ | superValue _ | newTarget _ => exact untracked hC _

theorem resolveStep {e : Expr} (h : C.runs u w (.expr e) st st') :
    C.Couples u w (E.resolveStep e st) (E'.resolveStep (e.emptied (C.empties u)) st')
      fun w o o' => C.Operands w o o' ∧ C.result w e o o' := by
  have hother : (∀ fn, e ≠ .function fn) →
      C.Couples u w (E.resolveStep e st) (E'.resolveStep (e.emptied (C.empties u)) st')
        fun w o o' => C.Operands w o o' ∧ C.result w e o o' := fun hne =>
    (hE.resolveOther hC h hne).imp fun _ _ _ _ ho => ⟨ho, hC.result_other hne⟩
  cases e with
  | function fn =>
    exact (hC.newFunction h).bind fun w₁ v v' _ hv => .pure fun w₂ hle =>
      ⟨.known (hC.ref_single (hC.value_le hle hv.1)), hC.result_le hle hv.2⟩
  | _ => exact hother fun _ h => by cases h

end

end Evaluator.Couples

end FrozenGlobals
