import FrozenGlobals.Analysis
import FrozenGlobals.Proofs.Discipline.Agree
import FrozenGlobals.Proofs.Script.Emptied
import FrozenGlobals.Proofs.Script.Scopes

/-!
# Two analyses side by side

A `Coupling` says how the states, values, references and scopes of two analyses correspond, and
`Coupling.Couples` that two computations do: from corresponding states they end in corresponding
states, with corresponding results. What corresponds may depend on what was created before, so
everything is said at a stage, and stages only advance.

The second analysis may run the programs of the first one with the bodies of some classes emptied.

`Evaluator.Couples` bundles what is known of two evaluators one level below, and `Coupling.Laws`
what a coupling has to fulfil: one law for each elementary computation, and one for each loop in
which possibilities are called. The steps of the evaluation follow from these.
-/

namespace FrozenGlobals

open Run
open Script (Span Node NodeKind Expr Pattern Stmt Hoisting)

/-- How two analyses correspond. -/
structure Coupling (A B : Setup) where
  /-- The classes of each program that have no elements in the second analysis. -/
  empties : Nat → Script.Class → Bool
  /-- What is known about the two runs. -/
  Stage : Type
  le : Stage → Stage → Prop
  refl : ∀ w, le w w
  trans : ∀ {w₁ w₂ w₃}, le w₁ w₂ → le w₂ w₃ → le w₁ w₃
  states : Stage → State → State → Prop
  value : Stage → Value → Value → Prop
  ref : Stage → Reference → Reference → Prop
  cell : Stage → ObjectCell → ObjectCell → Prop
  frame : Stage → Nat → Nat → Prop
  /-- What is known of the results of an expression of the first analysis, apart from that they
  correspond. -/
  result : Stage → Expr → Operand → Operand → Prop
  /-- A node of a program may be evaluated under frames of both analyses. -/
  runs : Nat → Stage → Node → Stack → Stack → Prop
  /-- A scope of a program may be entered on top of frames of both analyses. -/
  opens : Nat → Stage → Node → Stack → Stack → Prop
  /-- The template of a scope of a program in both analyses. -/
  template : Nat → Node → Script.ScopeTemplate → Script.ScopeTemplate → Prop
  /-- A function of a program may be called under frames of both analyses. -/
  scope : Nat → Stage → Script.Function → Stack → Stack → Prop
  /-- A name is bound in a frame. -/
  binds : Stage → Nat → String → Prop
  /-- What is done with the leaves of a pattern may be done with a name under frames. -/
  installs : Stage → Install → String → Stack → Prop
  /-- Failures that may meet. -/
  failures : Failure → Failure → Prop
  /-- One of two runs may fail alone. -/
  apart : Prop
  failures_of_apart : apart → ∀ e f, failures e f
  /-- What is known of the evaluator of the first analysis. -/
  left : Evaluator → Prop
  /-- What is known of the evaluator of the second analysis. -/
  right : Evaluator → Prop

/-- The scope that a node opens when it is run. -/
def Script.Node.entry? : Node → Option Int
  | .program _ => some Hoisting.root
  | n => n.scopeStart?

/-- The template of a scope of the current program, if both are known. -/
theorem Run.template_eq {u : Nat} (start : Int) (setup : Setup) {s : State} (hu : s.unit = u) :
    Run.template start setup s =
      match setup.programs[u]? with
      | none => .error (.internal .noProgram) s
      | some p =>
        match p.hoisting.find? start with
        | none => .error (.internal (.noScope start)) s
        | some t => .ok t s := by
  subst hu
  show (match setup.programs[s.unit]? with
    | none => (throw (Failure.internal .noProgram) : Run Script.ScopeTemplate)
    | some p => match p.hoisting.find? start with
      | none => throw (Failure.internal (.noScope start))
      | some t => pure t) setup s = _
  cases setup.programs[s.unit]? with
  | none => rfl
  | some p =>
    dsimp only
    cases p.hoisting.find? start <;> rfl

namespace Coupling

variable {A B : Setup} (C : Coupling A B)

/-! ## Operands and calls -/

/-- Operands correspond if both are known or both are everything thrown. -/
inductive Operands (w : C.Stage) : Operand → Operand → Prop
  | known {r r' : Reference} : C.ref w r r' → Operands w (.known r) (.known r')
  | thrown : Operands w .thrown .thrown

/-- Calls correspond if they stand at one place and pass corresponding values. -/
structure Sites (w : C.Stage) (c c' : CallSite) : Prop where
  site : c'.site = c.site
  receiver : Option.Rel (C.Operands w) c.receiver c'.receiver
  args : List.Forall₂ (C.Operands w) c.args c'.args

/-- A pattern may be bound: its parts may be evaluated, and its names may be written to unless they
are bound in the innermost frame. -/
structure Binds (u : Nat) (w : C.Stage) (how : Install) (p : Pattern) (st st' : Stack) : Prop where
  node : C.runs u w (.ofPattern p) st st'
  names : how = .lexical ∨ ∀ name ∈ p.names, C.installs w how name st

/-- Functions that are called correspond if they have the same name and corresponding code. -/
structure Callees (w : C.Stage) (fn fn' : Closure) (code code' : Code) : Prop where
  left : fn.code = some code
  right : fn'.code = some code'
  unit : code'.unit = code.unit
  literal : code'.literal = code.literal.emptied (C.empties code.unit)
  name : fn'.name = fn.name
  scope : C.scope code.unit w code.literal fn.scope fn'.scope

/-! ## Computations -/

/-- Two computations of a program ended in the same way. -/
def Ends {α β : Type} (u : Nat) (w : C.Stage) (Q : C.Stage → α → β → Prop) :
    EStateM.Result Failure State α → EStateM.Result Failure State β → Prop
  | .ok a s, .ok b t => ∃ w', C.le w w' ∧ C.states w' s t ∧ s.unit = u ∧ Q w' a b
  | .error e _, .error f _ => C.failures e f
  | _, _ => C.apart

/-- Two computations of a program correspond from a stage on. -/
structure Couples {α β : Type} (u : Nat) (w : C.Stage) (x : Run α) (y : Run β)
    (Q : C.Stage → α → β → Prop) : Prop where
  run : ∀ w₁, C.le w w₁ → ∀ s t, C.states w₁ s t → s.unit = u → C.Ends u w₁ Q (x A s) (y B t)

variable {C} {u : Nat} {w : C.Stage}

section
variable {α β γ δ : Type} {x : Run α} {y : Run β} {Q : C.Stage → α → β → Prop}

/-- Conditions on what two runs ended with may be weakened. -/
theorem Ends.imp {R : C.Stage → α → β → Prop} {r : EStateM.Result Failure State α}
    {r' : EStateM.Result Failure State β} (h : C.Ends u w Q r r')
    (hQ : ∀ w₁ a b, C.le w w₁ → Q w₁ a b → R w₁ a b) : C.Ends u w R r r' := by
  cases r <;> cases r'
  case ok.ok =>
    obtain ⟨w', hle, hst, hu, hq⟩ := h
    exact ⟨w', hle, hst, hu, hQ w' _ _ hle hq⟩
  all_goals exact h

/-- Runs that ended in the same way from a later stage did so from an earlier one. -/
theorem Ends.mono {w₀ : C.Stage} {r : EStateM.Result Failure State α}
    {r' : EStateM.Result Failure State β} (hle : C.le w₀ w) (h : C.Ends u w Q r r') :
    C.Ends u w₀ Q r r' := by
  cases r <;> cases r'
  case ok.ok =>
    obtain ⟨w', hle', hst, hu, hq⟩ := h
    exact ⟨w', C.trans hle hle', hst, hu, hq⟩
  all_goals exact h

/-- Where one of two runs failed alone, it does not matter what the other one does. -/
theorem Ends.of_apart {R : C.Stage → γ → δ → Prop} (h : C.apart)
    {r : EStateM.Result Failure State γ} {r' : EStateM.Result Failure State δ}
    (hr : (∃ e s, r = .error e s) ∨ ∃ e s, r' = .error e s) : C.Ends u w R r r' := by
  cases r <;> cases r'
  case ok.ok => rcases hr with ⟨_, _, hr⟩ | ⟨_, _, hr⟩ <;> cases hr
  case error.error => exact C.failures_of_apart h _ _
  all_goals exact h

/-- Computations that end in the same way are continued by computations that correspond. -/
theorem Ends.bind {f : α → Run γ} {g : β → Run δ} {R : C.Stage → γ → δ → Prop} {s t : State}
    (hx : C.Ends u w Q (x A s) (y B t))
    (hf : ∀ w₁ a b, C.le w w₁ → Q w₁ a b → C.Couples u w₁ (f a) (g b) R) :
    C.Ends u w R ((x >>= f) A s) ((y >>= g) B t) := by
  cases hxs : x A s with
  | ok a s' =>
    rw [hxs] at hx
    cases hyt : y B t with
    | ok b t' =>
      rw [hyt] at hx
      rw [bind_of_ok hxs, bind_of_ok hyt]
      obtain ⟨w₂, hle₂, hst', hu', hq⟩ := hx
      exact ((hf w₂ a b hle₂ hq).run w₂ (C.refl w₂) s' t' hst' hu').mono hle₂
    | error e t' =>
      rw [hyt] at hx
      exact .of_apart hx (.inr ⟨e, t', bind_of_error hyt⟩)
  | error e s' =>
    rw [hxs] at hx
    cases hyt : y B t with
    | ok b t' =>
      rw [hyt] at hx
      exact .of_apart hx (.inl ⟨e, s', bind_of_error hxs⟩)
    | error f t' =>
      rw [hyt] at hx
      rw [bind_of_error hxs, bind_of_error hyt]
      exact hx

namespace Couples

/-- Computations that correspond do so from later stages. -/
theorem mono {w' : C.Stage} (hle : C.le w w') (h : C.Couples u w x y Q) : C.Couples u w' x y Q :=
  ⟨fun w₁ hle₁ => h.run w₁ (C.trans hle hle₁)⟩

/-- Conditions on results may be weakened. -/
theorem imp {R : C.Stage → α → β → Prop} (h : C.Couples u w x y Q)
    (hQ : ∀ w₁ a b, C.le w w₁ → Q w₁ a b → R w₁ a b) : C.Couples u w x y R :=
  ⟨fun w₁ hle s t hst hu => (h.run w₁ hle s t hst hu).imp
    fun w₂ a b hle₂ => hQ w₂ a b (C.trans hle hle₂)⟩

/-- Results at hand correspond if they do at all later stages. -/
theorem pure {a : α} {b : β} (h : ∀ w₁, C.le w w₁ → Q w₁ a b) :
    C.Couples u w (Pure.pure a) (Pure.pure b) Q :=
  ⟨fun w₁ hle _ _ hst hu => ⟨w₁, C.refl w₁, hst, hu, h w₁ hle⟩⟩

/-- Failures that correspond end both runs. -/
theorem throw {e f : Failure} (h : C.failures e f) :
    C.Couples u w (MonadExcept.throw e : Run α) (MonadExcept.throw f : Run β) Q :=
  ⟨fun _ _ _ _ _ _ => h⟩

/-- One computation after another. -/
theorem bind {f : α → Run γ} {g : β → Run δ} {R : C.Stage → γ → δ → Prop}
    (hx : C.Couples u w x y Q)
    (hf : ∀ w₁ a b, C.le w w₁ → Q w₁ a b → C.Couples u w₁ (f a) (g b) R) :
    C.Couples u w (x >>= f) (y >>= g) R :=
  ⟨fun w₁ hle s t hst hu => (hx.run w₁ hle s t hst hu).bind
    fun w₂ a b hle₂ => hf w₂ a b (C.trans hle hle₂)⟩

/-- A computation whose result does not matter, before another. -/
theorem seq {x' : Run γ} {y' : Run δ} {R : C.Stage → γ → δ → Prop} (hx : C.Couples u w x y Q)
    (hy : C.Couples u w x' y' R) : C.Couples u w (x >>= fun _ => x') (y >>= fun _ => y') R :=
  hx.bind fun _ _ _ hle _ => hy.mono hle

/-- Computations that read the setups correspond if they do so with these setups. -/
theorem read {f : Setup → Run α} {g : Setup → Run β} (h : C.Couples u w (f A) (g B) Q) :
    C.Couples u w (MonadReader.read >>= f) (MonadReader.read >>= g) Q := ⟨h.run⟩

/-- A computation that ends with a change of both states. -/
theorem of_step (h : ∀ w₁, C.le w w₁ → ∀ s t, C.states w₁ s t → s.unit = u →
      ∃ a s' b t' w', x A s = .ok a s' ∧ y B t = .ok b t' ∧ C.le w₁ w' ∧ C.states w' s' t' ∧
        s'.unit = u ∧ Q w' a b) : C.Couples u w x y Q := by
  refine ⟨fun w₁ hle s t hst hu => ?_⟩
  obtain ⟨a, s', b, t', w', hx, hy, hle', hst', hu', hq⟩ := h w₁ hle s t hst hu
  rw [hx, hy]
  exact ⟨w', hle', hst', hu', hq⟩

/-- A computation that reads the states. -/
theorem of_read (h : ∀ w₁, C.le w w₁ → ∀ s t, C.states w₁ s t → s.unit = u →
      ∃ a b, x A s = .ok a s ∧ y B t = .ok b t ∧ Q w₁ a b) : C.Couples u w x y Q :=
  of_step fun w₁ hle s t hst hu => by
    obtain ⟨a, b, hx, hy, hq⟩ := h w₁ hle s t hst hu
    exact ⟨a, s, b, t, w₁, hx, hy, C.refl w₁, hst, hu, hq⟩

/-- A computation of another program. -/
theorem inUnit {v : Nat}
    (hstates : ∀ {w s t} (v : Nat), C.states w s t →
      C.states w { s with unit := v } { t with unit := v })
    (hunit : ∀ {w s t}, C.states w s t → t.unit = s.unit) (h : C.Couples v w x y Q) :
    C.Couples u w (Run.inUnit v x) (Run.inUnit v y) Q := by
  refine ⟨fun w₁ hle s t hst hu => ?_⟩
  have h := h.run w₁ hle _ _ (hstates v hst) rfl
  show C.Ends u w₁ Q (x.restoring ({ · with unit := s.unit }) A { s with unit := v })
    (y.restoring ({ · with unit := t.unit }) B { t with unit := v })
  rw [hunit hst, hu]
  unfold restoring
  cases hx : x A { s with unit := v } <;> cases hy : y B { t with unit := v } <;> rw [hx, hy] at h
  case ok.ok =>
    obtain ⟨w₂, hle₂, hst, -, hq⟩ := h
    exact ⟨w₂, hle₂, hstates u hst, rfl, hq⟩
  all_goals exact h

/-! ## Loops -/

/-- Loops over members that correspond do so if their rounds do. -/
theorem forM {xs : List α} {ys : List β} {P : α → β → Prop} {f : α → Run Unit} {g : β → Run Unit}
    (hxs : List.Forall₂ P xs ys)
    (h : ∀ w₁ a b, C.le w w₁ → a ∈ xs → P a b → C.Couples u w₁ (f a) (g b) fun _ _ _ => True) :
    C.Couples u w (xs.forM f) (ys.forM g) fun _ _ _ => True := by
  induction hxs generalizing w with
  | nil => exact .pure fun _ _ => trivial
  | cons hab _ ih =>
    rw [List.forM_eq_forM, List.forM_eq_forM, List.forM_cons, List.forM_cons]
    refine (h w _ _ (C.refl w) List.mem_cons_self hab).bind fun w₁ _ _ hle _ => ih ?_
    exact fun w₂ a b hle₂ ha => h w₂ a b (C.trans hle hle₂) (List.mem_cons_of_mem _ ha)

/-- Loops that carry values correspond if their rounds do. -/
theorem foldlM {xs : List α} {ys : List β} {P : α → β → Prop} {f : γ → α → Run γ}
    {g : δ → β → Run δ} {R : C.Stage → γ → δ → Prop} {c : γ} {d : δ} (hxs : List.Forall₂ P xs ys)
    (hR : ∀ {w₁ w₂ c d}, C.le w₁ w₂ → R w₁ c d → R w₂ c d)
    (h : ∀ w₁ a b c d, C.le w w₁ → a ∈ xs → P a b → R w₁ c d → C.Couples u w₁ (f c a) (g d b) R)
    (hcd : R w c d) : C.Couples u w (xs.foldlM f c) (ys.foldlM g d) R := by
  induction hxs generalizing w c d with
  | nil => exact .pure fun _ hle => hR hle hcd
  | cons hab _ ih =>
    rw [List.foldlM_cons, List.foldlM_cons]
    refine (h w _ _ c d (C.refl w) List.mem_cons_self hab hcd).bind fun w₁ _ _ hle hcd => ?_
    refine ih (fun w₂ a b c d hle₂ ha => ?_) hcd
    exact h w₂ a b c d (C.trans hle hle₂) (List.mem_cons_of_mem _ ha)

/-- Loops that collect results correspond if their rounds do. -/
theorem mapM {xs : List α} {ys : List β} {P : α → β → Prop} {f : α → Run γ} {g : β → Run δ}
    {R : C.Stage → γ → δ → Prop} (hxs : List.Forall₂ P xs ys)
    (hR : ∀ {w₁ w₂ c d}, C.le w₁ w₂ → R w₁ c d → R w₂ c d)
    (h : ∀ w₁ a b, C.le w w₁ → a ∈ xs → P a b → C.Couples u w₁ (f a) (g b) R) :
    C.Couples u w (xs.mapM f) (ys.mapM g) fun w₁ => List.Forall₂ (R w₁) := by
  induction hxs generalizing w with
  | nil => exact .pure fun _ _ => .nil
  | cons hab _ ih =>
    rw [List.mapM_cons, List.mapM_cons]
    refine (h w _ _ (C.refl w) List.mem_cons_self hab).bind fun w₁ c d hle hcd => ?_
    refine (ih fun w₂ a b hle₂ ha => ?_).bind fun w₂ cs ds hle₂ hcds => ?_
    · exact h w₂ a b (C.trans hle hle₂) (List.mem_cons_of_mem _ ha)
    · exact .pure fun w₃ hle₃ =>
        .cons (hR (C.trans hle₂ hle₃) hcd) (hcds.imp fun _ _ => hR hle₃)

end Couples

end

end Coupling

/-- The members of a list and their images. -/
theorem forall₂_map_self {α β : Type} (f : α → β) (xs : List α) :
    List.Forall₂ (fun a b => b = f a) xs (xs.map f) := by
  induction xs with
  | nil => exact .nil
  | cons a xs ih => exact .cons rfl ih

/-! ## Laws -/

namespace Evaluator

/-- Reads the possibilities of a slot. -/
def readSlots (E : Evaluator) (object : Operand) (site : Site) (slot : Reference) :
    Run Reference :=
  slot.values.foldlM (fun (out : Reference) v => return out.union (← E.readSlot object site v))
    .empty

/-- Constructs with every possibility of the callee. -/
def constructAll (E : Evaluator) (span : Span) (c : CallSite) (callee : Reference) :
    Run Operand := do
  let results ← callee.values.mapM (E.constructWith c)
  unless results.any Option.isSome do
    warn ("new expression at " ++ span.render ++ " is not tracked")
  return .known (.unionAll (results.filterMap id))

/-- Refuses a spread argument of what may be code of a script. -/
def refuseSpread (callee : Operand) (inner : Expr) : Run Unit := do
  unless (← deref callee).onlyNative do unsupported .spreadArgument .spread inner.span

/-- The activities of two evaluators correspond. -/
structure Couples {A B : Setup} (C : Coupling A B) (E E' : Evaluator) : Prop where
  left : C.left E
  right : C.right E'
  resolve : ∀ {u w e st st'}, C.runs u w (.expr e) st st' →
    C.Couples u w (E.resolve e st) (E'.resolve (e.emptied (C.empties u)) st')
      fun w o o' => C.Operands w o o' ∧ C.result w e o o'
  bind : ∀ {u w how p o o' st st'}, C.Binds u w how p st st' → C.Operands w o o' →
    C.Couples u w (E.bind how p o st) (E'.bind how (p.emptied (C.empties u)) o' st')
      fun _ _ _ => True
  walk : ∀ {u w fold s st st'}, C.runs u w (.stmt s) st st' →
    C.Couples u w (E.walk fold s st) (E'.walk fold (s.emptied (C.empties u)) st') C.ref
  invoke : ∀ {u w v v' c c'}, C.value w v v' → C.Sites w c c' →
    C.Couples u w (E.invoke v c) (E'.invoke v' c') C.ref

end Evaluator

namespace Coupling

variable {A B : Setup}

/-- External code makes two analyses correspond only if they are hardly different. -/
structure External (C : Coupling A B) : Prop where
  ref : ∀ {w r r'}, C.ref w r r' → r' = r
  provenance : ∀ {w s t}, C.states w s t → t.provenance = s.provenance
  request : ∀ {u w} (path : Path),
    C.Couples u w (modify fun s => { s with requests := s.requests.push path } : Run Unit)
      (modify fun s => { s with requests := s.requests.push path } : Run Unit) fun _ _ _ => True
  anchored : ∀ {u w} {α β : Type} {x : Run α} {y : Run β} {Q : C.Stage → α → β → Prop}
    (span : Span),
    C.Couples u w x y Q →
    C.Couples u w (do anchored (← anchor span) x) (do anchored (← anchor span) y) Q
  newGlobals : ∀ {u w} (root : Host.Datum),
    C.Couples u w (newGlobals root) (newGlobals root) fun w f f' =>
      ∀ v p, A.programs[v]? = some p →
        C.opens v w (.program p.program.body) [f] [f']

/-- What a coupling has to fulfil. -/
structure Laws (C : Coupling A B) : Prop where
  /- stages -/
  value_le : ∀ {w₁ w₂ v v'}, C.le w₁ w₂ → C.value w₁ v v' → C.value w₂ v v'
  ref_le : ∀ {w₁ w₂ r r'}, C.le w₁ w₂ → C.ref w₁ r r' → C.ref w₂ r r'
  cell_le : ∀ {w₁ w₂ o o'}, C.le w₁ w₂ → C.cell w₁ o o' → C.cell w₂ o o'
  frame_le : ∀ {w₁ w₂ f f'}, C.le w₁ w₂ → C.frame w₁ f f' → C.frame w₂ f f'
  runs_le : ∀ {u w₁ w₂ n st st'}, C.le w₁ w₂ → C.runs u w₁ n st st' → C.runs u w₂ n st st'
  opens_le : ∀ {u w₁ w₂ n st st'}, C.le w₁ w₂ → C.opens u w₁ n st st' → C.opens u w₂ n st st'
  scope_le : ∀ {u w₁ w₂ fn st st'}, C.le w₁ w₂ → C.scope u w₁ fn st st' → C.scope u w₂ fn st st'
  binds_le : ∀ {w₁ w₂ f name}, C.le w₁ w₂ → C.binds w₁ f name → C.binds w₂ f name
  result_le : ∀ {w₁ w₂ e o o'}, C.le w₁ w₂ → C.result w₁ e o o' → C.result w₂ e o o'
  installs_le : ∀ {w₁ w₂ how name st}, C.le w₁ w₂ → C.installs w₁ how name st →
    C.installs w₂ how name st
  /- values and references -/
  value_kind : ∀ {w v v'}, C.value w v v' → v'.kind = v.kind
  value_native : ∀ {w v v'}, C.value w v v' → v.isNative → v' = v
  ref_empty : ∀ {w}, C.ref w .empty .empty
  ref_single : ∀ {w v v'}, C.value w v v' → C.ref w (.single v) (.single v')
  ref_insert : ∀ {w r r' v v'}, C.ref w r r' → C.value w v v' → C.ref w (r.insert v) (r'.insert v')
  ref_union : ∀ {w r r' q q'}, C.ref w r r' → C.ref w q q' → C.ref w (r.union q) (r'.union q')
  ref_arrays : ∀ {w r r'}, C.ref w r r' → C.ref w r.arrays r'.arrays
  ref_containers : ∀ {w r r'}, C.ref w r r' → C.ref w r.containers r'.containers
  value_primitive : ∀ {w} (p : Primitive), C.value w (.primitive p) (.primitive p)
  value_intrinsic : ∀ {w} (i : Intrinsic), C.value w (.intrinsic i) (.intrinsic i)
  value_builtin : ∀ {w} (b : Builtin), C.value w (.builtin b) (.builtin b)
  cell_empty : ∀ {w}, C.cell w .empty .empty
  cell_set : ∀ {w o o' r r'} (k : Key), C.cell w o o' → C.ref w r r' →
    C.cell w (o.set k r) (o'.set k r')
  cell_wildcard : ∀ {w r r'}, C.ref w r r' → C.cell w ⟨[], some r⟩ ⟨[], some r'⟩
  /- syntax and scopes -/
  programs : ∀ u : Nat, Option.Rel (fun p p' : Prepared =>
    p'.program.body = p.program.body.map (Stmt.emptied (C.empties u))) A.programs[u]? B.programs[u]?
  part : ∀ {u w n c st st'}, C.runs u w n st st' → c ∈ n.parts → C.runs u w c st st'
  push : ∀ {u w n f f' st st'}, C.runs u w n st st' → C.frame w f f' →
    C.runs u w n (f :: st) (f' :: st')
  opens_of_runs : ∀ {u w n st st'}, C.runs u w n st st' → C.opens u w n st st'
  runs_of_opens : ∀ {u w n c st st'}, C.opens u w n st st' → n.entry? = none → c ∈ n.parts →
    C.runs u w c st st'
  installs_push : ∀ {w how name st} (f : Nat), C.installs w how name st →
    C.installs w how name (f :: st)
  assigned : ∀ {u w span op target value st st'},
    C.runs u w (.expr (.assign span op target value)) st st' → ∀ name ∈ target.names,
    C.installs w (.assign ⟨.assign, span⟩) name st
  updated : ∀ {u w span id st st'}, C.runs u w (.expr (.update span (.identifier id))) st st' →
    C.installs w (.assign ⟨.update, span⟩) id.name st
  declared : ∀ {u w span bindings st st'}, C.runs u w (.stmt (.declareVar span bindings)) st st' →
    ∀ b ∈ bindings, ∀ name ∈ b.target.names, C.installs w .variable name st
  declaredFirst : ∀ {u w bindings st st'}, C.runs u w (.forInit (.declareVar bindings)) st st' →
    ∀ b ∈ bindings, ∀ name ∈ b.target.names, C.installs w .variable name st
  declaredEach : ∀ {u w b st st'}, C.runs u w (.forTarget (.declareVar b)) st st' →
    ∀ name ∈ b.target.names, C.installs w .variable name st
  assignedEach : ∀ {u w p st st'} (site : Site), C.runs u w (.forTarget (.assign p)) st st' →
    ∀ name ∈ p.names, C.installs w (.assign site) name st
  scope_params : ∀ {u w fn f f' st st'}, C.scope u w fn st st' → C.frame w f f' →
    C.runs u w (.params fn.params) (f :: st) (f' :: st')
  scope_body : ∀ {u w fn f f' st st'}, C.scope u w fn st st' → C.frame w f f' →
    (∀ name ∈ fn.params.names, C.binds w f name) →
    C.opens u w (.ofBody fn.body) (f :: st) (f' :: st')
  /-- Where parameters are bound like patterns, it does not matter which names get bound. -/
  scope_pattern : ∀ {u w w' fn f st st' p}, C.scope u w fn st st' → A.options.strict = false →
    (p ∈ fn.params.items.map (·.target) ∨ fn.params.rest = some p) →
    (∀ id, p ≠ .leaf (.identifier id)) → ∀ name ∈ p.names, C.binds w' f name
  result_function : ∀ {w fn v v'}, C.value w v v' →
    C.result w (.function fn) (.known (.single v)) (.known (.single v'))
  result_other : ∀ {w e o o'}, (∀ fn, e ≠ .function fn) → C.result w e o o'
  /- failures -/
  failures_refl : ∀ e, C.failures e e
  failures_within : ∀ {e f} (path : String), C.failures e f →
    C.failures (e.within path) (f.within path)
  /- states -/
  states_unit : ∀ {w s t} (v : Nat), C.states w s t →
    C.states w { s with unit := v } { t with unit := v }
  unit_eq : ∀ {w s t}, C.states w s t → t.unit = s.unit
  /- elementary computations -/
  deref : ∀ {u w o o'}, C.Operands w o o' → C.Couples u w (Run.deref o) (Run.deref o') fun w r r' =>
    C.ref w r r' ∧ (∀ q, o = .known q → r = q) ∧ ∀ q, o' = .known q → r' = q
  getKey : ∀ {u w r r'} (k : Key), C.ref w r r' →
    C.Couples u w (Run.getKey r k) (Run.getKey r' k) C.ref
  setKey : ∀ {u w r r' v v'} (k : Key), C.ref w r r' → C.ref w v v' →
    C.Couples u w (Run.setKey r k v) (Run.setKey r' k v') fun _ _ _ => True
  newObject : ∀ {u w o o'}, C.cell w o o' →
    C.Couples u w (Run.newObject o) (Run.newObject o') C.value
  newArray : ∀ {u w r r'}, C.ref w r r' → C.Couples u w (Run.newArray r) (Run.newArray r') C.value
  newFrame : ∀ {u w}, C.Couples u w (Run.newFrame .empty) (Run.newFrame .empty) C.frame
  newFunction : ∀ {u w fn st st'}, C.runs u w (.expr (.function fn)) st st' →
    C.Couples u w (Run.newFunction fn st) (Run.newFunction (fn.emptied (C.empties u)) st')
      fun w v v' =>
      C.value w v v' ∧
        C.result w (.function fn) (.known (.single v)) (.known (.single v'))
  spreadInto : ∀ {u w o o' r r'}, C.cell w o o' → C.ref w r r' →
    C.Couples u w (do return (← get).heap.spreadInto o r) (do return (← get).heap.spreadInto o' r')
      C.cell
  markAccessors : ∀ {u w key computed kind value st st' o o' r r'} (a : Accessor),
    C.runs u w (.property (.keyed key computed kind value)) st st' → kind.accessor? = some a →
    C.result w value o o' → (∀ q, o = .known q → r = q) → (∀ q, o' = .known q → r' = q) →
    C.ref w r r' →
    C.Couples u w (Evaluator.markAccessors a r) (Evaluator.markAccessors a r') fun _ _ _ => True
  define : ∀ {u w f f' o o'} (name : String), C.frame w f f' → C.Operands w o o' →
    C.Couples u w (Run.define f name o) (Run.define f' name o') fun w _ _ => C.binds w f name
  top : ∀ {u w n st st'}, C.runs u w n st st' → C.Couples u w (Run.top st) (Run.top st') C.frame
  lookup : ∀ {u w id st st'}, C.runs u w (.expr (.identifier id)) st st' →
    C.Couples u w (Run.lookup id.name st) (Run.lookup id.name st') C.Operands
  writeName : ∀ {u w n st st' how name o o'} (site : Site) (violation : Violation),
    C.runs u w n st st' → C.installs w how name st → how ≠ .variable → C.Operands w o o' →
    C.Couples u w (Evaluator.writeName name o st site violation)
      (Evaluator.writeName name o' st' site violation) fun _ _ _ => True
  addVariable : ∀ {u w n st st' name o o'}, C.runs u w n st st' → C.installs w .variable name st →
    C.Operands w o o' →
    C.Couples u w (Evaluator.addVariable name o st) (Evaluator.addVariable name o' st')
      fun _ _ _ => True
  checkGlobal : ∀ {u w r r'} (site : Site) (violation : Violation), C.ref w r r' →
    C.Couples u w (Run.checkGlobal r site violation) (Run.checkGlobal r' site violation)
      fun _ _ _ => True
  report : ∀ {u w} (site : Site) (message : String),
    C.Couples u w (Run.report site message none) (Run.report site message none) fun _ _ _ => True
  log : ∀ {u w} (level : Log.Level) (entry entry' : State → String × Log.Fields),
    C.Couples u w (Run.log level entry) (Run.log level entry') fun _ _ _ => True
  warn : ∀ {u w} (message : String), C.Couples u w (Run.warn message)
    (Run.warn message) fun _ _ _ => True
  unsupported : ∀ {u w} (code : UnsupportedCode) (kind : NodeKind) (span : Span),
    C.Couples u w (Run.unsupported code kind span) (Run.unsupported code kind span)
      fun _ _ _ => A.options.strict = false
  checkCanceled : ∀ {u w}, C.Couples u w Run.checkCanceled Run.checkCanceled fun _ _ _ => True
  throws : ∀ {u w r r'}, C.ref w r r' →
    C.Couples u w (modify fun s => { s with thrown := s.thrown.union r } : Run Unit)
      (modify fun s => { s with thrown := s.thrown.union r' } : Run Unit) fun _ _ _ => True
  enter : ∀ {u w n start st st'}, C.opens u w n st st' → n.entry? = some start →
    C.Couples u w (Run.template start) (Run.template start) fun _ => C.template u n
  instantiate : ∀ {u w n t t' st st'}, C.opens u w n st st' → C.template u n t t' →
    C.Couples u w (Run.instantiate t st) (Run.instantiate t' st') fun w st st' =>
      ∀ c ∈ n.parts, C.runs u w c st st'
  refuseSpread : ∀ {u w o o'} (inner : Expr), C.Operands w o o' →
    C.Couples u w (Evaluator.refuseSpread o inner)
      (Evaluator.refuseSpread o' (inner.emptied (C.empties u))) fun _ _ _ => True
  concat : ∀ {u w c c'}, C.Sites w c c' →
    C.Couples u w (Evaluator.concat c) (Evaluator.concat c') C.ref
  flat : ∀ {u w c c'}, C.Sites w c c' →
    C.Couples u w (Evaluator.flat c) (Evaluator.flat c') C.ref
  /- calls -/
  invokeAll : ∀ {u w E E' r r' c c'}, Evaluator.Couples C E E' → C.ref w r r' → C.Sites w c c' →
    C.Couples u w (E.invokeAll r c) (E'.invokeAll r' c') C.ref
  readSlots : ∀ {u w E E' r r' o o'} (site : Site), Evaluator.Couples C E E' → C.Operands w o o' →
    C.ref w r r' → C.Couples u w (E.readSlots o site r) (E'.readSlots o' site r') C.ref
  callSetters : ∀ {u w E E' r r' o o' v v'} (site : Site), Evaluator.Couples C E E' →
    C.ref w r r' → C.Operands w o o' → C.Operands w v v' →
    C.Couples u w (E.callSetters r o v site) (E'.callSetters r' o' v' site) fun _ _ _ => True
  constructAll : ∀ {u w E E' r r' c c'} (span : Span), Evaluator.Couples C E E' → C.ref w r r' →
    C.Sites w c c' →
    C.Couples u w (E.constructAll span c r) (E'.constructAll span c' r') C.Operands
  callFunction : ∀ {u w E E' id id' c c'}, Evaluator.Couples C E E' →
    C.value w (.function id) (.function id') → C.Sites w c c' →
    (∀ {w₁ fn fn' code code'}, C.le w w₁ → C.Callees w₁ fn fn' code code' →
      C.Couples code.unit w₁ (do E.runBody code (← E.bindParams (.function id) fn code c.args))
        (do E'.runBody code' (← E'.bindParams (.function id') fn' code' c'.args)) C.ref) →
    C.Couples u w (E.callFunction id c) (E'.callFunction id' c') C.ref
  /- external code -/
  resolver : B.resolver = A.resolver
  external : A.resolver.isSome → C.External

end Coupling

end FrozenGlobals
