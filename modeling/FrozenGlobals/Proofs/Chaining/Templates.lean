import FrozenGlobals.Proofs.Chaining.Trees
import FrozenGlobals.Proofs.Script.Contained

/-!
# Templates of programs without marks

The hoisting pass goes through the marks of optional chaining, so removing them changes what blocks
declare on entry in the code of the functions only: `Program.hoisting_unchained`. What stands around
an expression says which of its marks stay, so nodes without marks are a relation (`Node.Unchains`).
-/

namespace FrozenGlobals.Script

/-! ## Nodes -/

namespace Node

/-- A node and the same node without marks. -/
inductive Unchains : Node → Node → Prop
  | expr (e : Expr) (place : Place) : Unchains (.expr e) (.expr (e.unchained place))
  | program (body : List Stmt) : Unchains (.program body) (.program (body.map Stmt.unchained))
  | stmt (s : Stmt) : Unchains (.stmt s) (.stmt s.unchained)
  | block (b : Block) : Unchains (.block b) (.block b.unchained)
  | pattern (p : Pattern) : Unchains (.pattern p) (.pattern p.unchained)
  | item (i : PatternItem) : Unchains (.item i) (.item i.unchained)
  | patternProperty (p : PatternProperty) :
      Unchains (.patternProperty p) (.patternProperty p.unchained)
  | property (p : Property) : Unchains (.property p) (.property p.unchained)
  | function (fn : Function) : Unchains (.function fn) (.function fn.unchained)
  | params (ps : Params) : Unchains (.params ps) (.params ps.unchained)
  | body (b : Body) : Unchains (.body b) (.body b.unchained)
  | binding (b : Binding) : Unchains (.binding b) (.binding b.unchained)
  | classLiteral (cls : Class) : Unchains (.classLiteral cls) (.classLiteral cls.unchained)
  | element (e : ClassElement) : Unchains (.element e) (.element e.unchained)
  | forInit (i : ForInit) : Unchains (.forInit i) (.forInit i.unchained)
  | forTarget (t : ForTarget) : Unchains (.forTarget t) (.forTarget t.unchained)
  | clause (c : Case) : Unchains (.clause c) (.clause c.unchained)
  | handler (c : Catch) : Unchains (.handler c) (.handler c.unchained)

attribute [simp] Unchains.expr Unchains.program Unchains.stmt Unchains.block Unchains.pattern
  Unchains.item Unchains.patternProperty Unchains.property Unchains.function Unchains.params
  Unchains.body Unchains.binding Unchains.classLiteral Unchains.element Unchains.forInit
  Unchains.forTarget Unchains.clause Unchains.handler

/-- Identifiers have no marks. -/
@[simp] theorem unchains_identifier (id : Identifier) :
    Unchains (.expr (.identifier id)) (.expr (.identifier id)) := .expr (.identifier id) .value

/-- A pattern is one node, without marks as a pattern or as a node. -/
@[simp] theorem unchains_ofPattern (p : Pattern) :
    Unchains (ofPattern p) (ofPattern p.unchained) := by
  cases p with
  | leaf target => exact .expr target .target
  | _ => exact .pattern _

/-- An item of a pattern is one node, without marks as an item or as a node. -/
@[simp] theorem unchains_ofItem (i : PatternItem) :
    Unchains (ofItem i) (ofItem i.unchained) := by
  obtain ⟨target, value⟩ := i
  cases value with
  | none => exact unchains_ofPattern target
  | some value => exact .item _

/-- The body of a function is one node, without marks as a body or as a node. -/
@[simp] theorem unchains_ofBody (b : Body) : Unchains (ofBody b) (ofBody b.unchained) := by
  cases b with
  | block b => exact .block b
  | expression value => exact .body _

/-! ## Children -/

/-- What a list with holes becomes is there where it was there before. -/
theorem forall₂_filterMap {α β : Type} {R : β → β → Prop} {f : α → α} {g : α → β}
    (h : ∀ a, R (g a) (g (f a))) (l : List (Option α)) :
    List.Forall₂ R ((l.filterMap id).map g) (((l.map (·.map f)).filterMap id).map g) := by
  have hmap := List.reduceOption_map (f := f) (l := l)
  unfold List.reduceOption at hmap
  rw [hmap]
  simpa using fun a _ => h a

section

attribute [local simp] children Expr.children Stmt.children Pattern.children Expr.pruned
  Stmt.pruned Pattern.pruned

/-- The children of an expression that is no mark lose their marks. -/
theorem children_expr_unchained {e : Expr} (h : e.Unmarked) (place : Place) :
    List.Forall₂ Unchains (Node.expr e).children (Node.expr (e.unchained place)).children := by
  cases e with
  | optional inner => exact h.elim
  | optionalChain inner => exact h.elim
  | template span tag parts => cases tag <;> simp
  | function fn =>
    obtain ⟨span, isArrow, name, params, body⟩ := fn
    simp [Function.pruned]
  | classLiteral cls =>
    obtain ⟨span, name, superclass, elements⟩ := cls
    cases superclass <;> simp [Class.pruned]
  | yield span argument => cases argument <;> simp
  | array span items =>
    rw [Expr.unchained, Expr.pruned, prunedHoles_eq]
    exact forall₂_filterMap (fun e => .expr e .value) items
  | _ => simp

/-- The children of a statement lose their marks. -/
theorem children_stmt_unchained (s : Stmt) :
    List.Forall₂ Unchains (Node.stmt s).children (Node.stmt s.unchained).children := by
  cases s with
  | block b =>
    obtain ⟨span, body⟩ := b
    simp [Block.pruned]
  | returnWith span argument => cases argument <;> simp
  | ifElse span test yes no => cases no <;> simp
  | forLoop span init test update body => cases init <;> cases test <;> cases update <;> simp
  | tryCatch span body handler finalizer => cases handler <;> cases finalizer <;> simp
  | _ => simp

/-- The children of a pattern lose their marks. -/
theorem children_pattern_unchained (p : Pattern) :
    List.Forall₂ Unchains (Node.pattern p).children (Node.pattern p.unchained).children := by
  cases p with
  | leaf target => simp
  | array span items rest =>
    rw [Pattern.unchained, Pattern.pruned, prunedItems_eq]
    exact List.rel_append (forall₂_filterMap unchains_ofItem items) (by cases rest <;> simp)
  | object span properties rest =>
    exact List.rel_append (by simp) (by cases rest <;> simp)

/-- The children of a node that is no mark lose their marks. -/
theorem children_unchained {n n' : Node} (h : Unchains n n') (hn : ∀ e, n = .expr e → e.Unmarked) :
    List.Forall₂ Unchains n.children n'.children := by
  cases h with
  | expr e place => exact children_expr_unchained (hn e rfl) place
  | stmt s => exact children_stmt_unchained s
  | pattern p => exact children_pattern_unchained p
  | program list => simp
  | block b =>
    obtain ⟨span, body⟩ := b
    simp [Block.pruned]
  | item i =>
    obtain ⟨target, value⟩ := i
    cases value <;> simp [PatternItem.pruned]
  | patternProperty p =>
    rcases p with ⟨name, value⟩ | ⟨key, computed, value⟩
    · cases value <;> simp [PatternProperty.pruned]
    · simp [PatternProperty.pruned]
  | property p =>
    rcases p with ⟨name, value⟩ | ⟨key, computed, kind, value⟩ | ⟨inner⟩
    · cases value <;> simp [Property.pruned]
    · simp [Property.pruned]
    · simp [Property.pruned]
  | function fn =>
    obtain ⟨span, isArrow, name, params, body⟩ := fn
    simp [Function.pruned]
  | params ps =>
    obtain ⟨span, items, rest⟩ := ps
    exact List.rel_append (by simp) (by cases rest <;> simp)
  | body b => cases b <;> simp [Body.pruned]
  | binding b =>
    obtain ⟨target, init⟩ := b
    cases init <;> simp [Binding.pruned]
  | classLiteral cls =>
    obtain ⟨span, name, superclass, elements⟩ := cls
    cases superclass <;> simp [Class.pruned]
  | element e =>
    rcases e with ⟨start, key, init⟩ | ⟨start, key, body⟩ | ⟨start, block⟩
    · cases init <;> simp [ClassElement.pruned]
    · simp [ClassElement.pruned]
    · simp [ClassElement.pruned]
  | forInit i => cases i <;> simp [ForInit.pruned]
  | forTarget t => cases t <;> simp [ForTarget.pruned]
  | clause c =>
    obtain ⟨start, test, body⟩ := c
    cases test <;> simp [Case.pruned]
  | handler c =>
    obtain ⟨start, parameter, body⟩ := c
    cases parameter <;> simp [Catch.pruned]

end

end Node

/-! ## Steps of the hoisting pass -/

/-- Two steps that declare and visit the same, without marks in the second one. -/
structure HoistStep.Unchains (s s' : HoistStep) : Prop where
  vars : s'.vars = s.vars
  functions : s'.functions = s.functions.map Function.unchained
  around : List.Forall₂ Node.Unchains s.around s'.around
  opens : s'.opens = s.opens
  params : s'.params = s.params
  inside : List.Forall₂ Node.Unchains s.inside s'.inside

/-- The initializers of parameters lose their marks. -/
theorem HoistStep.initializers_unchained (ps : Params) :
    List.Forall₂ Node.Unchains (initializers ps) (initializers ps.unchained) := by
  unfold initializers
  rw [Params.items_pruned]
  induction ps.items with
  | nil => exact .nil
  | cons b bs ih =>
    cases hb : b.init with
    | none => simpa [hb] using ih
    | some e => simpa [hb] using ih

/-- What the pass visits in a function loses its marks. -/
theorem HoistStep.function_unchained (fn : Function) :
    (HoistStep.function fn).Unchains (HoistStep.function fn.unchained) := by
  have hinit := initializers_unchained fn.params
  unfold HoistStep.function
  rw [Function.body_pruned, Function.params_pruned]
  cases fn.body with
  | block b =>
    refine ⟨rfl, rfl, .nil, ?_, ?_, ?_⟩ <;> simp [Body.pruned]
    exact List.rel_append hinit (by simp)
  | expression value =>
    exact ⟨rfl, rfl, List.rel_append hinit (by simp), rfl, rfl, .nil⟩

namespace Node

/-- What the pass does at a node without marks, if it is no mark itself. -/
theorem hoistStep_unchained {n n' : Node} (h : Unchains n n')
    (hn : ∀ e, n = .expr e → e.Unmarked) : n.hoistStep.Unchains n'.hoistStep := by
  have hchildren := children_unchained h hn
  have hthrough : ∀ vars vars', vars' = vars → n.hoistStep = .through vars n.children →
      n'.hoistStep = .through vars' n'.children → n.hoistStep.Unchains n'.hoistStep := by
    rintro vars _ rfl h h'
    rw [h, h']
    exact ⟨rfl, rfl, hchildren, rfl, rfl, .nil⟩
  have hblock : ∀ b : Block, (HoistStep.block b.start [] (b.body.map .stmt)).Unchains
      (.block b.unchained.start [] (b.unchained.body.map .stmt)) := by
    intro b
    exact ⟨rfl, rfl, .nil, by simp [HoistStep.block], rfl, by simp [HoistStep.block]⟩
  cases h with
  | block b => exact hblock b
  | function fn => exact HoistStep.function_unchained fn
  | expr e place =>
    cases e with
    | optional inner => exact (hn _ rfl).elim
    | optionalChain inner => exact (hn _ rfl).elim
    | function fn => exact HoistStep.function_unchained fn
    | _ => exact hthrough _ _ rfl rfl rfl
  | stmt s =>
    cases s with
    | block b => exact hblock b
    | switchOn span subject cases =>
      refine ⟨rfl, rfl, ?_, rfl, rfl, ?_⟩
      · simp [hoistStep, Stmt.pruned, HoistStep.block]
      · simp [hoistStep, Stmt.pruned, HoistStep.block]
    | declareFunction fn =>
      exact { HoistStep.function_unchained fn with functions := rfl }
    | declareVar span bindings => exact hthrough (Binding.names bindings) _ (by simp) rfl rfl
    | _ => exact hthrough _ _ rfl rfl rfl
  | forInit i =>
    cases i with
    | declareVar bindings => exact hthrough (Binding.names bindings) _ (by simp) rfl rfl
    | _ => exact hthrough _ _ rfl rfl rfl
  | forTarget t =>
    cases t with
    | declareVar b => exact hthrough b.target.names _ (by simp) rfl rfl
    | _ => exact hthrough _ _ rfl rfl rfl
  | _ => exact hthrough _ _ rfl rfl rfl

end Node

/-! ## Templates -/

namespace Hoisting

/-- The templates without marks in their functions. -/
def unchained (h : Hoisting) : Hoisting := ⟨h.templates.map ScopeTemplate.unchained⟩

/-- A template is found for the same offsets without marks. -/
theorem find?_unchained (h : Hoisting) (start : Int) :
    h.unchained.find? start = (h.find? start).map ScopeTemplate.unchained :=
  List.find?_map ..

/-- A change of a template makes the same change without marks. -/
theorem unchained_update {f g : ScopeTemplate → ScopeTemplate}
    (hf : ∀ t, (f t).unchained = g t.unchained) (h : Hoisting) (start : Int) :
    (h.update start f).unchained = h.unchained.update start g := by
  unfold unchained update
  rw [List.map_map, List.map_map]
  refine congrArg Hoisting.mk (List.map_congr_left fun t _ => ?_)
  simp only [Function.comp_apply, apply_ite ScopeTemplate.unchained, hf]
  rfl

/-- A template is added alike without marks. -/
theorem unchained_add (h : Hoisting) (start : Int) (params : List String) :
    (h.add start params).unchained = h.unchained.add start params := by
  simp [unchained, add, ScopeTemplate.pruned]

/-- A loop of the pass makes the same templates without marks if its steps do. -/
theorem unchained_foldl {f g : Hoisting → Node → Hoisting} {l l' : List Node}
    (hl : List.Forall₂ Node.Unchains l l')
    (hf : ∀ c c' h, c ∈ l → c.Unchains c' → (f h c).unchained = g h.unchained c') (h : Hoisting) :
    (l.foldl f h).unchained = l'.foldl g h.unchained := by
  induction hl generalizing h with
  | nil => rfl
  | cons hc _ ih =>
    rw [List.foldl_cons, List.foldl_cons, ← hf _ _ h List.mem_cons_self hc]
    exact ih (fun c c' h hmem => hf c c' h (List.mem_cons_of_mem _ hmem)) _

/-- The pass goes through marks. -/
theorem visit_unwrapOptional (h : Hoisting) (block vars : Int) (e : Expr) :
    h.visit block vars (.expr (unwrapOptional e)) = h.visit block vars (.expr e) := by
  have hthrough : ∀ n c : Node, n.hoistStep = .through [] [c] →
      h.visit block vars n = h.visit block vars c := by
    intro n c hn
    rw [visit_eq, hn]
    exact congrArg (visit · block vars c) ((update_id ..).trans (update_id ..))
  fun_induction unwrapOptional e with
  | case1 inner ih => exact ih.trans (hthrough _ _ rfl).symm
  | case2 inner ih => exact ih.trans (hthrough _ _ rfl).symm
  | case3 e => rfl

/-- The pass through a node makes the same templates without marks. -/
theorem visit_unchained {n n' : Node} (hn : n.Unchains n') (h : Hoisting) (block vars : Int) :
    (h.visit block vars n).unchained = h.unchained.visit block vars n' := by
  by_cases hmarked : ∀ e, n = .expr e → e.Unmarked
  · have hstep := Node.hoistStep_unchained hn hmarked
    have hdeclared : ((h.update vars fun t =>
        n.hoistStep.vars.foldl ScopeTemplate.addVar t).update block fun t =>
          n.hoistStep.functions.foldl ScopeTemplate.addFunction t).unchained =
        (h.unchained.update vars fun t =>
          n.hoistStep.vars.foldl ScopeTemplate.addVar t).update block fun t =>
            (n.hoistStep.functions.map Function.unchained).foldl ScopeTemplate.addFunction t := by
      rw [unchained_update (g := (n.hoistStep.functions.map _).foldl ScopeTemplate.addFunction)
          (ScopeTemplate.pruned_foldl_addFunction _ _),
        unchained_update (g := n.hoistStep.vars.foldl ScopeTemplate.addVar)
          (ScopeTemplate.pruned_foldl_addVar _ _)]
    have haround : ∀ h : Hoisting,
        (n.hoistStep.around.foldl (fun h c => h.visit block vars c) h).unchained =
          n'.hoistStep.around.foldl (fun h c => h.visit block vars c) h.unchained :=
      unchained_foldl hstep.around fun c c' h hmem hc =>
        have hpart : c ∈ n.hoistStep.parts := List.mem_append_left _ hmem
        visit_unchained hc h block vars
    rw [visit_eq, visit_eq h.unchained, hstep.vars, hstep.functions, hstep.opens, hstep.params]
    dsimp only
    rw [← hdeclared, ← haround]
    cases n.hoistStep.opens with
    | none => rfl
    | some start =>
      dsimp only
      rw [← unchained_add]
      exact unchained_foldl hstep.inside (fun c c' h hmem hc =>
        have hpart : c ∈ n.hoistStep.parts := List.mem_append_right _ hmem
        visit_unchained hc h start _) _
  · obtain ⟨e, place, heq, heq', he⟩ :
        ∃ e place, n = .expr e ∧ n' = .expr (e.unchained place) ∧ ¬ e.Unmarked := by
      obtain ⟨e, rfl, he⟩ : ∃ e, n = .expr e ∧ ¬ e.Unmarked := by simpa using hmarked
      cases hn with
      | expr e place => exact ⟨e, place, rfl, rfl, he⟩
    have hlt : sizeOf (Node.expr (unwrapOptional e)) < sizeOf n := by
      simpa [heq] using Expr.sizeOf_unwrapOptional_lt he
    rw [heq, heq', ← visit_unwrapOptional, ← visit_unwrapOptional (e := e.unchained place),
      Expr.unwrapOptional_unchained]
    exact visit_unchained (.expr (unwrapOptional e) place) h block vars
termination_by sizeOf n
decreasing_by
  · exact Node.sizeOf_lt_of_mem_hoistStep hpart
  · exact Node.sizeOf_lt_of_mem_hoistStep hpart
  · exact hlt

end Hoisting

/-! ## Programs -/

/-- The program without marks of optional chaining. -/
def Program.unchained (p : Program) : Program := { p with body := p.body.map Stmt.unchained }

/-- Removing marks changes what blocks declare on entry in the code of the functions only. -/
theorem Program.hoisting_unchained (p : Program) :
    p.unchained.hoisting = p.hoisting.unchained := by
  have hbody : ∀ (body : List Stmt) (h : Hoisting),
      (body.foldl (fun h s => h.visit Hoisting.root Hoisting.root (.stmt s)) h).unchained =
        (body.map Stmt.unchained).foldl
          (fun h s => h.visit Hoisting.root Hoisting.root (.stmt s)) h.unchained := by
    intro body
    induction body with
    | nil => exact fun _ => rfl
    | cons s body ih =>
      intro h
      rw [List.foldl_cons, ih, Hoisting.visit_unchained (.stmt s), List.map_cons, List.foldl_cons]
  exact (hbody p.body ((Hoisting.mk []).add Hoisting.root [])).symm

end FrozenGlobals.Script
