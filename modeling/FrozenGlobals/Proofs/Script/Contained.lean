import FrozenGlobals.Proofs.Script.Emptied
import FrozenGlobals.Proofs.Script.Scopes
import Mathlib.Data.List.ReduceOption

/-!
# Scopes of programs with emptied classes

The hoisting pass visits class bodies, though nothing in them is run. What a class body declares in
the scopes around it are the `var` names of its static blocks (`Node.hoistedVars`); functions are
declared in blocks of the class body itself. So where the classes that are emptied hoist no names
(`Class.Contained`), the pass through the emptied program makes the same templates, apart from those
of the scopes that are gone (`Node.cutStarts`): `Program.find?_emptied`.
-/

namespace FrozenGlobals.Script

section
variable (σ : Class → Bool)

/-! ## Nodes -/

/-- The node with the classes in it emptied. -/
def Node.emptied : Node → Node
  | .program list => .program (list.map (Stmt.emptied σ))
  | .stmt s => .stmt (s.emptied σ)
  | .block b => .block (b.emptied σ)
  | .expr e => .expr (e.emptied σ)
  | .pattern p => .pattern (p.emptied σ)
  | .item i => .item (i.emptied σ)
  | .patternProperty p => .patternProperty (p.emptied σ)
  | .property p => .property (p.emptied σ)
  | .function fn => .function (fn.emptied σ)
  | .params ps => .params (ps.emptied σ)
  | .body b => .body (b.emptied σ)
  | .binding b => .binding (b.emptied σ)
  | .classLiteral cls => .classLiteral (cls.emptied σ)
  | .element e => .element (e.emptied σ)
  | .forInit i => .forInit (i.emptied σ)
  | .forTarget t => .forTarget (t.emptied σ)
  | .clause c => .clause (c.emptied σ)
  | .handler c => .handler (c.emptied σ)

namespace Node

/-- A pattern is one node, emptied as a pattern or as a node. -/
@[simp] theorem ofPattern_emptied (p : Pattern) :
    ofPattern (p.emptied σ) = (ofPattern p).emptied σ := by cases p <;> rfl

/-- An item of a pattern is one node, emptied as an item or as a node. -/
@[simp] theorem ofItem_emptied (i : PatternItem) : ofItem (i.emptied σ) = (ofItem i).emptied σ := by
  obtain ⟨target, value⟩ := i
  cases value with
  | none => exact ofPattern_emptied σ target
  | some value => rfl

/-- The body of a function is one node, emptied as a body or as a node. -/
@[simp] theorem ofBody_emptied (b : Body) : ofBody (b.emptied σ) = (ofBody b).emptied σ := by
  cases b <;> rfl

/-! ## Children -/

/-- The elements of a class that is emptied. -/
def cut : Node → List Node
  | .classLiteral cls | .expr (.classLiteral cls) =>
      if σ cls then cls.elements.map .element else []
  | _ => []

/-- The other children. -/
def kept : Node → List Node
  | .classLiteral cls | .expr (.classLiteral cls) =>
      cls.superclass.toList.map .expr ++ if σ cls then [] else cls.elements.map .element
  | n => n.children

section

attribute [local simp] children Expr.children Stmt.children Pattern.children kept Node.emptied
  Expr.pruned Stmt.pruned Pattern.pruned

/-- The children of a class are its superclass and its elements. -/
theorem children_classLiteral (cls : Class) : (Node.classLiteral cls).children =
    cls.superclass.toList.map .expr ++ cls.elements.map .element := by
  cases cls
  rfl

/-- A class expression has the children of the class. -/
theorem children_expr_classLiteral (cls : Class) :
    (Node.expr (.classLiteral cls)).children = (Node.classLiteral cls).children := by
  cases cls
  rfl

/-- The children are those that are kept and those that are cut off. -/
theorem children_eq (n : Node) : n.children = n.kept σ ++ n.cut σ := by
  have hclass : ∀ cls : Class, (Node.classLiteral cls).children =
      (Node.classLiteral cls).kept σ ++ (Node.classLiteral cls).cut σ := by
    intro cls
    rw [children_classLiteral, kept, cut]
    split <;> simp
  cases n with
  | classLiteral cls => exact hclass cls
  | expr e =>
    cases e with
    | classLiteral cls => exact (children_expr_classLiteral cls).trans (hclass cls)
    | _ => exact (List.append_nil _).symm
  | _ => exact (List.append_nil _).symm

/-- What is cut off are elements of a class that is emptied. -/
theorem exists_of_mem_cut {n c : Node} (h : c ∈ n.cut σ) :
    ∃ cls, σ cls = true ∧ ∃ e ∈ cls.elements, Node.element e = c := by
  have hclass : ∀ cls : Class, c ∈ (if σ cls then cls.elements.map Node.element else []) →
      ∃ cls, σ cls = true ∧ ∃ e ∈ cls.elements, Node.element e = c := by
    intro cls h
    split at h
    · exact ⟨cls, ‹_›, List.mem_map.1 h⟩
    · cases h
  unfold cut at h
  split at h
  · exact hclass _ h
  · exact hclass _ h
  · cases h

/-- The children of an emptied class are the kept ones, emptied. -/
theorem children_classLiteral_emptied (cls : Class) :
    (Node.classLiteral (cls.emptied σ)).children =
      ((Node.classLiteral cls).kept σ).map (Node.emptied σ) := by
  rw [children_classLiteral, Class.superclass_pruned, Class.elements_emptied, kept]
  cases cls.superclass <;> split <;> simp

/-- The children of an emptied expression are the kept ones, emptied. -/
theorem children_expr_emptied (e : Expr) : (Node.expr (e.emptied σ)).children =
    ((Node.expr e).kept σ).map (Node.emptied σ) := by
  cases e with
  | classLiteral cls =>
    exact (children_expr_classLiteral _).trans (children_classLiteral_emptied σ cls)
  | function fn =>
    obtain ⟨span, isArrow, name, params, body⟩ := fn
    simp [Function.pruned]
  | template span tag parts =>
    cases tag <;> simp
  | yield span argument =>
    cases argument <;> simp
  | array span items =>
    have hitems := List.reduceOption_map (f := Expr.emptied σ) (l := items)
    unfold List.reduceOption at hitems
    show ((prunedHoles (.emptying σ) items).filterMap id).map Node.expr =
      ((items.filterMap id).map Node.expr).map (Node.emptied σ)
    rw [prunedHoles_eq, hitems, List.map_map, List.map_map]
    rfl
  | _ => simp

/-- No child of a statement is cut off. -/
theorem children_stmt_emptied (s : Stmt) : (Node.stmt (s.emptied σ)).children =
    (Node.stmt s).children.map (Node.emptied σ) := by
  cases s with
  | block b =>
    cases b
    simp [Block.pruned]
  | returnWith span argument =>
    cases argument <;> simp
  | ifElse span test yes no =>
    cases no <;> simp
  | forLoop span init test update body =>
    cases init <;> cases test <;> cases update <;> simp
  | tryCatch span body handler finalizer =>
    cases handler <;> cases finalizer <;> simp
  | _ => simp

/-- No child of a pattern is cut off. -/
theorem children_pattern_emptied (p : Pattern) : (Node.pattern (p.emptied σ)).children =
    (Node.pattern p).children.map (Node.emptied σ) := by
  cases p with
  | leaf target => simp
  | array span items rest =>
    have hitems := List.reduceOption_map (f := PatternItem.emptied σ) (l := items)
    unfold List.reduceOption at hitems
    have htargets : ((items.map (·.map (PatternItem.emptied σ))).filterMap id).map ofItem =
        ((items.filterMap id).map ofItem).map (Node.emptied σ) := by
      rw [hitems, List.map_map, List.map_map]
      exact List.map_congr_left fun i _ => ofItem_emptied σ i
    simp only [children, Pattern.children, Pattern.pruned, prunedItems_eq, htargets,
      prunedPattern?_eq, List.map_append]
    cases rest <;> simp
  | object span properties rest =>
    cases rest <;> simp

/-- The children of an emptied node are the kept ones, emptied. -/
theorem children_emptied (n : Node) :
    (n.emptied σ).children = (n.kept σ).map (Node.emptied σ) := by
  cases n with
  | classLiteral cls => exact children_classLiteral_emptied σ cls
  | expr e => exact children_expr_emptied σ e
  | stmt s => exact children_stmt_emptied σ s
  | pattern p => exact children_pattern_emptied σ p
  | program list => simp
  | block b =>
    cases b
    simp [Block.pruned]
  | item i =>
    obtain ⟨target, value⟩ := i
    cases value <;> simp [PatternItem.pruned]
  | patternProperty p =>
    rcases p with ⟨name, value⟩ | ⟨key, computed, value⟩
    · cases value <;> simp [PatternProperty.pruned]
    · simp [PatternProperty.pruned]
  | property p =>
    rcases p with ⟨name, value⟩ | ⟨key, computed, kind, value⟩ | ⟨inner⟩
    · cases value <;> simp [Property.pruned]
    · simp [Property.pruned]
    · simp [Property.pruned]
  | function fn =>
    obtain ⟨span, isArrow, name, params, body⟩ := fn
    simp [Function.pruned]
  | params ps =>
    obtain ⟨span, items, rest⟩ := ps
    cases rest <;> simp [Params.pruned]
  | body b => cases b <;> simp [Body.pruned]
  | binding b =>
    obtain ⟨target, init⟩ := b
    cases init <;> simp [Binding.pruned]
  | element e =>
    rcases e with ⟨start, key, init⟩ | ⟨start, key, body⟩ | ⟨start, block⟩
    · cases init <;> simp [ClassElement.pruned]
    · simp [ClassElement.pruned]
    · simp [ClassElement.pruned]
  | forInit i => cases i <;> simp [ForInit.pruned]
  | forTarget t => cases t <;> simp [ForTarget.pruned]
  | clause c =>
    obtain ⟨start, test, body⟩ := c
    cases test <;> simp [Case.pruned]
  | handler c =>
    obtain ⟨start, parameter, body⟩ := c
    cases parameter <;> simp [Catch.pruned]

end

/-- What a node runs is emptied as well: class bodies are not run. -/
theorem parts_emptied (n : Node) : (n.emptied σ).parts = n.parts.map (Node.emptied σ) := by
  have hchildren := children_emptied σ n
  cases n with
  | function fn => rfl
  | classLiteral cls => rfl
  | expr e =>
    cases e with
    | function fn => rfl
    | classLiteral cls => cases h : cls.superclass <;> simp [parts, Node.emptied, Expr.pruned, h]
    | _ => exact hchildren
  | _ => exact hchildren

/-- An emptied node opens the scope that the node opens. -/
@[simp] theorem scopeStart?_emptied (n : Node) : (n.emptied σ).scopeStart? = n.scopeStart? := by
  cases n with
  | block b => simp [Node.emptied, scopeStart?]
  | stmt s => cases s <;> simp [Node.emptied, Stmt.pruned, scopeStart?]
  | expr e => cases e <;> rfl
  | _ => rfl

end Node

/-! ## Scopes that are gone -/

namespace Node

/-- What is kept is a child. -/
theorem mem_children_of_mem_kept {n c : Node} (h : c ∈ n.kept σ) : c ∈ n.children := by
  rw [children_eq σ]
  exact List.mem_append_left _ h

/-- The offsets of the scopes in elements that are gone. -/
def cutStarts (n : Node) : List Int :=
  (n.cut σ).flatMap scopeStarts ++ (n.kept σ).attach.flatMap fun ⟨c, _⟩ => cutStarts c
termination_by sizeOf n
decreasing_by exact Node.sizeOf_lt_of_mem_children (mem_children_of_mem_kept σ ‹_›)

/-- Scopes that are gone are those of what is cut off, and those gone from what is kept. -/
theorem cutStarts_eq (n : Node) :
    n.cutStarts σ = (n.cut σ).flatMap scopeStarts ++ (n.kept σ).flatMap (cutStarts σ) := by
  rw [cutStarts]
  simp

/-- A scope of a node is one of the emptied node, or it is gone. -/
theorem scopeStarts_perm_emptied (n : Node) :
    n.scopeStarts.Perm ((n.emptied σ).scopeStarts ++ n.cutStarts σ) := by
  have below : ((n.kept σ).flatMap scopeStarts).Perm
      (((n.kept σ).map (Node.emptied σ)).flatMap scopeStarts ++
        (n.kept σ).flatMap (cutStarts σ)) := by
    rw [List.flatMap_map]
    exact (List.Perm.flatMap_left _ fun c hc => scopeStarts_perm_emptied c).trans
      (List.flatMap_append_perm _ _ _).symm
  rw [scopeStarts_eq, scopeStarts_eq (n.emptied σ), scopeStart?_emptied, children_emptied,
    cutStarts_eq, children_eq σ n, List.flatMap_append, List.append_assoc]
  refine List.Perm.append_left _ ((below.append_right _).trans ?_)
  rw [List.append_assoc]
  exact List.perm_append_comm.append_left _
termination_by sizeOf n
decreasing_by exact Node.sizeOf_lt_of_mem_children (mem_children_of_mem_kept σ hc)

/-- Scopes that are gone from a child are gone. -/
theorem cutStarts_subset {n c : Node} (h : c ∈ n.kept σ) : c.cutStarts σ ⊆ n.cutStarts σ := by
  intro start hs
  rw [cutStarts_eq σ n]
  exact List.mem_append_right _ (List.mem_flatMap.2 ⟨c, h, hs⟩)

/-- Scopes that are gone from what a function visits are gone from the function. -/
theorem cutStarts_subset_function {fn : Function} {c : Node}
    (h : c ∈ (HoistStep.function fn).parts) :
    c.cutStarts σ ⊆ (Node.function fn).cutStarts σ := by
  have hparams : (Node.params fn.params).cutStarts σ ⊆ (Node.function fn).cutStarts σ :=
    cutStarts_subset σ (show _ ∈ (Node.function fn).children by simp [children_function])
  have hbody : (ofBody fn.body).cutStarts σ ⊆ (Node.function fn).cutStarts σ :=
    cutStarts_subset σ (show _ ∈ (Node.function fn).children by simp [children_function])
  have hinit : ∀ c ∈ HoistStep.initializers fn.params,
      c.cutStarts σ ⊆ (Node.function fn).cutStarts σ := by
    intro c hc
    obtain ⟨b, hb, hc⟩ := exists_binding_of_mem_initializers hc
    have hbinding : c.cutStarts σ ⊆ (Node.binding b).cutStarts σ := cutStarts_subset σ hc
    have hparam : (Node.binding b).cutStarts σ ⊆ (Node.params fn.params).cutStarts σ :=
      cutStarts_subset σ hb
    exact List.Subset.trans hbinding (List.Subset.trans hparam hparams)
  unfold HoistStep.function at h
  cases hb : fn.body with
  | block b =>
    rw [hb] at h hbody
    rcases List.mem_append.1 h with h | h
    · cases h
    · rcases List.mem_append.1 h with h | h
      · exact hinit c h
      · exact List.Subset.trans
          (cutStarts_subset σ (n := .block b) (mem_children_of_mem_body h)) hbody
  | expression value =>
    rw [hb] at h hbody
    simp only [HoistStep.parts, HoistStep.through, List.append_nil, List.mem_append,
      List.mem_singleton] at h
    rcases h with h | rfl
    · exact hinit c h
    · refine List.Subset.trans (cutStarts_subset σ (n := ofBody (.expression value)) ?_) hbody
      simp [ofBody, kept, children]

end Node

/-! ## Steps of the hoisting pass -/

/-- The step with the classes in what it declares and visits emptied. -/
def HoistStep.emptied (s : HoistStep) : HoistStep :=
  { s with
    functions := s.functions.map (Function.emptied σ)
    around := s.around.map (Node.emptied σ)
    inside := s.inside.map (Node.emptied σ) }

/-- The initializers of emptied parameters are the initializers, emptied. -/
theorem HoistStep.initializers_emptied (ps : Params) :
    initializers (ps.emptied σ) = (initializers ps).map (Node.emptied σ) := by
  unfold initializers
  rw [Params.items_pruned, List.filterMap_map, List.map_filterMap]
  refine List.filterMap_congr fun b _ => ?_
  simp only [Function.comp_apply, Binding.init_pruned]
  cases b.init <;> rfl

/-- The pass visits the parts of an emptied function, emptied. -/
theorem HoistStep.function_emptied (fn : Function) :
    HoistStep.function (fn.emptied σ) = (HoistStep.function fn).emptied σ := by
  unfold HoistStep.function
  rw [Function.body_pruned, Function.params_pruned, initializers_emptied]
  cases fn.body with
  | block b => simp [Body.pruned, HoistStep.emptied, Node.emptied, Function.comp_def]
  | expression value => simp [Body.pruned, HoistStep.emptied, through, Node.emptied]

namespace Node

/-- What the pass does at a node of the emptied program: it does not visit the elements that are
gone. -/
theorem hoistStep_emptied (n : Node) : ∃ around, n.hoistStep.around = around ++ n.cut σ ∧
    (n.emptied σ).hoistStep = HoistStep.emptied σ { n.hoistStep with around } ∧
    ∀ c ∈ around ++ n.hoistStep.inside, c.cutStarts σ ⊆ n.cutStarts σ := by
  have hthrough : ∀ (n : Node) (vars : List String), n.hoistStep = .through vars n.children →
      (n.emptied σ).hoistStep = .through vars (n.emptied σ).children →
      ∃ around, n.hoistStep.around = around ++ n.cut σ ∧
        (n.emptied σ).hoistStep = HoistStep.emptied σ { n.hoistStep with around } ∧
        ∀ c ∈ around ++ n.hoistStep.inside, c.cutStarts σ ⊆ n.cutStarts σ := by
    intro n vars h h'
    refine ⟨n.kept σ, ?_, ?_, fun c hc => ?_⟩
    · rw [h]
      exact children_eq σ n
    · rw [h, h', children_emptied]
      rfl
    · rw [h] at hc
      exact cutStarts_subset σ (by simpa [HoistStep.through] using hc)
  have hstep : ∀ n : Node, n.cut σ = [] → (n.emptied σ).hoistStep = n.hoistStep.emptied σ →
      (∀ c ∈ n.hoistStep.parts, c.cutStarts σ ⊆ n.cutStarts σ) →
      ∃ around, n.hoistStep.around = around ++ n.cut σ ∧
        (n.emptied σ).hoistStep = HoistStep.emptied σ { n.hoistStep with around } ∧
        ∀ c ∈ around ++ n.hoistStep.inside, c.cutStarts σ ⊆ n.cutStarts σ := by
    intro n hcut h hparts
    exact ⟨n.hoistStep.around, by rw [hcut, List.append_nil], h, hparts⟩
  have hblock : ∀ b : Block, HoistStep.block (b.emptied σ).start [] ((b.emptied σ).body.map .stmt) =
      HoistStep.emptied σ (.block b.start [] (b.body.map .stmt)) := by
    intro b
    simp [HoistStep.block, HoistStep.emptied, Node.emptied, Function.comp_def]
  have hbody : ∀ b : Block, ∀ c ∈ b.body.map Node.stmt, c ∈ (Node.block b).kept σ :=
    fun b c hc => mem_children_of_mem_body hc
  cases n with
  | block b => exact hstep _ rfl (hblock b) fun c hc => cutStarts_subset σ (hbody b c hc)
  | function fn =>
    exact hstep _ rfl (HoistStep.function_emptied σ fn) fun c hc => cutStarts_subset_function σ hc
  | stmt s =>
    cases s with
    | block b =>
      refine hstep _ rfl (hblock b) fun c hc => cutStarts_subset σ ?_
      obtain ⟨span, body⟩ := b
      exact hc
    | switchOn span subject cases =>
      refine hstep _ rfl ?_ fun c hc => cutStarts_subset σ hc
      simp [hoistStep, Node.emptied, Stmt.pruned, HoistStep.block, HoistStep.emptied,
        Function.comp_def]
    | declareFunction fn =>
      refine hstep _ rfl ?_ fun c hc => List.Subset.trans
        (cutStarts_subset_function σ hc) (cutStarts_subset σ (List.mem_singleton_self _))
      simp only [hoistStep, Node.emptied, Stmt.pruned, HoistStep.function_emptied]
      rfl
    | declareVar span bindings =>
      refine hthrough _ (Binding.names bindings) rfl ?_
      simp [hoistStep, Node.emptied, Stmt.pruned]
    | _ => exact hthrough _ _ rfl rfl
  | expr e =>
    cases e with
    | function fn =>
      refine hstep _ rfl (HoistStep.function_emptied σ fn) fun c hc => ?_
      have hfn : (Node.expr (.function fn)).cutStarts σ = (Node.function fn).cutStarts σ := by
        rw [cutStarts_eq, cutStarts_eq σ (.function fn)]
        simp only [cut, kept, children_expr_function]
      rw [hfn]
      exact cutStarts_subset_function σ hc
    | _ => exact hthrough _ _ rfl rfl
  | forInit i =>
    cases i with
    | declareVar bindings =>
      refine hthrough _ (Binding.names bindings) rfl ?_
      simp [hoistStep, Node.emptied, ForInit.pruned]
    | _ => exact hthrough _ _ rfl rfl
  | forTarget t =>
    cases t with
    | declareVar b =>
      refine hthrough _ b.target.names rfl ?_
      simp [hoistStep, Node.emptied, ForTarget.pruned]
    | _ => exact hthrough _ _ rfl rfl
  | _ => exact hthrough _ _ rfl rfl

/-! ## What a node declares around it -/

/-- The `var` names that a node declares in the function body around it. -/
def hoistedVars (n : Node) : List String :=
  n.hoistStep.vars ++ (n.hoistStep.around.attach.flatMap fun ⟨c, _⟩ => hoistedVars c) ++
    if n.hoistStep.params.isSome then []
    else n.hoistStep.inside.attach.flatMap fun ⟨c, _⟩ => hoistedVars c
termination_by sizeOf n
decreasing_by
  · exact Node.sizeOf_lt_of_mem_hoistStep (List.mem_append_left _ ‹_›)
  · exact Node.sizeOf_lt_of_mem_hoistStep (List.mem_append_right _ ‹_›)

/-- A node declares its own names and those of what it visits, the insides of functions apart. -/
theorem hoistedVars_eq (n : Node) : n.hoistedVars =
    n.hoistStep.vars ++ n.hoistStep.around.flatMap hoistedVars ++
      if n.hoistStep.params.isSome then [] else n.hoistStep.inside.flatMap hoistedVars := by
  rw [hoistedVars]
  simp

/-- A node stands in no list of statements, so it declares no function in the block around it. -/
def embedded : Node → Bool
  | .program _ | .stmt _ | .forInit _ | .forTarget _ | .clause _ | .handler _ => false
  | _ => true

/-- Patterns declare no functions in the block around them. -/
@[simp] theorem embedded_ofPattern (p : Pattern) : (ofPattern p).embedded = true := by
  cases p <;> rfl

/-- Items of patterns declare no functions in the block around them. -/
@[simp] theorem embedded_ofItem (i : PatternItem) : (ofItem i).embedded = true := by
  obtain ⟨target, value⟩ := i
  cases value with
  | none => exact embedded_ofPattern target
  | some value => rfl

/-- The body of a function declares no functions outside of it. -/
@[simp] theorem embedded_ofBody (b : Body) : (ofBody b).embedded = true := by cases b <;> rfl

/-- Expressions declare no functions in the block around them. -/
@[simp] theorem embedded_expr (e : Expr) : (Node.expr e).embedded = true := rfl

/-- Properties of patterns declare no functions in the block around them. -/
@[simp] theorem embedded_patternProperty (p : PatternProperty) :
    (Node.patternProperty p).embedded = true := rfl

/-- Properties of objects declare no functions in the block around them. -/
@[simp] theorem embedded_property (p : Property) : (Node.property p).embedded = true := rfl

/-- Parameters declare no functions in the block around them. -/
@[simp] theorem embedded_params (ps : Params) : (Node.params ps).embedded = true := rfl

/-- Declarators declare no functions in the block around them. -/
@[simp] theorem embedded_binding (b : Binding) : (Node.binding b).embedded = true := rfl

/-- Elements of classes declare no functions in the block around them. -/
@[simp] theorem embedded_element (e : ClassElement) : (Node.element e).embedded = true := rfl

/-- What stands directly in an expression stands in no list of statements. -/
theorem embedded_expr_children (e : Expr) : ∀ c ∈ e.children, c.embedded = true := by
  cases e with
  | function fn =>
    cases fn
    simp [Expr.children]
  | classLiteral cls =>
    cases cls
    simp [Expr.children, or_imp, forall_and]
  | _ => simp [Expr.children, or_imp, forall_and]

/-- Statements stand in blocks, and in nodes that stand in statements. -/
theorem embedded_children {n : Node} (hn : n.embedded = true) (hblock : ∀ b, n ≠ .block b) :
    ∀ c ∈ n.children, c.embedded = true := by
  cases n with
  | program _ | stmt _ | forInit _ | forTarget _ | clause _ | handler _ => cases hn
  | block b => exact absurd rfl (hblock b)
  | expr e => exact embedded_expr_children e
  | pattern p => cases p <;> simp [children, Pattern.children, or_imp, forall_and]
  | item i =>
    cases i
    simp [children]
  | patternProperty p => cases p <;> simp [children]
  | property p => cases p <;> simp [children]
  | function fn =>
    cases fn
    simp [children]
  | params ps =>
    cases ps
    simp [children, or_imp, forall_and]
  | body b =>
    cases b with
    | block b =>
      intro c hc
      obtain rfl := List.mem_singleton.1 hc
      rfl
    | expression value => simp [children]
  | binding b =>
    cases b
    simp [children]
  | classLiteral cls =>
    cases cls
    simp [children, or_imp, forall_and]
  | element e =>
    cases e with
    | field start key init => simp [children]
    | method start key body =>
      intro c hc
      simp only [children, List.mem_cons, List.not_mem_nil, or_false] at hc
      rcases hc with rfl | rfl <;> rfl
    | staticBlock start block =>
      intro c hc
      obtain rfl := List.mem_singleton.1 hc
      rfl

/-- A node that stands in no list of statements declares no function around it. -/
theorem functions_of_embedded {n : Node} (h : n.embedded = true) : n.hoistStep.functions = [] := by
  have hfunction : ∀ fn : Function, (HoistStep.function fn).functions = [] := by
    intro fn
    unfold HoistStep.function
    cases fn.body <;> rfl
  cases n with
  | stmt s => cases h
  | function fn => exact hfunction fn
  | expr e =>
    cases e with
    | function fn => exact hfunction fn
    | _ => rfl
  | forInit i => cases h
  | forTarget t => cases h
  | _ => rfl

/-- What such a node visits around it stands in no list of statements either. -/
theorem embedded_around {n : Node} (hn : n.embedded = true) :
    ∀ c ∈ n.hoistStep.around, c.embedded = true := by
  have hfunction : ∀ fn : Function, ∀ c ∈ (HoistStep.function fn).around, c.embedded = true := by
    intro fn
    unfold HoistStep.function HoistStep.initializers
    cases fn.body with
    | block b =>
      intro _ h
      cases h
    | expression value =>
      intro c hc
      simp only [HoistStep.through, List.mem_append, List.mem_filterMap, Option.map_eq_some_iff,
        List.mem_singleton] at hc
      rcases hc with ⟨_, _, _, _, rfl⟩ | rfl <;> rfl
  have hchildren := embedded_children hn
  cases n with
  | stmt s => cases hn
  | block b =>
    intro _ h
    cases h
  | function fn => exact hfunction fn
  | expr e =>
    cases e with
    | function fn => exact hfunction fn
    | _ => exact hchildren fun _ h => by cases h
  | forInit i => cases hn
  | forTarget t => cases hn
  | _ => exact hchildren fun _ h => by cases h

/-- The scopes of what is reached are scopes of where it is reached from. -/
theorem Reaches.scopeStarts_subset {root n : Node} (h : root.Reaches true n) :
    n.scopeStarts ⊆ root.scopeStarts := by
  induction h with
  | refl => exact List.Subset.refl _
  | @tail n c _ hc ih =>
    refine List.Subset.trans (fun start hs => (scopeStarts_perm_reach n).mem_iff.2 ?_) ih
    exact List.mem_append_right _ (List.mem_append_left _ (List.mem_flatMap.2 ⟨c, hc, hs⟩))

end Node

/-- The elements of a class declare no `var` names outside of functions. -/
def Class.Contained (cls : Class) : Prop :=
  ∀ e ∈ cls.elements, (Node.element e).hoistedVars = []

instance : DecidablePred Class.Contained := fun cls =>
  inferInstanceAs (Decidable (∀ e ∈ cls.elements, (Node.element e).hoistedVars = []))

/-! ## The pass -/

namespace Hoisting

/-- The templates of scopes that are not gone, with the classes in their functions emptied. -/
def trimmed (gone : List Int) (h : Hoisting) : Hoisting :=
  ⟨(h.templates.filter fun t => t.start ∉ gone).map (ScopeTemplate.emptied σ)⟩

variable {gone : List Int}

/-- A scope that is not gone has its template, with the classes in its functions emptied. -/
theorem find?_trimmed {start : Int} (hs : start ∉ gone) (h : Hoisting) :
    (h.trimmed σ gone).find? start = (h.find? start).map (ScopeTemplate.emptied σ) := by
  unfold find? trimmed
  rw [List.find?_map, List.find?_filter]
  refine congrArg (fun p => (h.templates.find? p).map _) (funext fun t => ?_)
  by_cases ht : t.start = start
  · simp [ScopeTemplate.pruned, ht, hs]
  · simp [ScopeTemplate.pruned, ht]

/-- Changing a template and then trimming is trimming and then changing it. -/
theorem trimmed_update {f g : ScopeTemplate → ScopeTemplate} (hf : ∀ t, (f t).start = t.start)
    (hg : ∀ t, (f t).emptied σ = g (t.emptied σ)) (start : Int) (h : Hoisting) :
    (h.update start f).trimmed σ gone = (h.trimmed σ gone).update start g := by
  unfold trimmed update
  rw [List.filter_map, List.map_map, List.map_map]
  have hfilter : (fun t : ScopeTemplate => decide (t.start ∉ gone)) ∘
      (fun t => if t.start == start then f t else t) = fun t => decide (t.start ∉ gone) := by
    funext t
    simp only [Function.comp_apply]
    split
    · rw [hf]
    · rfl
  rw [hfilter]
  refine congrArg Hoisting.mk (List.map_congr_left fun t _ => ?_)
  simp only [Function.comp_apply]
  by_cases ht : t.start == start
  · rw [if_pos ht, hg]
    exact (if_pos ht).symm
  · rw [if_neg ht]
    exact (if_neg ht).symm

/-- Changing the template of a scope that is gone does not show. -/
theorem trimmed_update_gone {f : ScopeTemplate → ScopeTemplate} (hf : ∀ t, (f t).start = t.start)
    {start : Int} (hs : start ∈ gone) (h : Hoisting) :
    (h.update start f).trimmed σ gone = h.trimmed σ gone := by
  unfold trimmed update
  refine congrArg (fun l : List ScopeTemplate => Hoisting.mk (l.map _)) ?_
  induction h.templates with
  | nil => rfl
  | cons t ts ih =>
    rw [List.map_cons]
    by_cases ht : t.start = start
    · rw [if_pos (beq_iff_eq.2 ht), List.filter_cons_of_neg (by simp [hf, ht, hs]),
        List.filter_cons_of_neg (by simp [ht, hs]), ih]
    · rw [if_neg (by simpa using ht)]
      by_cases hmem : t.start ∈ gone
      · rw [List.filter_cons_of_neg (by simp [hmem]), List.filter_cons_of_neg (by simp [hmem]), ih]
      · rw [List.filter_cons_of_pos (by simp [hmem]), List.filter_cons_of_pos (by simp [hmem]), ih]

/-- A template of a scope that is not gone is added before or after trimming. -/
theorem trimmed_add {start : Int} (hs : start ∉ gone) (params : List String) (h : Hoisting) :
    (h.add start params).trimmed σ gone = (h.trimmed σ gone).add start params := by
  simp [trimmed, add, ScopeTemplate.pruned, hs]

/-- Adding the template of a scope that is gone does not show. -/
theorem trimmed_add_gone {start : Int} (hs : start ∈ gone) (params : List String) (h : Hoisting) :
    (h.add start params).trimmed σ gone = h.trimmed σ gone := by
  simp [trimmed, add, hs]

/-- A visit takes the step of the node, then visits what is around it and what is inside. -/
theorem visit_eq (h : Hoisting) (block vars : Int) (n : Node) :
    visit h block vars n =
      let h := h.update vars fun t => n.hoistStep.vars.foldl ScopeTemplate.addVar t
      let h := h.update block fun t => n.hoistStep.functions.foldl ScopeTemplate.addFunction t
      let h := n.hoistStep.around.foldl (fun h c => visit h block vars c) h
      match n.hoistStep.opens with
      | none => h
      | some start => n.hoistStep.inside.foldl
          (fun h c => visit h start (if n.hoistStep.params.isSome then start else vars) c)
          (h.add start (n.hoistStep.params.getD [])) := by
  rw [visit]
  cases n.hoistStep.opens with
  | none => simp only [List.foldl_attach]
  | some start => simp only [List.foldl_attach]

/-- A loop makes no templates that stay if its steps make none. -/
theorem trimmed_foldl_gone {f : Hoisting → Node → Hoisting} (l : List Node)
    (hf : ∀ c ∈ l, ∀ h, (f h c).trimmed σ gone = h.trimmed σ gone) (h : Hoisting) :
    (l.foldl f h).trimmed σ gone = h.trimmed σ gone := by
  induction l generalizing h with
  | nil => rfl
  | cons c l ih =>
    rw [List.foldl_cons, ih fun d hd => hf d (List.mem_cons_of_mem _ hd)]
    exact hf c List.mem_cons_self h

/-- A loop commutes with trimming if its steps do. -/
theorem trimmed_foldl {α : Type} {f g : Hoisting → α → Hoisting} (m : α → α) (l : List α)
    (hf : ∀ c ∈ l, ∀ h, (f h c).trimmed σ gone = g (h.trimmed σ gone) (m c)) (h : Hoisting) :
    (l.foldl f h).trimmed σ gone = (l.map m).foldl g (h.trimmed σ gone) := by
  induction l generalizing h with
  | nil => rfl
  | cons c l ih =>
    rw [List.foldl_cons, ih fun d hd => hf d (List.mem_cons_of_mem _ hd), List.map_cons,
      List.foldl_cons, hf c List.mem_cons_self]

/-- A change that changes nothing leaves all templates as they are. -/
theorem update_id (h : Hoisting) (start : Int) : (h.update start fun t => t) = h := by
  simp [update]

/-- The pass through a node whose scopes are gone, and that declares nothing around it. -/
theorem trimmed_visit_gone (n : Node) (hstarts : ∀ start ∈ n.hoistedStarts, start ∈ gone)
    (h : Hoisting) {block vars : Int} (hvars : vars ∈ gone ∨ n.hoistedVars = [])
    (hblock : block ∈ gone ∨ n.embedded = true) :
    (visit h block vars n).trimmed σ gone = h.trimmed σ gone := by
  have hsteps := n.hoistedStarts_perm_hoistStep
  have hparts : ∀ c ∈ n.hoistStep.parts, ∀ start ∈ c.hoistedStarts, start ∈ gone :=
    fun c hc start hs => hstarts start (hsteps.mem_iff.2
      (List.mem_append_right _ (List.mem_flatMap.2 ⟨c, hc, hs⟩)))
  have hnames : n.hoistedVars = [] → n.hoistStep.vars = [] ∧
      (∀ c ∈ n.hoistStep.around, c.hoistedVars = []) ∧
      (n.hoistStep.params.isSome = false → ∀ c ∈ n.hoistStep.inside, c.hoistedVars = []) := by
    intro hn
    rw [Node.hoistedVars_eq, List.append_eq_nil_iff, List.append_eq_nil_iff,
      List.flatMap_eq_nil_iff] at hn
    refine ⟨hn.1.1, hn.1.2, fun hp => ?_⟩
    have hinside := hn.2
    rwa [hp, if_neg Bool.false_ne_true, List.flatMap_eq_nil_iff] at hinside
  have hdeclaredVars : (h.update vars fun t =>
      n.hoistStep.vars.foldl ScopeTemplate.addVar t).trimmed σ gone = h.trimmed σ gone := by
    rcases hvars with hvars | hvars
    · exact trimmed_update_gone σ (start_foldl_addVar _) hvars h
    · rw [(hnames hvars).1]
      exact congrArg _ (h.update_id vars)
  have hdeclared : ((h.update vars fun t =>
      n.hoistStep.vars.foldl ScopeTemplate.addVar t).update block fun t =>
        n.hoistStep.functions.foldl ScopeTemplate.addFunction t).trimmed σ gone =
      h.trimmed σ gone := by
    rcases hblock with hblock | hblock
    · exact (trimmed_update_gone σ (start_foldl_addFunction _) hblock _).trans hdeclaredVars
    · rw [Node.functions_of_embedded hblock]
      exact (congrArg _ (update_id _ block)).trans hdeclaredVars
  have haround : ∀ h : Hoisting, (n.hoistStep.around.foldl (fun h c => visit h block vars c)
      h).trimmed σ gone = h.trimmed σ gone := by
    refine trimmed_foldl_gone σ _ fun c hc h => ?_
    have hpart : c ∈ n.hoistStep.parts := List.mem_append_left _ hc
    exact trimmed_visit_gone c (hparts c hpart) h
      (hvars.imp_right fun hn => (hnames hn).2.1 c hc)
      (hblock.imp_right fun hn => Node.embedded_around hn c hc)
  rw [visit_eq]
  cases ho : n.hoistStep.opens with
  | none => exact (haround _).trans hdeclared
  | some start =>
    have hgone : start ∈ gone := hstarts start (hsteps.mem_iff.2 (by simp [ho]))
    refine (trimmed_foldl_gone σ _ (fun c hc h => ?_) _).trans
      ((trimmed_add_gone σ hgone _ _).trans ((haround _).trans hdeclared))
    have hpart : c ∈ n.hoistStep.parts := List.mem_append_right _ hc
    refine trimmed_visit_gone c (hparts c hpart) h ?_ (.inl hgone)
    cases hp : n.hoistStep.params.isSome with
    | true => exact .inl hgone
    | false => exact hvars.imp_right fun hn => (hnames hn).2.2 hp c hc
termination_by sizeOf n
decreasing_by all_goals exact Node.sizeOf_lt_of_mem_hoistStep hpart

/-- The pass through a node of the emptied program, where classes that are emptied hoist no
names. -/
theorem trimmed_visit (hσ : ∀ cls, σ cls = true → cls.Contained) (n : Node)
    (hkept : ∀ start ∈ (n.emptied σ).hoistedStarts, start ∉ gone)
    (hcut : ∀ start ∈ n.cutStarts σ, start ∈ gone) (h : Hoisting) (block vars : Int) :
    (visit h block vars n).trimmed σ gone =
      visit (h.trimmed σ gone) block vars (n.emptied σ) := by
  obtain ⟨around, haround, hstep, hcuts⟩ := n.hoistStep_emptied σ
  have hsteps := (n.emptied σ).hoistedStarts_perm_hoistStep
  rw [hstep] at hsteps
  have hpart : ∀ c ∈ around ++ n.hoistStep.inside, ∀ block vars h,
      (visit h block vars c).trimmed σ gone =
        visit (h.trimmed σ gone) block vars (c.emptied σ) := by
    intro c hc block vars h
    refine trimmed_visit hσ c (fun start hs => hkept start (hsteps.mem_iff.2 ?_))
      (fun start hs => hcut start (hcuts c hc hs)) h block vars
    refine List.mem_append_right _ (List.mem_flatMap.2 ⟨c.emptied σ, ?_, hs⟩)
    rw [HoistStep.parts, HoistStep.emptied, ← List.map_append]
    exact List.mem_map_of_mem hc
  have hdeclared : ((h.update vars fun t =>
      n.hoistStep.vars.foldl ScopeTemplate.addVar t).update block fun t =>
        n.hoistStep.functions.foldl ScopeTemplate.addFunction t).trimmed σ gone =
      ((h.trimmed σ gone).update vars fun t =>
        n.hoistStep.vars.foldl ScopeTemplate.addVar t).update block fun t =>
          (n.hoistStep.functions.map (Function.emptied σ)).foldl ScopeTemplate.addFunction t := by
    rw [trimmed_update σ (g := (n.hoistStep.functions.map _).foldl ScopeTemplate.addFunction)
        (start_foldl_addFunction _) (ScopeTemplate.pruned_foldl_addFunction _ _),
      trimmed_update σ (g := n.hoistStep.vars.foldl ScopeTemplate.addVar)
        (start_foldl_addVar _) (ScopeTemplate.pruned_foldl_addVar _ _)]
  have hcutElements : ∀ c ∈ n.cut σ, ∀ h : Hoisting,
      (visit h block vars c).trimmed σ gone = h.trimmed σ gone := by
    intro c hc h
    obtain ⟨cls, hcls, e, he, rfl⟩ := Node.exists_of_mem_cut σ hc
    refine trimmed_visit_gone σ _ (fun start hs => hcut start ?_) h (.inr (hσ cls hcls e he))
      (.inr rfl)
    rw [Node.cutStarts_eq]
    refine List.mem_append_left _ (List.mem_flatMap.2 ⟨_, hc, ?_⟩)
    exact (Node.scopeStarts_perm _).mem_iff.2 (List.mem_append_left _ hs)
  have harounds : ∀ h : Hoisting, (n.hoistStep.around.foldl (fun h c => visit h block vars c)
      h).trimmed σ gone = (around.map (Node.emptied σ)).foldl (fun h c => visit h block vars c)
        (h.trimmed σ gone) := by
    intro h
    rw [haround, List.foldl_append, trimmed_foldl_gone σ _ hcutElements]
    exact trimmed_foldl σ (Node.emptied σ) around
      (fun c hc => hpart c (List.mem_append_left _ hc) block vars) h
  rw [visit_eq, visit_eq (h.trimmed σ gone), hstep]
  simp only [HoistStep.emptied]
  rw [← hdeclared]
  cases ho : n.hoistStep.opens with
  | none => exact harounds _
  | some start =>
    have hmem : start ∉ gone := by
      refine hkept start (hsteps.mem_iff.2 (List.mem_append_left _ ?_))
      simp [HoistStep.emptied, ho]
    dsimp only
    rw [trimmed_foldl σ (g := fun h c =>
        visit h start (if n.hoistStep.params.isSome then start else vars) c) (Node.emptied σ)
      n.hoistStep.inside (fun c hc => hpart c (List.mem_append_right _ hc) start _),
      trimmed_add σ hmem, harounds]
    rfl
termination_by sizeOf n
decreasing_by
  refine Node.sizeOf_lt_of_mem_hoistStep ?_
  rw [HoistStep.parts, haround]
  rcases List.mem_append.1 hc with hc | hc
  · exact List.mem_append_left _ (List.mem_append_left _ hc)
  · exact List.mem_append_right _ hc

end Hoisting

/-! ## Programs -/

namespace Program

/-- The program with the classes in it emptied. -/
def emptied (p : Program) : Program := { p with body := p.body.map (Stmt.emptied σ) }

variable {σ} {p : Program}

/-- A scope that is gone is no scope of the emptied program. -/
theorem notMem_cutStarts (hd : p.Distinct) {start : Int}
    (h : start ∈ (Node.program (p.emptied σ).body).scopeStarts) :
    start ∉ (Node.program p.body).cutStarts σ := by
  have hperm := (Node.program p.body).scopeStarts_perm_emptied σ
  have hnodup := (List.nodup_append.1 (hperm.nodup_iff.1 hd.nodup)).2.2
  exact fun hcut => hnodup start h start hcut rfl

/-- The scope of the program itself is never gone. -/
theorem root_notMem_cutStarts (hd : p.Distinct) :
    Hoisting.root ∉ (Node.program p.body).cutStarts σ := by
  intro h
  have hperm := (Node.program p.body).scopeStarts_perm_emptied σ
  have hroot := hd.nonneg _ (hperm.mem_iff.2 (List.mem_append_right _ h))
  simp [Hoisting.root] at hroot

/-- Emptied classes that hoist no names leave the other templates as they are. -/
theorem find?_emptied (hd : p.Distinct) (hσ : ∀ cls, σ cls = true → cls.Contained)
    {start : Int} (hs : start ∉ (Node.program p.body).cutStarts σ) :
    (p.emptied σ).hoisting.find? start =
      (p.hoisting.find? start).map (ScopeTemplate.emptied σ) := by
  have hstmt : ∀ s ∈ p.body, ∀ h : Hoisting,
      (h.visit Hoisting.root Hoisting.root (.stmt s)).trimmed σ
          ((Node.program p.body).cutStarts σ) =
        (h.trimmed σ ((Node.program p.body).cutStarts σ)).visit Hoisting.root Hoisting.root
          (.stmt (s.emptied σ)) := by
    intro s hmem h
    have hchild : Node.stmt s ∈ (Node.program p.body).kept σ := List.mem_map_of_mem hmem
    refine Hoisting.trimmed_visit σ hσ (.stmt s) (fun start hs => notMem_cutStarts hd ?_)
      (Node.cutStarts_subset σ hchild) h _ _
    rw [Node.scopeStarts_eq]
    refine List.mem_append_right _ (List.mem_flatMap.2 ⟨(Node.stmt s).emptied σ, ?_, ?_⟩)
    · exact List.mem_map_of_mem (List.mem_map_of_mem hmem)
    · exact (Node.scopeStarts_perm _).mem_iff.2 (List.mem_append_left _ hs)
  rw [← Hoisting.find?_trimmed σ hs]
  refine congrArg (Hoisting.find? · start) ?_
  refine ((Hoisting.trimmed_foldl σ
    (g := fun h s => h.visit Hoisting.root Hoisting.root (.stmt s)) (Stmt.emptied σ) p.body hstmt
    _).trans ?_).symm
  rw [Hoisting.trimmed_add σ (root_notMem_cutStarts hd)]
  rfl

end Program

end

end FrozenGlobals.Script
