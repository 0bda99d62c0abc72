import FrozenGlobals.Script.Node

/-!
# Children are smaller

`Node.sizeOf_lt_of_mem_children`: a child of a node is smaller than the node. Every traversal
through `Node.children` ends because of it.
-/

namespace FrozenGlobals.Script

namespace Node

/-- A pattern as a node is larger by one at most. -/
theorem sizeOf_ofPattern_le (p : Pattern) : sizeOf (ofPattern p) ≤ 1 + sizeOf p := by
  cases p <;> simp [ofPattern]

/-- An item as a node is larger by one at most. -/
theorem sizeOf_ofItem_le (i : PatternItem) : sizeOf (ofItem i) ≤ 1 + sizeOf i := by
  obtain ⟨target, value⟩ := i
  cases value with
  | none => have := sizeOf_ofPattern_le target; simp [ofItem]; omega
  | some value => simp [ofItem]

/-- The body of a function as a node is larger by one at most. -/
theorem sizeOf_ofBody_le (b : Body) : sizeOf (ofBody b) ≤ 1 + sizeOf b := by
  cases b <;> simp [ofBody]

section

variable {α : Type} [SizeOf α] {f : α → Node} (hf : ∀ a, sizeOf (f a) ≤ 1 + sizeOf a) {c : Node}
include hf

/-- Nodes made from the members of a list are no larger than the list. -/
theorem sizeOf_le_of_mem_map {l : List α} (h : c ∈ l.map f) : sizeOf c ≤ sizeOf l := by
  obtain ⟨a, ha, rfl⟩ := List.mem_map.1 h
  have := List.sizeOf_lt_of_mem ha
  have := hf a
  omega

/-- A node made from an optional part is no larger than the part. -/
theorem sizeOf_le_of_mem_toList {o : Option α} (h : c ∈ o.toList.map f) :
    sizeOf c ≤ sizeOf o := by
  cases o with
  | none => simp at h
  | some a => simp at h; subst h; have := hf a; simp; omega

/-- Nodes made from the members of a list with holes are no larger than the list. -/
theorem sizeOf_le_of_mem_filterMap {l : List (Option α)} (h : c ∈ (l.filterMap id).map f) :
    sizeOf c ≤ sizeOf l := by
  obtain ⟨a, ha, rfl⟩ := List.mem_map.1 h
  obtain ⟨o, ho, hoa⟩ := List.mem_filterMap.1 ha
  simp only [id_eq] at hoa
  subst hoa
  have := List.sizeOf_lt_of_mem ho
  have := hf a
  simp at *
  omega

end

/-- An expression as a node is larger by one. -/
theorem sizeOf_expr_le (e : Expr) : sizeOf (Node.expr e) ≤ 1 + sizeOf e := by simp

/-- A statement as a node is larger by one. -/
theorem sizeOf_stmt_le (s : Stmt) : sizeOf (Node.stmt s) ≤ 1 + sizeOf s := by simp

/-- A declarator as a node is larger by one. -/
theorem sizeOf_binding_le (b : Binding) : sizeOf (Node.binding b) ≤ 1 + sizeOf b := by simp

/-- An element of a class as a node is larger by one. -/
theorem sizeOf_element_le (e : ClassElement) : sizeOf (Node.element e) ≤ 1 + sizeOf e := by simp

/-- The children of an expression are smaller. -/
theorem sizeOf_lt_of_mem_exprChildren {e : Expr} {c : Node} (h : c ∈ e.children) :
    sizeOf c < sizeOf (Node.expr e) := by
  cases e with
  | function f =>
      obtain ⟨_, _, _, params, body⟩ := f
      have := sizeOf_ofBody_le body
      simp [Expr.children] at h
      rcases h with rfl | rfl <;> simp <;> omega
  | classLiteral cls =>
      obtain ⟨_, _, superclass, elements⟩ := cls
      simp only [Expr.children, List.mem_append] at h
      rcases h with h | h
      · have := sizeOf_le_of_mem_toList sizeOf_expr_le h; simp; omega
      · have := sizeOf_le_of_mem_map sizeOf_element_le h; simp; omega
  | template _ tag parts =>
      simp only [Expr.children, List.mem_append] at h
      rcases h with h | h
      · have := sizeOf_le_of_mem_toList sizeOf_expr_le h; simp; omega
      · have := sizeOf_le_of_mem_map sizeOf_expr_le h; simp; omega
  | array _ items => have := sizeOf_le_of_mem_filterMap sizeOf_expr_le h; simp; omega
  | object _ properties =>
      have hp (p : Property) : sizeOf (Node.property p) ≤ 1 + sizeOf p := by simp
      have := sizeOf_le_of_mem_map hp h; simp; omega
  | sequence _ items => have := sizeOf_le_of_mem_map sizeOf_expr_le h; simp; omega
  | yield _ argument => have := sizeOf_le_of_mem_toList sizeOf_expr_le h; simp; omega
  | call _ callee arguments =>
      simp only [Expr.children, List.mem_cons] at h
      rcases h with rfl | h
      · simp; omega
      · have := sizeOf_le_of_mem_map sizeOf_expr_le h; simp; omega
  | construct _ callee arguments =>
      simp only [Expr.children, List.mem_cons] at h
      rcases h with rfl | h
      · simp; omega
      · have := sizeOf_le_of_mem_map sizeOf_expr_le h; simp; omega
  | assign _ _ target value =>
      have := sizeOf_ofPattern_le target
      simp [Expr.children] at h
      rcases h with rfl | rfl
      · simp; omega
      · simp +arith
  | conditional _ test yes no =>
      simp [Expr.children] at h
      rcases h with rfl | rfl | rfl <;> simp +arith
  | bracket _ receiver key =>
      simp [Expr.children] at h
      rcases h with rfl | rfl <;> simp +arith
  | binary _ _ left right =>
      simp [Expr.children] at h
      rcases h with rfl | rfl <;> simp +arith
  | dot _ _ _ | privateDot _ _ _ | unary _ _ _ | update _ _ | optional _ | optionalChain _
  | spread _ | await _ _ =>
      simp [Expr.children] at h; subst h; simp +arith
  | identifier _ | string _ _ | number _ _ | boolean _ _ | null _ | regExp _ | privateName _ _
  | thisValue _ | superValue _ | newTarget _ =>
      simp [Expr.children] at h

/-- The children of a pattern are smaller. -/
theorem sizeOf_lt_of_mem_patternChildren {p : Pattern} {c : Node} (h : c ∈ p.children) :
    sizeOf c < sizeOf (Node.pattern p) := by
  cases p with
  | leaf target => simp [Pattern.children] at h; subst h; simp
  | array _ items rest =>
      simp only [Pattern.children, List.mem_append] at h
      rcases h with h | h
      · have := sizeOf_le_of_mem_filterMap sizeOf_ofItem_le h; simp; omega
      · have := sizeOf_le_of_mem_toList sizeOf_ofPattern_le h; simp; omega
  | object _ properties rest =>
      have hp (p : PatternProperty) : sizeOf (Node.patternProperty p) ≤ 1 + sizeOf p := by simp
      simp only [Pattern.children, List.mem_append] at h
      rcases h with h | h
      · have := sizeOf_le_of_mem_map hp h; simp; omega
      · have := sizeOf_le_of_mem_toList sizeOf_ofPattern_le h; simp; omega

/-- The children of a statement are smaller. -/
theorem sizeOf_lt_of_mem_stmtChildren {s : Stmt} {c : Node} (h : c ∈ s.children) :
    sizeOf c < sizeOf (Node.stmt s) := by
  cases s with
  | block b =>
      obtain ⟨_, list⟩ := b
      have := sizeOf_le_of_mem_map sizeOf_stmt_le h; simp; omega
  | declareVar _ bindings | declareLexical _ bindings =>
      have := sizeOf_le_of_mem_map sizeOf_binding_le h; simp; omega
  | returnWith _ argument => have := sizeOf_le_of_mem_toList sizeOf_expr_le h; simp; omega
  | ifElse _ test yes no =>
      simp only [Stmt.children, List.mem_cons] at h
      rcases h with rfl | rfl | h
      · simp; omega
      · simp; omega
      · have := sizeOf_le_of_mem_toList sizeOf_stmt_le h; simp; omega
  | forLoop _ init test update body =>
      have hi (i : ForInit) : sizeOf (Node.forInit i) ≤ 1 + sizeOf i := by simp
      simp only [Stmt.children, List.mem_append, List.mem_singleton] at h
      rcases h with ((h | h) | h) | rfl
      · have := sizeOf_le_of_mem_toList hi h; simp; omega
      · have := sizeOf_le_of_mem_toList sizeOf_expr_le h; simp; omega
      · have := sizeOf_le_of_mem_toList sizeOf_expr_le h; simp; omega
      · simp only [Node.stmt.sizeOf_spec, Stmt.forLoop.sizeOf_spec]; omega
  | switchOn _ subject cases =>
      have hc (c : Case) : sizeOf (Node.clause c) ≤ 1 + sizeOf c := by simp
      simp only [Stmt.children, List.mem_cons] at h
      rcases h with rfl | h
      · simp; omega
      · have := sizeOf_le_of_mem_map hc h; simp; omega
  | tryCatch _ body handler finalizer =>
      have hh (c : Catch) : sizeOf (Node.handler c) ≤ 1 + sizeOf c := by simp
      have hb (b : Block) : sizeOf (Node.block b) ≤ 1 + sizeOf b := by simp
      simp only [Stmt.children, List.cons_append, List.mem_cons, List.mem_append] at h
      rcases h with rfl | h | h
      · simp; omega
      · have := sizeOf_le_of_mem_toList hh h; simp; omega
      · have := sizeOf_le_of_mem_toList hb h; simp; omega
  | forEach _ _ into source body =>
      simp [Stmt.children] at h
      rcases h with rfl | rfl | rfl <;> simp +arith
  | whileLoop _ _ _ | doWhile _ _ _ | withObject _ _ _ =>
      simp [Stmt.children] at h
      rcases h with rfl | rfl <;> simp +arith
  | expression _ | declareFunction _ | declareClass _ | throwWith _ _ | labelled _ _ _ =>
      simp [Stmt.children] at h; subst h; simp +arith
  | jump _ | empty _ | debugger _ => simp [Stmt.children] at h

/-- A child of a node is smaller than the node. -/
theorem sizeOf_lt_of_mem_children {n c : Node} (h : c ∈ n.children) : sizeOf c < sizeOf n := by
  cases n with
  | program list => have := sizeOf_le_of_mem_map sizeOf_stmt_le h; simp; omega
  | stmt s => exact sizeOf_lt_of_mem_stmtChildren h
  | block b =>
      obtain ⟨_, list⟩ := b
      have := sizeOf_le_of_mem_map sizeOf_stmt_le h; simp; omega
  | expr e => exact sizeOf_lt_of_mem_exprChildren h
  | pattern p => exact sizeOf_lt_of_mem_patternChildren h
  | item i =>
      obtain ⟨target, value⟩ := i
      have := sizeOf_ofPattern_le target
      simp only [children, List.mem_cons] at h
      rcases h with rfl | h
      · simp; omega
      · have := sizeOf_le_of_mem_toList sizeOf_expr_le h; simp; omega
  | patternProperty p =>
      cases p with
      | short name value =>
          simp only [children, List.mem_cons] at h
          rcases h with rfl | h
          · cases value <;> simp +arith
          · have := sizeOf_le_of_mem_toList sizeOf_expr_le h; simp; omega
      | keyed key _ value =>
          have := sizeOf_ofItem_le value
          simp [children] at h
          rcases h with rfl | rfl <;> simp <;> omega
  | property p =>
      cases p with
      | short name value =>
          simp only [children, List.mem_cons] at h
          rcases h with rfl | h
          · cases value <;> simp +arith
          · have := sizeOf_le_of_mem_toList sizeOf_expr_le h; simp; omega
      | keyed key _ _ value =>
          simp [children] at h
          rcases h with rfl | rfl <;> simp +arith
      | spread inner => simp [children] at h; subst h; simp
  | function f =>
      obtain ⟨_, _, _, ps, b⟩ := f
      have := sizeOf_ofBody_le b
      simp [children] at h
      rcases h with rfl | rfl <;> simp <;> omega
  | params p =>
      obtain ⟨_, items, rest⟩ := p
      simp only [children, List.mem_append] at h
      rcases h with h | h
      · have := sizeOf_le_of_mem_map sizeOf_binding_le h; simp; omega
      · have := sizeOf_le_of_mem_toList sizeOf_ofPattern_le h; simp; omega
  | body b => cases b <;> simp [children] at h <;> subst h <;> simp
  | binding b =>
      obtain ⟨target, init⟩ := b
      have := sizeOf_ofPattern_le target
      simp only [children, List.mem_cons] at h
      rcases h with rfl | h
      · simp; omega
      · have := sizeOf_le_of_mem_toList sizeOf_expr_le h; simp; omega
  | classLiteral c =>
      obtain ⟨_, _, superclass, elements⟩ := c
      simp only [children, List.mem_append] at h
      rcases h with h | h
      · have := sizeOf_le_of_mem_toList sizeOf_expr_le h; simp; omega
      · have := sizeOf_le_of_mem_map sizeOf_element_le h; simp; omega
  | element e =>
      cases e with
      | field _ key init =>
          simp only [children, List.mem_cons] at h
          rcases h with rfl | h
          · simp; omega
          · have := sizeOf_le_of_mem_toList sizeOf_expr_le h; simp; omega
      | method _ key f =>
          simp [children] at h
          rcases h with rfl | rfl <;> simp +arith
      | staticBlock _ b =>
          simp only [children, List.mem_singleton] at h
          simp only [h, block.sizeOf_spec, element.sizeOf_spec,
            ClassElement.staticBlock.sizeOf_spec]
          omega
  | forInit i =>
      cases i with
      | expression value => simp [children] at h; subst h; simp
      | declareVar bindings | declareLexical _ bindings =>
          have := sizeOf_le_of_mem_map sizeOf_binding_le h; simp; omega
  | forTarget t =>
      cases t with
      | declareVar b => simp [children] at h; subst h; simp
      | declareLexical _ target | assign target =>
          have := sizeOf_ofPattern_le target
          simp [children] at h; subst h; simp; omega
  | clause c =>
      obtain ⟨_, test, list⟩ := c
      simp only [children, List.mem_append] at h
      rcases h with h | h
      · have := sizeOf_le_of_mem_toList sizeOf_expr_le h; simp; omega
      · have := sizeOf_le_of_mem_map sizeOf_stmt_le h; simp; omega
  | handler c =>
      obtain ⟨_, parameter, b⟩ := c
      simp only [children, List.mem_append, List.mem_singleton] at h
      rcases h with h | rfl
      · have := sizeOf_le_of_mem_toList sizeOf_ofPattern_le h; simp; omega
      · simp only [block.sizeOf_spec, handler.sizeOf_spec, Catch.mk.sizeOf_spec]; omega

end Node

end FrozenGlobals.Script
