import FrozenGlobals.Script.Program

/-!
# Hoisting

Before a script runs, one pass over its syntax finds what each block declares on entry: the `var`
names of function bodies and of the program, and the function declarations of every block. The
`ScopeTemplate` of a block is found by the offset of its opening brace, that of a `switch` by the
offset of the keyword, and that of the program by `Hoisting.root`.

A pass through a node is one `HoistStep`: what the node declares, what is visited around it, the
scope it opens and what is visited inside. `Node.sizeOf_lt_of_mem_hoistStep` is why the pass ends.
-/

namespace FrozenGlobals.Script

/-! ## Names bound by patterns -/

mutual

/-- The names a target declares, in source order. -/
def Pattern.names : Pattern → List String
  | .leaf (.identifier id) => [id.name]
  | .leaf _ => []
  | .array _ items rest => itemNames items ++ restNames rest
  | .object _ properties rest => propertyNames properties ++ restNames rest

def itemNames : List (Option PatternItem) → List String
  | [] => []
  | none :: items => itemNames items
  | some (.mk target _) :: items => target.names ++ itemNames items

def propertyNames : List PatternProperty → List String
  | [] => []
  | .short name _ :: items => name.name :: propertyNames items
  | .keyed _ _ (.mk target _) :: items => target.names ++ propertyNames items

def restNames : Option Pattern → List String
  | none => []
  | some target => target.names

end

/-- The names declarators declare. -/
def Binding.names (bindings : List Binding) : List String :=
  (bindings.map fun b => b.target.names).flatten

/-- The names of a parameter list. -/
def Params.names (p : Params) : List String :=
  Binding.names p.items ++ restNames p.rest

/-! ## Templates -/

/-- What is declared on entering a block. -/
structure ScopeTemplate where
  /-- The offset that identifies the block. -/
  start : Int
  /-- The `var` names of a function body or program, each once. -/
  vars : List String
  functions : List Function
  /-- Names that no `var` of the body declares again. -/
  params : List String
deriving Inhabited

namespace ScopeTemplate

/-- Adds a `var` name unless it is a parameter or known already. -/
def addVar (t : ScopeTemplate) (name : String) : ScopeTemplate :=
  if t.params.contains name || t.vars.contains name then t
  else { t with vars := t.vars ++ [name] }

def addFunction (t : ScopeTemplate) (fn : Function) : ScopeTemplate :=
  { t with functions := t.functions ++ [fn] }

/-- The names of the functions declared. -/
def functionNames (t : ScopeTemplate) : List String :=
  t.functions.filterMap fun fn => fn.name.map (·.name)

end ScopeTemplate

/-- The templates of a program in the order in which their blocks are met. -/
structure Hoisting where
  templates : List ScopeTemplate
deriving Inhabited

namespace Hoisting

/-- The key of the program's own scope. -/
def root : Int := -1

/-- The template of a block. -/
def find? (h : Hoisting) (start : Int) : Option ScopeTemplate :=
  h.templates.find? fun t => t.start == start

/-- Changes the template of a block. -/
def update (h : Hoisting) (start : Int) (f : ScopeTemplate → ScopeTemplate) : Hoisting :=
  ⟨h.templates.map fun t => if t.start == start then f t else t⟩

/-- Adds an empty template. -/
def add (h : Hoisting) (start : Int) (params : List String) : Hoisting :=
  ⟨h.templates ++ [{ start, vars := [], functions := [], params }]⟩

/-- The templates by ascending offset. -/
def sorted (h : Hoisting) : List ScopeTemplate :=
  h.templates.mergeSort fun a b => a.start ≤ b.start

end Hoisting

/-! ## The pass -/

/-- What the pass does at a node. -/
structure HoistStep where
  /-- `var` names declared here. -/
  vars : List String
  /-- Functions declared here. -/
  functions : List Function
  /-- Nodes visited in the scopes around the node. -/
  around : List Node
  /-- The scope the node opens. -/
  opens : Option Int
  /-- The scope is that of a function body, with these parameters. -/
  params : Option (List String)
  /-- Nodes visited in the scope. -/
  inside : List Node

namespace HoistStep

/-- A step that opens no scope. -/
def through (vars : List String) (around : List Node) : HoistStep :=
  { vars, functions := [], around, opens := none, params := none, inside := [] }

/-- A step that opens the scope of a block. -/
def block (start : Int) (around inside : List Node) : HoistStep :=
  { vars := [], functions := [], around, opens := some start, params := none, inside }

/-- The initializers of parameters. Defaults inside patterns are not among them. -/
def initializers (params : Params) : List Node :=
  params.items.filterMap fun b => b.init.map .expr

/-- A function opens the scope of its body; an arrow without a block opens none. -/
def function (fn : Function) : HoistStep :=
  match fn.body with
  | .block b =>
      { vars := [], functions := [], around := [], opens := some b.start
        params := some fn.params.names
        inside := initializers fn.params ++ b.body.map .stmt }
  | .expression value => through [] (initializers fn.params ++ [.expr value])

end HoistStep

/-- What the pass does at a node. -/
def Node.hoistStep : Node → HoistStep
  | .block b => .block b.start [] (b.body.map .stmt)
  | .stmt (.block b) => .block b.start [] (b.body.map .stmt)
  | .stmt (.switchOn span subject cases) =>
      .block span.start [.expr subject] (cases.map .clause)
  | .stmt (.declareFunction fn) => { HoistStep.function fn with functions := [fn] }
  | .function fn => .function fn
  | .expr (.function fn) => .function fn
  | .stmt (.declareVar span bindings) =>
      .through (Binding.names bindings) (Node.stmt (.declareVar span bindings)).children
  | .forInit (.declareVar bindings) =>
      .through (Binding.names bindings) (Node.forInit (.declareVar bindings)).children
  | .forTarget (.declareVar b) =>
      .through b.target.names (Node.forTarget (.declareVar b)).children
  | n => .through [] n.children

/-- The nodes a step visits. -/
def HoistStep.parts (step : HoistStep) : List Node := step.around ++ step.inside

namespace Node

theorem sizeOf_lt_of_mem_initializers {params : Params} {c : Node}
    (h : c ∈ HoistStep.initializers params) : sizeOf c < sizeOf (Node.params params) := by
  simp only [HoistStep.initializers, List.mem_filterMap, Option.map_eq_some_iff] at h
  obtain ⟨b, hb, e, he, rfl⟩ := h
  have h₂ : sizeOf (Node.binding b) < sizeOf (Node.params params) :=
    sizeOf_lt_of_mem_children (by cases params; simp_all [children, Params.items])
  have h₃ : sizeOf (Node.expr e) < sizeOf (Node.binding b) :=
    sizeOf_lt_of_mem_children (by cases b; simp_all [children, Binding.init])
  omega

theorem sizeOf_lt_of_mem_body {b : Block} {c : Node} (h : c ∈ b.body.map Node.stmt) :
    sizeOf c < sizeOf (Node.block b) :=
  sizeOf_lt_of_mem_children (by cases b; simpa [children, Block.body] using h)

theorem sizeOf_lt_of_mem_function {fn : Function} {c : Node}
    (h : c ∈ (HoistStep.function fn).parts) : sizeOf c < sizeOf (Node.function fn) := by
  obtain ⟨span, isArrow, name, params, body⟩ := fn
  have hp : sizeOf (Node.params params)
      < sizeOf (Node.function (.mk span isArrow name params body)) :=
    sizeOf_lt_of_mem_children (by simp [children])
  have hb : sizeOf (ofBody body) < sizeOf (Node.function (.mk span isArrow name params body)) :=
    sizeOf_lt_of_mem_children (by simp [children])
  cases body with
  | block b =>
      simp only [HoistStep.parts, HoistStep.function, Function.body, Function.params,
        List.nil_append, List.mem_append] at h
      rcases h with h | h
      · have := sizeOf_lt_of_mem_initializers h
        omega
      · have := sizeOf_lt_of_mem_body h
        simp only [ofBody] at hb
        omega
  | expression value =>
      simp only [HoistStep.parts, HoistStep.function, HoistStep.through, Function.body,
        Function.params, List.append_nil, List.mem_append, List.mem_singleton] at h
      rcases h with h | rfl
      · have := sizeOf_lt_of_mem_initializers h
        omega
      · have : sizeOf (Node.expr value) < sizeOf (ofBody (.expression value)) :=
          sizeOf_lt_of_mem_children (by simp [ofBody, children])
        omega

/-- The pass only visits smaller nodes. -/
theorem sizeOf_lt_of_mem_hoistStep {n c : Node} (h : c ∈ n.hoistStep.parts) :
    sizeOf c < sizeOf n := by
  unfold hoistStep at h
  split at h
  case h_1 b => exact sizeOf_lt_of_mem_body (by simpa [HoistStep.parts, HoistStep.block] using h)
  case h_2 b =>
    have := @sizeOf_lt_of_mem_body b c
      (by simpa [HoistStep.parts, HoistStep.block] using h)
    simp only [Node.block.sizeOf_spec, Node.stmt.sizeOf_spec, Stmt.block.sizeOf_spec] at this ⊢
    omega
  case h_3 span subject cases =>
    exact sizeOf_lt_of_mem_children
      (by simpa [HoistStep.parts, HoistStep.block, children, Stmt.children] using h)
  case h_4 fn =>
    have := @sizeOf_lt_of_mem_function fn c h
    simp only [Node.function.sizeOf_spec, Node.stmt.sizeOf_spec,
      Stmt.declareFunction.sizeOf_spec] at this ⊢
    omega
  case h_5 fn => exact sizeOf_lt_of_mem_function h
  case h_6 fn =>
    have := @sizeOf_lt_of_mem_function fn c h
    simp only [Node.function.sizeOf_spec, Node.expr.sizeOf_spec,
      Expr.function.sizeOf_spec] at this ⊢
    omega
  all_goals
    exact sizeOf_lt_of_mem_children
      (by simpa only [HoistStep.parts, HoistStep.through, List.append_nil] using h)

end Node

/-- Records what is declared under a node. `block` is the innermost scope around it, and `vars`
that of the function body or program. -/
def Hoisting.visit (h : Hoisting) (block vars : Int) (n : Node) : Hoisting :=
  let step := n.hoistStep
  let h := h.update vars fun t => step.vars.foldl ScopeTemplate.addVar t
  let h := h.update block fun t => step.functions.foldl ScopeTemplate.addFunction t
  let h := step.around.attach.foldl (fun h ⟨c, _⟩ => visit h block vars c) h
  match step.opens with
  | none => h
  | some start =>
      let h := h.add start (step.params.getD [])
      let vars := if step.params.isSome then start else vars
      step.inside.attach.foldl (fun h ⟨c, _⟩ => visit h start vars c) h
termination_by sizeOf n
decreasing_by
  · exact Node.sizeOf_lt_of_mem_hoistStep (List.mem_append_left _ ‹_›)
  · exact Node.sizeOf_lt_of_mem_hoistStep (List.mem_append_right _ ‹_›)

/-- The templates of a program. -/
def Program.hoisting (p : Program) : Hoisting :=
  p.body.foldl (fun h s => h.visit Hoisting.root Hoisting.root (.stmt s))
    (Hoisting.mk [] |>.add Hoisting.root [])

end FrozenGlobals.Script
