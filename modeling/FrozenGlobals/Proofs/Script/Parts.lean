import FrozenGlobals.Script.Hoisting
import FrozenGlobals.Script.Node.Height
import Mathlib.Logic.Relation

/-!
# Parts of syntax trees

What running a node may run. `Node.parts` are the children that are run along with it: what stands
inside a function is run when the function is called (`Function.runs`), and class bodies are never
run. A node `Node.Reaches` all that it may run or have run by calls.

`Node.Reaches.height_le` bounds the height of what is reached. `Program.reaches_of_hoisted` says
that the functions that a block declares on entry are reached from the program, and
`Program.find?_isSome_of_reaches` that the blocks reached have a template if parameters are names.
-/

namespace FrozenGlobals

/-- What is at most the start or a member of a list is at most the maximum. -/
theorem le_foldl_max {l : List Nat} {k x : Nat} (h : x ≤ k ∨ x ∈ l) : x ≤ l.foldl max k := by
  induction l generalizing k with
  | nil => exact h.resolve_right nofun
  | cons y l ih =>
    refine ih ?_
    rcases h with h | h
    · exact .inl (Nat.le_trans h (Nat.le_max_left ..))
    · rcases List.mem_cons.1 h with rfl | h
      · exact .inl (Nat.le_max_right ..)
      · exact .inr h

namespace Script

namespace Node

/-! ## Heights -/

/-- A child is less high than its parent. -/
theorem height_lt_of_mem_children {n c : Node} (h : c ∈ n.children) : c.height < n.height := by
  have hmem : c.height ∈ n.children.attach.map fun d => d.1.height :=
    List.mem_map.2 ⟨⟨c, h⟩, List.mem_attach _ _, rfl⟩
  conv => rhs; rw [Node.height]
  exact Nat.lt_of_le_of_lt (le_foldl_max (.inr hmem)) (Nat.lt_add_of_pos_left Nat.one_pos)

/-- Every node has a positive height. -/
theorem height_pos (n : Node) : 0 < n.height := by
  rw [Node.height]
  omega

/-! ## What running a node runs -/

/-- The children that running a node may run. -/
def parts : Node → List Node
  | .function _ | .expr (.function _) | .classLiteral _ => []
  | .expr (.classLiteral cls) => cls.superclass.toList.map .expr
  | n => n.children

/-- What is run along with a node is a child of it. -/
theorem mem_children_of_mem_parts {n c : Node} (h : c ∈ n.parts) : c ∈ n.children := by
  unfold parts at h
  split at h
  · cases h
  · cases h
  · cases h
  · next cls =>
    obtain ⟨span, name, superclass, elements⟩ := cls
    exact List.mem_append_left _ h
  · exact h

/-- A node is run when another one is, unless a function stands in between. -/
def Within (n c : Node) : Prop := Relation.ReflTransGen (fun n c => c ∈ n.parts) n c

/-- A node is run when it is run. -/
theorem Within.refl (n : Node) : n.Within n := Relation.ReflTransGen.refl

/-- What is run when a part is run is run with the node. -/
theorem Within.of_part {n c d : Node} (hc : c ∈ n.parts) (h : c.Within d) : n.Within d :=
  Relation.ReflTransGen.head hc h

/-- Being run with another node is transitive. -/
theorem Within.trans {n c d : Node} (h : n.Within c) (hd : c.Within d) : n.Within d :=
  Relation.ReflTransGen.trans h hd

/-- What is run with a node is at most as high. -/
theorem Within.height_le {n c : Node} (h : n.Within c) : c.height ≤ n.height := by
  induction h with
  | refl => exact Nat.le_refl _
  | tail _ hc ih =>
    have := height_lt_of_mem_children (mem_children_of_mem_parts hc)
    omega

end Node

/-- What a call of a function may run. Parameters that are not names are bound only where constructs
that cannot be modelled are passed over. -/
def Function.runs (strict : Bool) (fn : Function) : List Node :=
  if strict then HoistStep.initializers fn.params ++ [.ofBody fn.body]
  else [.params fn.params, .ofBody fn.body]

/-- The body is run when the function is called. -/
theorem Function.ofBody_mem_runs (strict : Bool) (fn : Function) :
    Node.ofBody fn.body ∈ fn.runs strict := by
  unfold runs
  split <;> simp

namespace Node

/-- The statements of a block are children of it. -/
theorem mem_children_of_mem_body {b : Block} {c : Node} (h : c ∈ b.body.map Node.stmt) :
    c ∈ (Node.block b).children := by
  cases b
  exact h

/-- The children of a function are its parameters and its body. -/
theorem children_function (fn : Function) :
    (Node.function fn).children = [.params fn.params, .ofBody fn.body] := by
  cases fn
  rfl

/-- A function expression has the children of the function. -/
theorem children_expr_function (fn : Function) :
    (Node.expr (.function fn)).children = (Node.function fn).children := by
  cases fn
  rfl

/-- What running a node may run, at once or in calls. -/
def reach (strict : Bool) : Node → List Node
  | .function fn | .expr (.function fn) => fn.runs strict
  | n => n.children

/-- A node may be run when another one is, at once or in calls. -/
def Reaches (strict : Bool) (root n : Node) : Prop :=
  Relation.ReflTransGen (fun n c => c ∈ n.reach strict) root n

variable {strict : Bool}

/-- A node is reached from itself. -/
theorem Reaches.refl (n : Node) : n.Reaches strict n := Relation.ReflTransGen.refl

/-- What a node that is reached reaches in one step is reached. -/
theorem Reaches.tail {root n c : Node} (h : root.Reaches strict n) (hc : c ∈ n.reach strict) :
    root.Reaches strict c := Relation.ReflTransGen.tail h hc

/-- What is reached from a node one step away is reached. -/
theorem Reaches.head {n c d : Node} (hc : c ∈ n.reach strict) (h : c.Reaches strict d) :
    n.Reaches strict d := Relation.ReflTransGen.head hc h

/-- Being reached is transitive. -/
theorem Reaches.trans {root n c : Node} (h : root.Reaches strict n) (hc : n.Reaches strict c) :
    root.Reaches strict c := Relation.ReflTransGen.trans h hc

/-- What is run at once is reached. -/
theorem mem_reach_of_mem_parts {n c : Node} (h : c ∈ n.parts) : c ∈ n.reach strict := by
  have hc := mem_children_of_mem_parts h
  unfold reach
  split
  · cases h
  · cases h
  · exact hc

/-- What is run along with what is reached is reached. -/
theorem Reaches.within {root n c : Node} (h : root.Reaches strict n) (hc : n.Within c) :
    root.Reaches strict c := by
  induction hc with
  | refl => exact h
  | tail _ hc ih => exact ih.tail (mem_reach_of_mem_parts hc)

/-- The initializers of parameters stand in bindings. -/
theorem exists_binding_of_mem_initializers {params : Params} {c : Node}
    (h : c ∈ HoistStep.initializers params) :
    ∃ b, Node.binding b ∈ (Node.params params).children ∧ c ∈ (Node.binding b).children := by
  simp only [HoistStep.initializers, List.mem_filterMap, Option.map_eq_some_iff] at h
  obtain ⟨b, hb, e, he, rfl⟩ := h
  refine ⟨b, ?_, ?_⟩
  · cases params
    simp_all [children, Params.items]
  · cases b
    simp_all [children, Binding.init]

/-- What a call of a function runs is less high than the function. -/
theorem height_lt_of_mem_runs {fn : Function} {n c : Node}
    (hn : n.children = (Node.function fn).children) (h : c ∈ fn.runs strict) :
    c.height < n.height := by
  have hparams : (Node.params fn.params).height < n.height :=
    height_lt_of_mem_children (by simp [hn, children_function])
  have hbody : (Node.ofBody fn.body).height < n.height :=
    height_lt_of_mem_children (by simp [hn, children_function])
  unfold Function.runs at h
  split at h
  · rcases List.mem_append.1 h with h | h
    · obtain ⟨b, hb, hc⟩ := exists_binding_of_mem_initializers h
      have hb := height_lt_of_mem_children hb
      have hc := height_lt_of_mem_children hc
      omega
    · rwa [List.mem_singleton.1 h]
  · simp only [List.mem_cons, List.not_mem_nil, or_false] at h
    rcases h with rfl | rfl
    · exact hparams
    · exact hbody

/-- What is reached is less high. -/
theorem height_lt_of_mem_reach {n c : Node} (h : c ∈ n.reach strict) : c.height < n.height := by
  unfold reach at h
  split at h
  · exact height_lt_of_mem_runs rfl h
  · exact height_lt_of_mem_runs (children_expr_function _) h
  · exact height_lt_of_mem_children h

/-- What is reached is at most as high. -/
theorem Reaches.height_le {root n : Node} (h : root.Reaches strict n) :
    n.height ≤ root.height := by
  induction h with
  | refl => exact Nat.le_refl _
  | tail _ hc ih => exact Nat.le_trans (Nat.le_of_lt (height_lt_of_mem_reach hc)) ih

/-! ## What the hoisting pass visits -/

/-- What the pass visits in a function is reached by calls of it. -/
theorem reaches_of_mem_function {fn : Function} {c : Node}
    (h : c ∈ (HoistStep.function fn).parts) :
    ∃ d ∈ fn.runs strict, d.Reaches strict c := by
  have hinit : c ∈ HoistStep.initializers fn.params → ∃ d ∈ fn.runs strict, d.Reaches strict c := by
    intro h
    unfold Function.runs
    split
    · exact ⟨c, List.mem_append_left _ h, .refl c⟩
    · obtain ⟨b, hb, hc⟩ := exists_binding_of_mem_initializers h
      exact ⟨.params fn.params, by simp, .head hb (.head hc (.refl c))⟩
  unfold HoistStep.function at h
  split at h
  · next b hbody =>
    simp only [HoistStep.parts, List.nil_append, List.mem_append] at h
    rcases h with h | h
    · exact hinit h
    · refine ⟨.block b, ?_, .head (mem_children_of_mem_body h) (.refl c)⟩
      simpa [hbody, ofBody] using fn.ofBody_mem_runs strict
  · next value hbody =>
    simp only [HoistStep.parts, HoistStep.through, List.append_nil, List.mem_append,
      List.mem_singleton] at h
    rcases h with h | rfl
    · exact hinit h
    · refine ⟨.body (.expression value), ?_, .head (by simp [reach, children]) (.refl _)⟩
      simpa [hbody, ofBody] using fn.ofBody_mem_runs strict

/-- What the pass visits from a node is reached from it. -/
theorem reaches_of_mem_hoistStep {n c : Node} (h : c ∈ n.hoistStep.parts) :
    n.Reaches strict c := by
  unfold hoistStep at h
  split at h
  case h_1 b =>
    refine .head (mem_children_of_mem_body ?_) (.refl c)
    simpa [HoistStep.parts, HoistStep.block] using h
  case h_2 b =>
    obtain ⟨span, list⟩ := b
    refine .head ?_ (.refl c)
    simpa [HoistStep.parts, HoistStep.block, reach, children, Stmt.children, Block.body] using h
  case h_3 span subject cases =>
    refine .head ?_ (.refl c)
    simpa [HoistStep.parts, HoistStep.block, reach, children, Stmt.children] using h
  case h_4 fn =>
    obtain ⟨d, hd, hc⟩ := reaches_of_mem_function h
    exact .head (c := .function fn) (by simp [reach, children, Stmt.children]) (.head hd hc)
  case h_5 fn | h_6 fn =>
    obtain ⟨d, hd, hc⟩ := reaches_of_mem_function h
    exact .head hd hc
  case h_10 n _ _ _ _ hfn hexpr _ _ _ =>
    refine .head ?_ (.refl c)
    unfold reach
    split
    · exact absurd rfl (hfn _)
    · exact absurd rfl (hexpr _)
    · simpa only [HoistStep.parts, HoistStep.through, List.append_nil] using h
  all_goals
    refine .head ?_ (.refl c)
    simpa only [reach, HoistStep.parts, HoistStep.through, List.append_nil] using h

/-- Functions declared on entry of a block are reached from where they are declared. -/
theorem reaches_of_mem_hoistStep_functions {n : Node} {fn : Function}
    (h : fn ∈ n.hoistStep.functions) : n.Reaches strict (.function fn) := by
  unfold hoistStep at h
  split at h
  case h_4 f =>
    rw [List.mem_singleton.1 h]
    exact .head (by simp [reach, children, Stmt.children]) (.refl _)
  case h_5 f | h_6 f =>
    unfold HoistStep.function HoistStep.through at h
    split at h <;> cases h
  all_goals cases h

/-- A step that opens no scope visits nothing inside. -/
theorem inside_hoistStep {n : Node} (h : n.hoistStep.opens = none) : n.hoistStep.inside = [] := by
  have hfn : ∀ fn : Function, (HoistStep.function fn).opens = none →
      (HoistStep.function fn).inside = [] := by
    intro fn
    unfold HoistStep.function
    cases fn.body with
    | block b => exact nofun
    | expression value => exact fun _ => rfl
  unfold hoistStep at h ⊢
  split at h
  case h_1 | h_2 | h_3 => cases h
  case h_4 fn | h_5 fn | h_6 fn => exact hfn fn h
  all_goals rfl

/-- A call of a function whose parameters are names runs what the pass visits. The body is visited
along with the function. -/
theorem opens_or_visits_function {fn : Function} {d c : Node} {start : Int}
    (hd : d ∈ fn.runs true) (hc : d.Reaches true c) (ho : c.hoistStep.opens = some start) :
    (HoistStep.function fn).opens = some start ∨
      ∃ e ∈ (HoistStep.function fn).parts, e.Reaches true c := by
  have hvisits : ∀ e ∈ HoistStep.initializers fn.params, e ∈ (HoistStep.function fn).parts := by
    intro e he
    unfold HoistStep.function
    split <;> simp [HoistStep.parts, HoistStep.through, he]
  rcases List.mem_append.1 (hd : d ∈ HoistStep.initializers fn.params ++ _) with hd | hd
  · exact .inr ⟨d, hvisits d hd, hc⟩
  · rw [List.mem_singleton] at hd
    subst hd
    revert hc
    unfold HoistStep.function
    cases fn.body with
    | block b =>
      intro hc
      rcases Relation.ReflTransGen.cases_head hc with rfl | ⟨e, he, hc⟩
      · exact .inl ho
      · refine .inr ⟨e, List.mem_append_right _ (List.mem_append_right _ ?_), hc⟩
        obtain ⟨span, list⟩ := b
        exact he
    | expression value =>
      intro hc
      rcases Relation.ReflTransGen.cases_head hc with rfl | ⟨e, he, hc⟩
      · cases ho
      · refine .inr ⟨e, ?_, hc⟩
        have he : e = .expr value := List.mem_singleton.1 he
        simp [HoistStep.parts, HoistStep.through, he]

/-- Where parameters are names, what is reached from a node is reached from what the pass visits,
unless the pass opens its scope at the node. -/
theorem opens_or_visits {n c : Node} {start : Int} (h : n.Reaches true c)
    (ho : c.hoistStep.opens = some start) :
    n.hoistStep.opens = some start ∨ ∃ e ∈ n.hoistStep.parts, e.Reaches true c := by
  rcases Relation.ReflTransGen.cases_head h with rfl | ⟨d, hd, hc⟩
  · exact .inl ho
  · unfold hoistStep
    split
    case h_1 b =>
      obtain ⟨span, list⟩ := b
      exact .inr ⟨d, hd, hc⟩
    case h_2 b =>
      obtain ⟨span, list⟩ := b
      exact .inr ⟨d, hd, hc⟩
    case h_3 => exact .inr ⟨d, hd, hc⟩
    case h_4 fn =>
      have hd : d = .function fn := List.mem_singleton.1 hd
      subst hd
      rcases Relation.ReflTransGen.cases_head hc with rfl | ⟨e, he, hc⟩
      · exact .inl ho
      · exact opens_or_visits_function he hc ho
    case h_5 fn | h_6 fn => exact opens_or_visits_function hd hc ho
    case h_10 n _ _ _ _ hfn hexpr _ _ _ =>
      refine .inr ⟨d, ?_, hc⟩
      unfold reach at hd
      split at hd
      · exact absurd rfl (hfn _)
      · exact absurd rfl (hexpr _)
      · exact List.mem_append_left _ hd
    all_goals exact .inr ⟨d, List.mem_append_left _ hd, hc⟩

end Node

namespace Hoisting

/-- Every function that a block declares on entry has a property. -/
def Declares (h : Hoisting) (P : Function → Prop) : Prop :=
  ∀ t ∈ h.templates, ∀ fn ∈ t.functions, P fn

variable {P : Function → Prop} {h : Hoisting}

/-- A change of a template that keeps a property of its functions keeps it for all templates. -/
theorem Declares.update (hd : h.Declares P) (start : Int) {f : ScopeTemplate → ScopeTemplate}
    (hf : ∀ t : ScopeTemplate, (∀ fn ∈ t.functions, P fn) → ∀ fn ∈ (f t).functions, P fn) :
    (h.update start f).Declares P := by
  intro t ht
  obtain ⟨u, hu, rfl⟩ := List.mem_map.1 ht
  split
  · exact hf u (hd u hu)
  · exact hd u hu

/-- A new template declares no functions yet. -/
theorem Declares.add (hd : h.Declares P) (start : Int) (params : List String) :
    (h.add start params).Declares P := by
  intro t ht
  rcases List.mem_append.1 ht with ht | ht
  · exact hd t ht
  · rw [List.mem_singleton.1 ht]
    exact nofun

/-- `var` names add no functions. -/
theorem functions_foldl_addVar (vars : List String) (t : ScopeTemplate) :
    (vars.foldl ScopeTemplate.addVar t).functions = t.functions := by
  induction vars generalizing t with
  | nil => rfl
  | cons v vars ih =>
    rw [List.foldl_cons, ih]
    unfold ScopeTemplate.addVar
    split <;> rfl

/-- Functions that are declared are added at the end. -/
theorem functions_foldl_addFunction (fns : List Function) (t : ScopeTemplate) :
    (fns.foldl ScopeTemplate.addFunction t).functions = t.functions ++ fns := by
  induction fns generalizing t with
  | nil => simp
  | cons fn fns ih =>
    rw [List.foldl_cons, ih]
    simp [ScopeTemplate.addFunction]

/-- A loop keeps a property of declared functions if its steps do. -/
theorem Declares.foldl {α : Type} (xs : List α) {f : Hoisting → α → Hoisting}
    (hd : h.Declares P) (hf : ∀ x ∈ xs, ∀ h : Hoisting, h.Declares P → (f h x).Declares P) :
    (xs.foldl f h).Declares P := by
  induction xs generalizing h with
  | nil => exact hd
  | cons x xs ih =>
    exact ih (hf x (by simp) h hd) fun y hy => hf y (List.mem_cons_of_mem _ hy)

/-- The pass through a node records functions that are reached from it. -/
theorem Declares.visit (strict : Bool) (n : Node) {h : Hoisting} (hd : h.Declares P)
    (block vars : Int)
    (hn : ∀ fn, n.Reaches strict (.function fn) → P fn) :
    (Hoisting.visit h block vars n).Declares P := by
  have below : ∀ c ∈ n.hoistStep.parts, ∀ fn, c.Reaches strict (.function fn) → P fn :=
    fun c hc fn h => hn fn ((Node.reaches_of_mem_hoistStep hc).trans h)
  have hvars : (h.update vars fun t => n.hoistStep.vars.foldl .addVar t).Declares P :=
    hd.update _ fun t ht => by rwa [functions_foldl_addVar]
  have hfns := hvars.update block
    (f := fun t => n.hoistStep.functions.foldl .addFunction t) fun t ht fn hfn => by
      rw [functions_foldl_addFunction, List.mem_append] at hfn
      exact hfn.elim (ht fn) fun h => hn fn (Node.reaches_of_mem_hoistStep_functions h)
  rw [Hoisting.visit]
  have haround := hfns.foldl n.hoistStep.around.attach
    (f := fun h c => Hoisting.visit h block vars c.1)
    fun c _ h hd => hd.visit strict c.1 block vars (below c.1 (List.mem_append_left _ c.2))
  cases n.hoistStep.opens with
  | none => exact haround
  | some start =>
    refine (haround.add start _).foldl _ fun c _ h hd => ?_
    exact hd.visit strict c.1 start _ (below c.1 (List.mem_append_right _ c.2))
termination_by sizeOf n
decreasing_by
  · exact Node.sizeOf_lt_of_mem_hoistStep (List.mem_append_left _ c.2)
  · exact Node.sizeOf_lt_of_mem_hoistStep (List.mem_append_right _ c.2)

/-! ## Templates of blocks -/

/-- The offsets that name the scopes with a template, in the order they were opened. -/
def starts (h : Hoisting) : List Int := h.templates.map (·.start)

/-- A block has a template. -/
def Has (h : Hoisting) (start : Int) : Prop := ∃ t ∈ h.templates, t.start = start

/-- A scope with a template is found. -/
theorem Has.isSome_find? {start : Int} (hs : h.Has start) : (h.find? start).isSome := by
  obtain ⟨t, ht, rfl⟩ := hs
  exact List.find?_isSome.2 ⟨t, ht, by simp⟩

/-- Changing templates in place takes none away. -/
theorem Has.update {start : Int} (hs : h.Has start) (at' : Int) {f : ScopeTemplate → ScopeTemplate}
    (hf : ∀ t, (f t).start = t.start) : (h.update at' f).Has start := by
  obtain ⟨t, ht, rfl⟩ := hs
  refine ⟨_, List.mem_map_of_mem ht, ?_⟩
  split
  · exact hf t
  · rfl

/-- A new template takes none away. -/
theorem Has.add {start : Int} (hs : h.Has start) (at' : Int) (params : List String) :
    (h.add at' params).Has start := by
  obtain ⟨t, ht, rfl⟩ := hs
  exact ⟨t, List.mem_append_left _ ht, rfl⟩

/-- A scope that was added has a template. -/
theorem has_add (h : Hoisting) (start : Int) (params : List String) :
    (h.add start params).Has start := ⟨_, List.mem_append_right _ (List.mem_singleton_self _), rfl⟩

/-- Adding `var` names keeps the offset that names the scope. -/
theorem start_foldl_addVar (vars : List String) (t : ScopeTemplate) :
    (vars.foldl ScopeTemplate.addVar t).start = t.start := by
  induction vars generalizing t with
  | nil => rfl
  | cons v vars ih =>
    rw [List.foldl_cons, ih]
    unfold ScopeTemplate.addVar
    split <;> rfl

/-- Adding functions keeps the offset that names the scope. -/
theorem start_foldl_addFunction (fns : List Function) (t : ScopeTemplate) :
    (fns.foldl ScopeTemplate.addFunction t).start = t.start := by
  induction fns generalizing t with
  | nil => rfl
  | cons fn fns ih =>
    rw [List.foldl_cons, ih]
    rfl

/-- A loop that keeps templates has one that its start has, or one of its steps makes. -/
theorem has_foldl {α : Type} (xs : List α) (f : Hoisting → α → Hoisting) (h : Hoisting)
    {start : Int} (hk : ∀ h x, x ∈ xs → h.Has start → (f h x).Has start)
    (hs : h.Has start ∨ ∃ x ∈ xs, ∀ h, (f h x).Has start) : (xs.foldl f h).Has start := by
  induction xs generalizing h with
  | nil => exact hs.resolve_right nofun
  | cons x xs ih =>
    refine ih _ (fun h y hy => hk h y (List.mem_cons_of_mem _ hy)) ?_
    rcases hs with hs | ⟨y, hy, hmakes⟩
    · exact .inl (hk h x (by simp) hs)
    · rcases List.mem_cons.1 hy with rfl | hy
      · exact .inl (hmakes h)
      · exact .inr ⟨y, hy, hmakes⟩

/-- The pass through a node keeps templates, makes those of the scopes it opens, and those that the
passes through the nodes it visits make. -/
theorem has_visit {start : Int} (n : Node) (h : Hoisting) (block vars : Int)
    (hs : h.Has start ∨ n.hoistStep.opens = some start ∨
      ∃ c ∈ n.hoistStep.parts, ∀ h block vars, (visit h block vars c).Has start) :
    (visit h block vars n).Has start := by
  have hkeep : ∀ h block vars, ∀ c ∈ n.hoistStep.parts, h.Has start →
      (visit h block vars c).Has start := fun h block vars c _ hs =>
    has_visit c h block vars (.inl hs)
  have hdeclared : h.Has start → ((h.update vars fun t => n.hoistStep.vars.foldl .addVar t).update
      block fun t => n.hoistStep.functions.foldl .addFunction t).Has start := fun hs =>
    (hs.update _ (start_foldl_addVar _)).update _ (start_foldl_addFunction _)
  rw [visit]
  have haround := fun h => has_foldl n.hoistStep.around.attach (fun h c => visit h block vars c.1) h
    fun h c _ hs => hkeep h block vars c.1 (List.mem_append_left _ c.2) hs
  have hinside := fun block vars h => has_foldl n.hoistStep.inside.attach
    (fun h c => visit h block vars c.1) h
    fun h c _ hs => hkeep h block vars c.1 (List.mem_append_right _ c.2) hs
  cases ho : n.hoistStep.opens with
  | none =>
    refine haround _ ?_
    rcases hs with hs | hs | ⟨c, hc, hmakes⟩
    · exact .inl (hdeclared hs)
    · rw [ho] at hs
      cases hs
    · rw [HoistStep.parts, Node.inside_hoistStep ho, List.append_nil] at hc
      exact .inr ⟨⟨c, hc⟩, List.mem_attach _ _, fun h => hmakes h _ _⟩
  | some start' =>
    refine hinside _ _ _ ?_
    rcases hs with hs | hs | ⟨c, hc, hmakes⟩
    · exact .inl ((haround _ (.inl (hdeclared hs))).add _ _)
    · rw [ho] at hs
      cases hs
      exact .inl (has_add _ _ _)
    · rcases List.mem_append.1 hc with hc | hc
      · refine .inl ((haround _ (.inr ?_)).add _ _)
        exact ⟨⟨c, hc⟩, List.mem_attach _ _, fun h => hmakes h _ _⟩
      · exact .inr ⟨⟨c, hc⟩, List.mem_attach _ _, fun h => hmakes h _ _⟩
termination_by sizeOf n
decreasing_by exact Node.sizeOf_lt_of_mem_hoistStep ‹_›

end Hoisting

/-- The scopes opened by what is reached from a node get templates, where parameters are names. -/
theorem Hoisting.has_visit_of_reaches {start : Int} (n : Node) {c : Node} (hc : n.Reaches true c)
    (ho : c.hoistStep.opens = some start) (h : Hoisting) (block vars : Int) :
    (visit h block vars n).Has start := by
  rcases Node.opens_or_visits hc ho with hopens | ⟨e, he, hc⟩
  · exact has_visit n h block vars (.inr (.inl hopens))
  · exact has_visit n h block vars
      (.inr (.inr ⟨e, he, fun h block vars => has_visit_of_reaches e hc ho h block vars⟩))
termination_by sizeOf n
decreasing_by exact Node.sizeOf_lt_of_mem_hoistStep he

/-- The functions that blocks of a program declare on entry are reached from it. -/
theorem Program.reaches_of_hoisted (p : Program) (strict : Bool) :
    p.hoisting.Declares fun fn => (Node.program p.body).Reaches strict (.function fn) := by
  have hroot : ((Hoisting.mk []).add Hoisting.root []).Declares fun fn =>
      (Node.program p.body).Reaches strict (.function fn) := Hoisting.Declares.add nofun _ _
  refine hroot.foldl _ fun s hs h hd => hd.visit strict _ _ _ fun fn hfn => ?_
  exact .head (List.mem_map_of_mem hs) hfn

/-- The root of a program has a template. -/
theorem Program.find?_root_isSome (p : Program) : (p.hoisting.find? Hoisting.root).isSome :=
  (Hoisting.has_foldl _ _ _ (fun h s _ hs => Hoisting.has_visit (.stmt s) h _ _ (.inl hs))
    (.inl (Hoisting.has_add _ _ _))).isSome_find?

/-- The blocks reached from a program have templates, where parameters are names. -/
theorem Program.find?_isSome_of_reaches (p : Program) {n : Node} {start : Int}
    (hn : (Node.program p.body).Reaches true n) (ho : n.hoistStep.opens = some start) :
    (p.hoisting.find? start).isSome := by
  rcases Node.opens_or_visits hn ho with hopens | ⟨e, he, hn⟩
  · cases hopens
  · simp only [Node.hoistStep, HoistStep.parts, HoistStep.through, Node.children,
      List.append_nil, List.mem_map] at he
    obtain ⟨s, hs, rfl⟩ := he
    refine Hoisting.Has.isSome_find?
      (Hoisting.has_foldl _ _ _ (fun h s _ hs => ?_) (.inr ⟨s, hs, ?_⟩))
    · exact Hoisting.has_visit (.stmt s) h _ _ (.inl hs)
    · exact fun h => Hoisting.has_visit_of_reaches (.stmt s) hn ho h _ _

end Script

end FrozenGlobals
