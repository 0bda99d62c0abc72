import FrozenGlobals.Proofs.Script.Parts
import Mathlib.Data.List.Flatten
import Mathlib.Data.List.Perm.Basic

/-!
# Scopes of syntax trees

Which scopes the hoisting pass opens. Every block and every `switch` of a syntax tree is a scope of
its own (`Node.scopeStarts`). The pass opens each of them once, with one exception: it passes over
the patterns among the parameters of functions, and so over whatever stands in their defaults and
computed keys (`Node.patternStarts`).

`Program.starts_perm` says so as an equation between lists. Where the offsets of a program are
distinct, it becomes `Program.templates_exact`: no scope is opened twice, and the templates are
those of the program itself and of the scopes outside of parameter patterns. In
`defaultedParameters` a function stands inside, and its body has no template.
-/

namespace FrozenGlobals.Script

/-- The patterns that parameters are bound to. -/
def Params.patterns (params : Params) : List Node :=
  params.items.map (fun b => .ofPattern b.target) ++ params.rest.toList.map .ofPattern

namespace Node

/-! ## Offsets of scopes -/

/-- The offset that names the scope of a block or a `switch`. -/
def scopeStart? : Node → Option Int
  | .block b | .stmt (.block b) => some b.start
  | .stmt (.switchOn span _ _) => some span.start
  | _ => none

/-- The offsets of all blocks and `switch` statements in a syntax tree. -/
def scopeStarts (n : Node) : List Int :=
  n.scopeStart?.toList ++ n.children.attach.flatMap fun ⟨c, _⟩ => scopeStarts c
termination_by sizeOf n
decreasing_by exact Node.sizeOf_lt_of_mem_children ‹_›

/-- The patterns of a function, which the pass does not visit. -/
def passedOver : Node → List Node
  | .function fn | .expr (.function fn) => fn.params.patterns
  | _ => []

/-- The offsets of the scopes that stand in patterns of parameters. -/
def patternStarts (n : Node) : List Int :=
  n.passedOver.flatMap scopeStarts ++ (n.reach true).attach.flatMap fun ⟨c, _⟩ => patternStarts c
termination_by n.height
decreasing_by exact Node.height_lt_of_mem_reach ‹_›

/-- The offsets of all other scopes. -/
def hoistedStarts (n : Node) : List Int :=
  n.scopeStart?.toList ++ (n.reach true).attach.flatMap fun ⟨c, _⟩ => hoistedStarts c
termination_by n.height
decreasing_by exact Node.height_lt_of_mem_reach ‹_›

/-- The scopes of a node are its own and those of its children. -/
theorem scopeStarts_eq (n : Node) :
    n.scopeStarts = n.scopeStart?.toList ++ n.children.flatMap scopeStarts := by
  rw [scopeStarts]
  simp

/-- The scopes in patterns are those of patterns passed over, and those below what is reached. -/
theorem patternStarts_eq (n : Node) :
    n.patternStarts = n.passedOver.flatMap scopeStarts ++ (n.reach true).flatMap patternStarts := by
  rw [patternStarts]
  simp

/-- The other scopes are the node's own, and those below what is reached. -/
theorem hoistedStarts_eq (n : Node) :
    n.hoistedStarts = n.scopeStart?.toList ++ (n.reach true).flatMap hoistedStarts := by
  rw [hoistedStarts]
  simp

/-! ## Two kinds of scopes -/

/-- What is collected from initializers is collected declarator by declarator. -/
theorem flatMap_initializers (items : List Binding) (f : Node → List Int) :
    (items.filterMap fun b => b.init.map Node.expr).flatMap f =
      items.flatMap fun b => (b.init.toList.map Node.expr).flatMap f := by
  induction items with
  | nil => rfl
  | cons b items ih => cases h : b.init <;> simp [h, ih]

/-- The scopes of a parameter list stand in initializers or in patterns. -/
theorem scopeStarts_params_perm (params : Params) :
    ((Node.params params).scopeStarts).Perm
      ((HoistStep.initializers params).flatMap scopeStarts ++
        params.patterns.flatMap scopeStarts) := by
  obtain ⟨span, items, rest⟩ := params
  have hitems : (items.flatMap fun b => (Node.binding b).scopeStarts).Perm
      ((HoistStep.initializers (.mk span items rest)).flatMap scopeStarts ++
        items.flatMap fun b => (ofPattern b.target).scopeStarts) := by
    have hbinding : ∀ b ∈ items, (Node.binding b).scopeStarts =
        (ofPattern b.target).scopeStarts ++
          (b.init.toList.map Node.expr).flatMap scopeStarts := by
      rintro ⟨target, init⟩ _
      rw [scopeStarts_eq]
      simp [scopeStart?, children, Binding.target, Binding.init]
    rw [List.flatMap_congr hbinding, HoistStep.initializers, Params.items, flatMap_initializers]
    exact (List.flatMap_append_perm _ _ _).symm.trans List.perm_append_comm
  rw [scopeStarts_eq]
  simp only [scopeStart?, children, Params.patterns, Params.items, Params.rest, Option.toList_none,
    List.nil_append, List.flatMap_append, List.flatMap_map]
  rw [← List.append_assoc]
  exact hitems.append_right _

/-- A scope in a syntax tree is the node's own, one in what the node may run, or one in a pattern
that the pass does not visit. -/
theorem scopeStarts_perm_reach (n : Node) :
    n.scopeStarts.Perm (n.scopeStart?.toList ++
      ((n.reach true).flatMap scopeStarts ++ n.passedOver.flatMap scopeStarts)) := by
  have hfunction : ∀ (n : Node) (fn : Function), n.children = (Node.function fn).children →
      (n.children.flatMap scopeStarts).Perm
        ((fn.runs true).flatMap scopeStarts ++ fn.params.patterns.flatMap scopeStarts) := by
    intro n fn hn
    rw [hn, children_function]
    have hparams := scopeStarts_params_perm fn.params
    simp only [Function.runs, if_true, List.flatMap_append, List.flatMap_cons, List.flatMap_nil,
      List.append_nil]
    rw [List.append_assoc]
    refine (hparams.append_right _).trans ?_
    rw [List.append_assoc]
    exact List.perm_append_comm.append_left _
  rw [scopeStarts_eq]
  refine List.Perm.append_left _ ?_
  cases n with
  | function fn => exact hfunction _ fn rfl
  | expr e =>
    cases e with
    | function fn => exact hfunction _ fn (children_expr_function fn)
    | _ => simp [reach, passedOver]
  | _ => simp [reach, passedOver]

/-- Every scope either stands in a pattern of parameters or does not. -/
theorem scopeStarts_perm (n : Node) : n.scopeStarts.Perm (n.hoistedStarts ++ n.patternStarts) := by
  have below : ((n.reach true).flatMap scopeStarts).Perm
      ((n.reach true).flatMap hoistedStarts ++ (n.reach true).flatMap patternStarts) :=
    (List.Perm.flatMap_left _ fun c hc => scopeStarts_perm c).trans
      (List.flatMap_append_perm _ _ _).symm
  refine (scopeStarts_perm_reach n).trans ?_
  rw [hoistedStarts_eq, patternStarts_eq, List.append_assoc]
  refine List.Perm.append_left _ ((below.append_right _).trans ?_)
  rw [List.append_assoc]
  exact List.perm_append_comm.append_left _
termination_by n.height
decreasing_by exact Node.height_lt_of_mem_reach hc

/-! ## The pass -/

/-- The scopes of a block are its own and those of its statements. -/
theorem hoistedStarts_block (b : Block) :
    (Node.block b).hoistedStarts = b.start :: (b.body.map Node.stmt).flatMap hoistedStarts := by
  obtain ⟨span, body⟩ := b
  rw [hoistedStarts_eq]
  rfl

/-- The scopes that calls of a function lead to. -/
theorem flatMap_runs_perm (fn : Function) : ((fn.runs true).flatMap hoistedStarts).Perm
    ((HoistStep.function fn).opens.toList ++
      (HoistStep.function fn).parts.flatMap hoistedStarts) := by
  unfold HoistStep.function
  simp only [Function.runs, if_true, List.flatMap_append, List.flatMap_cons, List.flatMap_nil,
    List.append_nil]
  cases fn.body with
  | block b =>
    have hblock : (ofBody (.block b)).hoistedStarts = _ := hoistedStarts_block b
    rw [hblock]
    simp only [HoistStep.parts, List.nil_append, List.flatMap_append]
    exact List.perm_middle
  | expression value =>
    have hvalue : (ofBody (.expression value)).hoistedStarts = (Node.expr value).hoistedStarts := by
      rw [hoistedStarts_eq]
      simp [ofBody, scopeStart?, reach, children]
    simp [HoistStep.parts, HoistStep.through, hvalue]

/-- The scopes that a node leads to are the one the pass opens there and those of the nodes it
visits. -/
theorem hoistedStarts_perm_hoistStep (n : Node) : n.hoistedStarts.Perm
    (n.hoistStep.opens.toList ++ n.hoistStep.parts.flatMap hoistedStarts) := by
  rw [hoistedStarts_eq]
  unfold hoistStep
  split
  case h_1 b =>
    obtain ⟨span, body⟩ := b
    exact .refl _
  case h_2 b =>
    obtain ⟨span, body⟩ := b
    exact .refl _
  case h_3 span subject cases => exact .refl _
  case h_4 fn =>
    have hfn : ((Node.stmt (.declareFunction fn)).reach true).flatMap hoistedStarts =
        ((Node.function fn).reach true).flatMap hoistedStarts := by
      simp only [reach, children, Stmt.children, List.flatMap_cons, List.flatMap_nil,
        List.append_nil]
      rw [hoistedStarts_eq]
      rfl
    rw [hfn]
    exact flatMap_runs_perm fn
  case h_5 fn | h_6 fn => exact flatMap_runs_perm fn
  case h_10 _ hblock hstmt hswitch _ hfn hexpr _ _ _ =>
    have hstart : n.scopeStart? = none := by
      unfold scopeStart?
      split
      · exact absurd rfl (hblock _)
      · exact absurd rfl (hstmt _)
      · exact absurd rfl (hswitch _ _ _)
      · rfl
    have hreach : n.reach true = n.children := by
      unfold reach
      split
      · exact absurd rfl (hfn _)
      · exact absurd rfl (hexpr _)
      · rfl
    rw [hstart, hreach]
    simp [HoistStep.parts, HoistStep.through]
  all_goals simp [HoistStep.parts, HoistStep.through, scopeStart?, reach]

end Node

namespace Hoisting

/-- A template is found for the scopes that were opened, and for no others. -/
theorem isSome_find?_iff {h : Hoisting} {start : Int} :
    (h.find? start).isSome ↔ start ∈ h.starts := by
  simp [find?, starts, List.find?_isSome]

/-- Changing a template in place opens no scope. -/
theorem starts_update (h : Hoisting) (at' : Int) {f : ScopeTemplate → ScopeTemplate}
    (hf : ∀ t, (f t).start = t.start) : (h.update at' f).starts = h.starts := by
  simp only [starts, update, List.map_map]
  refine List.map_congr_left fun t _ => ?_
  simp only [Function.comp_apply]
  split
  · exact hf t
  · rfl

/-- Adding a template opens its scope. -/
theorem starts_add (h : Hoisting) (start : Int) (params : List String) :
    (h.add start params).starts = h.starts ++ [start] := by simp [starts, add]

/-- A loop opens the scopes that its steps open. -/
theorem starts_foldl_perm {α : Type} (xs : List α) {f : Hoisting → α → Hoisting}
    (opened : α → List Int) (hf : ∀ x ∈ xs, ∀ h, (f h x).starts.Perm (h.starts ++ opened x))
    (h : Hoisting) : (xs.foldl f h).starts.Perm (h.starts ++ xs.flatMap opened) := by
  induction xs generalizing h with
  | nil => simp
  | cons x xs ih =>
    rw [List.foldl_cons, List.flatMap_cons, ← List.append_assoc]
    refine (ih (fun y hy => hf y (List.mem_cons_of_mem _ hy)) _).trans ?_
    exact (hf x (by simp) h).append_right _

/-- The pass through a node opens the scopes that the node leads to, each once. -/
theorem starts_visit_perm (n : Node) (h : Hoisting) (block vars : Int) :
    (visit h block vars n).starts.Perm (h.starts ++ n.hoistedStarts) := by
  have below : ∀ c ∈ n.hoistStep.parts, ∀ block vars h,
      (visit h block vars c).starts.Perm (h.starts ++ c.hoistedStarts) :=
    fun c hc block vars h => starts_visit_perm c h block vars
  have hloop : ∀ (l : List Node) (hl : ∀ c ∈ l, c ∈ n.hoistStep.parts) (block vars : Int)
      (h : Hoisting), (l.attach.foldl (fun h c => visit h block vars c.1) h).starts.Perm
        (h.starts ++ l.flatMap Node.hoistedStarts) := by
    intro l hl block vars h
    have hsteps := starts_foldl_perm l.attach (f := fun h c => visit h block vars c.1)
      (fun c => c.1.hoistedStarts) (fun c _ h => below c.1 (hl c.1 c.2) block vars h) h
    simpa using hsteps
  have hdeclared : ((h.update vars fun t => n.hoistStep.vars.foldl .addVar t).update block
      fun t => n.hoistStep.functions.foldl .addFunction t).starts = h.starts :=
    (starts_update _ _ (start_foldl_addFunction _)).trans
      (starts_update _ _ (start_foldl_addVar _))
  have haround := hloop n.hoistStep.around fun c hc => List.mem_append_left _ hc
  have hinside := hloop n.hoistStep.inside fun c hc => List.mem_append_right _ hc
  have hsteps := n.hoistedStarts_perm_hoistStep
  rw [HoistStep.parts, List.flatMap_append] at hsteps
  rw [visit]
  cases ho : n.hoistStep.opens with
  | none =>
    refine (haround _ _ _).trans ?_
    rw [hdeclared]
    refine List.Perm.append_left _ (hsteps.trans ?_).symm
    rw [ho, Node.inside_hoistStep ho]
    simp
  | some start =>
    refine (hinside _ _ _).trans ?_
    rw [starts_add]
    refine (((haround _ _ _).append_right _).append_right _).trans ?_
    rw [hdeclared, List.append_assoc, List.append_assoc]
    refine List.Perm.append_left _ (hsteps.trans ?_).symm
    rw [ho]
    simp only [Option.toList_some, List.singleton_append]
    exact List.perm_middle.symm
termination_by sizeOf n
decreasing_by exact Node.sizeOf_lt_of_mem_hoistStep hc

end Hoisting

namespace Program

variable (p : Program)

/-- The pass opens the scope of the program itself and each scope outside of parameter patterns. -/
theorem starts_perm :
    p.hoisting.starts.Perm (Hoisting.root :: (Node.program p.body).hoistedStarts) := by
  have hbody := Hoisting.starts_foldl_perm p.body
    (f := fun h s => h.visit Hoisting.root Hoisting.root (.stmt s))
    (fun s => (Node.stmt s).hoistedStarts)
    (fun s _ h => Hoisting.starts_visit_perm (.stmt s) h _ _)
    (Hoisting.mk [] |>.add Hoisting.root [])
  have hprogram : (Node.program p.body).hoistedStarts =
      p.body.flatMap fun s => (Node.stmt s).hoistedStarts := by
    rw [Node.hoistedStarts_eq]
    simp [Node.scopeStart?, Node.reach, Node.children, List.flatMap_map]
  rw [hprogram]
  exact hbody

/-- Different blocks and `switch` statements stand at different offsets. -/
structure Distinct : Prop where
  nodup : (Node.program p.body).scopeStarts.Nodup
  nonneg : ∀ start ∈ (Node.program p.body).scopeStarts, 0 ≤ start

variable {p}

/-- No scope is opened twice. -/
theorem nodup_starts (h : p.Distinct) : p.hoisting.starts.Nodup := by
  have hscopes := (Node.program p.body).scopeStarts_perm
  have hnodup := (List.nodup_append.1 (hscopes.nodup_iff.1 h.nodup)).1
  refine p.starts_perm.nodup_iff.2 (List.nodup_cons.2 ⟨fun hmem => ?_, hnodup⟩)
  have hroot := h.nonneg _ (hscopes.mem_iff.2 (List.mem_append_left _ hmem))
  simp [Hoisting.root] at hroot

/-- No scope is opened twice, and the templates are those of the program itself and of all blocks
and `switch` statements, other than those in patterns of parameters. -/
theorem templates_exact (h : p.Distinct) : p.hoisting.starts.Nodup ∧
    ∀ start, (p.hoisting.find? start).isSome ↔ start = Hoisting.root ∨
      start ∈ (Node.program p.body).scopeStarts ∧
        start ∉ (Node.program p.body).patternStarts := by
  have hscopes := (Node.program p.body).scopeStarts_perm
  have hne := (List.nodup_append.1 (hscopes.nodup_iff.1 h.nodup)).2.2
  refine ⟨nodup_starts h, fun start => ?_⟩
  rw [Hoisting.isSome_find?_iff, p.starts_perm.mem_iff, List.mem_cons, hscopes.mem_iff,
    List.mem_append]
  refine or_congr_right ⟨fun hmem => ⟨.inl hmem, fun hp => hne _ hmem _ hp rfl⟩, ?_⟩
  exact fun ⟨hmem, hp⟩ => hmem.resolve_right hp

end Program

/-- The program `(a = function () {}, [b = () => {}]) => { switch (a) { default: {} } };`. -/
def defaultedParameters : Program :=
  ⟨"script",
    "(a = function () \x7b\x7d, [b = () => \x7b\x7d]) => \x7b switch (a) \x7b default: \x7b\x7d \x7d \x7d;",
    [.expression (.function (.mk ⟨0, 70⟩ true none
      (.mk ⟨-1, 0⟩
        [.mk (.leaf (.identifier ⟨"a", ⟨1, 2⟩⟩))
          (some (.function (.mk ⟨5, 19⟩ false none (.mk ⟨14, 16⟩ [] none)
            (.block (.mk ⟨17, 19⟩ []))))),
         .mk (.array ⟨21, 35⟩ [some (.mk (.leaf (.identifier ⟨"b", ⟨22, 23⟩⟩))
          (some (.function (.mk ⟨26, 34⟩ true none (.mk ⟨26, 28⟩ [] none)
            (.block (.mk ⟨32, 34⟩ []))))))] none) none] none)
      (.block (.mk ⟨40, 70⟩ [.switchOn ⟨42, 68⟩ (.identifier ⟨"a", ⟨50, 51⟩⟩)
        [.mk 55 none [.block (.mk ⟨64, 66⟩ [])]]]))))]⟩

/-- No two scopes of the program stand at the same offset. -/
theorem distinct_defaultedParameters : defaultedParameters.Distinct :=
  ⟨by decide +kernel, by decide +kernel⟩

/-- Of the five scopes of the program, the one in the pattern of the parameters has no template. -/
theorem templates_exact_defaultedParameters :
    defaultedParameters.Distinct ∧
    (Node.program defaultedParameters.body).scopeStarts = [17, 32, 40, 42, 64] ∧
    (Node.program defaultedParameters.body).patternStarts = [32] ∧
    defaultedParameters.hoisting.starts.Nodup ∧
    ∀ start, (defaultedParameters.hoisting.find? start).isSome ↔ start = Hoisting.root ∨
      start ∈ (Node.program defaultedParameters.body).scopeStarts ∧
        start ∉ (Node.program defaultedParameters.body).patternStarts :=
  ⟨distinct_defaultedParameters, by decide +kernel, by decide +kernel,
    Program.templates_exact distinct_defaultedParameters⟩

/-- The body of the arrow function in `defaultedParameters` that stands in a pattern has no
template, though it is a block like others. -/
theorem defaultedParameters_untemplated :
    defaultedParameters.Distinct ∧
    32 ∈ (Node.program defaultedParameters.body).scopeStarts ∧
    (defaultedParameters.hoisting.find? 32).isSome = false :=
  ⟨distinct_defaultedParameters, by decide +kernel, by decide +kernel⟩

end FrozenGlobals.Script
