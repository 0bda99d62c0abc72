import FrozenGlobals.Proofs.Script.Contained
import FrozenGlobals.Proofs.Script.Scopes
import Mathlib.Data.List.Nodup

/-!
# What templates declare

The hoisting pass records the `var` names that a function body declares (`Node.hoistedVars`) in the
template of the body, unless parameters have these names: `Program.mem_vars_of_body`. What the
program itself declares is in its own template: `Program.mem_vars_of_root`.

The pass changes templates in one direction only (`Hoisting.Extends`). So it is enough to find the
step that records a name: the steps before it opened the template, and those behind it keep the
name.
-/

namespace FrozenGlobals.Script

/-- A later form of a template: it has at least the names of the earlier one. -/
structure ScopeTemplate.Extends (t t' : ScopeTemplate) : Prop where
  start : t'.start = t.start
  params : t'.params = t.params
  vars : t.vars ⊆ t'.vars

namespace ScopeTemplate.Extends

/-- A template is a later form of itself. -/
theorem refl (t : ScopeTemplate) : t.Extends t := ⟨rfl, rfl, List.Subset.refl _⟩

/-- Later forms of later forms are later forms. -/
theorem trans {t₁ t₂ t₃ : ScopeTemplate} (h : t₁.Extends t₂) (h' : t₂.Extends t₃) :
    t₁.Extends t₃ :=
  ⟨h'.start.trans h.start, h'.params.trans h.params, List.Subset.trans h.vars h'.vars⟩

/-- Adding a `var` name gives a later form. -/
theorem addVar (t : ScopeTemplate) (name : String) : t.Extends (t.addVar name) := by
  unfold ScopeTemplate.addVar
  split
  · exact refl t
  · exact ⟨rfl, rfl, List.subset_append_left _ _⟩

/-- Adding `var` names gives a later form. -/
theorem foldl_addVar (names : List String) (t : ScopeTemplate) :
    t.Extends (names.foldl ScopeTemplate.addVar t) := by
  induction names generalizing t with
  | nil => exact refl t
  | cons name names ih => exact (addVar t name).trans (ih _)

/-- Adding functions gives a later form. -/
theorem foldl_addFunction (fns : List Function) (t : ScopeTemplate) :
    t.Extends (fns.foldl ScopeTemplate.addFunction t) := by
  induction fns generalizing t with
  | nil => exact refl t
  | cons fn fns ih =>
    have hadded : t.Extends (t.addFunction fn) := ⟨rfl, rfl, List.Subset.refl _⟩
    exact hadded.trans (ih _)

end ScopeTemplate.Extends

/-- Names that are added are recorded, unless they are parameters. -/
theorem ScopeTemplate.mem_foldl_addVar {names : List String} (t : ScopeTemplate) {name : String}
    (h : name ∈ names) : name ∈ (names.foldl addVar t).vars ∨ name ∈ t.params := by
  induction names generalizing t with
  | nil => cases h
  | cons n names ih =>
    rw [List.foldl_cons]
    rcases List.mem_cons.1 h with rfl | h
    · have hadded : name ∈ (t.addVar name).vars ∨ name ∈ t.params := by
        unfold addVar
        split
        · next hc => simpa [or_comm] using hc
        · simp
      exact hadded.imp_left fun h => (Extends.foldl_addVar names _).vars h
    · exact (ih (t.addVar n) h).imp_right fun h => (Extends.addVar t n).params ▸ h

namespace Hoisting

variable {h h' : Hoisting} {start : Int} {params : List String} {name : String}

/-- All templates are still there, in later forms. -/
def Extends (h h' : Hoisting) : Prop := ∀ t ∈ h.templates, ∃ t' ∈ h'.templates, t.Extends t'

namespace Extends

/-- All templates are there to begin with. -/
theorem refl (h : Hoisting) : h.Extends h := fun t ht => ⟨t, ht, .refl t⟩

/-- Templates that are kept twice are kept. -/
theorem trans {h₁ h₂ h₃ : Hoisting} (h : h₁.Extends h₂) (h' : h₂.Extends h₃) : h₁.Extends h₃ := by
  intro t ht
  obtain ⟨t', ht', hle⟩ := h t ht
  obtain ⟨t'', ht'', hle'⟩ := h' t' ht'
  exact ⟨t'', ht'', hle.trans hle'⟩

/-- Changing one template for a later form keeps all of them. -/
theorem update (h : Hoisting) (start : Int) {f : ScopeTemplate → ScopeTemplate}
    (hf : ∀ t : ScopeTemplate, t.Extends (f t)) : h.Extends (h.update start f) := by
  intro t ht
  refine ⟨_, List.mem_map_of_mem ht, ?_⟩
  split
  · exact hf t
  · exact .refl t

/-- Adding a template keeps the others. -/
theorem add (h : Hoisting) (start : Int) (params : List String) :
    h.Extends (h.add start params) := fun t ht => ⟨t, List.mem_append_left _ ht, .refl t⟩

/-- A loop whose steps keep templates keeps them. -/
theorem foldl {α : Type} (xs : List α) {f : Hoisting → α → Hoisting}
    (hf : ∀ x ∈ xs, ∀ h : Hoisting, h.Extends (f h x)) (h : Hoisting) :
    h.Extends (xs.foldl f h) := by
  induction xs generalizing h with
  | nil => exact refl h
  | cons x xs ih =>
    exact (hf x (by simp) h).trans (ih (fun y hy => hf y (List.mem_cons_of_mem _ hy)) _)

/-- A step of such a loop starts later than the loop, and the loop ends later than the step. -/
theorem exists_foldl {α : Type} {xs : List α} {f : Hoisting → α → Hoisting}
    (hf : ∀ x ∈ xs, ∀ h : Hoisting, h.Extends (f h x)) (h : Hoisting) {x : α} (hx : x ∈ xs) :
    ∃ h' : Hoisting, h.Extends h' ∧ (f h' x).Extends (xs.foldl f h) := by
  obtain ⟨before, behind, rfl⟩ := List.append_of_mem hx
  refine ⟨before.foldl f h, foldl _ (fun y hy => hf y (List.mem_append_left _ hy)) h, ?_⟩
  rw [List.foldl_append, List.foldl_cons]
  exact foldl _ (fun y hy => hf y (by simp [hy])) _

end Extends

/-- There is a template for a scope with these parameters. -/
def Opens (h : Hoisting) (start : Int) (params : List String) : Prop :=
  ∃ t ∈ h.templates, t.start = start ∧ t.params = params

/-- The template of a scope with these parameters has a name, or one of the parameters does. -/
def Records (h : Hoisting) (start : Int) (params : List String) (name : String) : Prop :=
  ∃ t ∈ h.templates, t.start = start ∧ t.params = params ∧ (name ∈ t.vars ∨ name ∈ params)

/-- A scope that was opened stays opened. -/
theorem Opens.extends (ho : h.Opens start params) (hle : h.Extends h') : h'.Opens start params := by
  obtain ⟨t, ht, rfl, rfl⟩ := ho
  obtain ⟨t', ht', hext⟩ := hle t ht
  exact ⟨t', ht', hext.start, hext.params⟩

/-- A name that was recorded stays recorded. -/
theorem Records.extends (hr : h.Records start params name) (hle : h.Extends h') :
    h'.Records start params name := by
  obtain ⟨t, ht, rfl, rfl, hname⟩ := hr
  obtain ⟨t', ht', hext⟩ := hle t ht
  exact ⟨t', ht', hext.start, hext.params, hname.imp_left fun h => hext.vars h⟩

/-- Names are recorded where they are added. -/
theorem Opens.records_update (ho : h.Opens start params) {names : List String}
    (hname : name ∈ names) :
    (h.update start fun t => names.foldl ScopeTemplate.addVar t).Records start params name := by
  obtain ⟨t, ht, rfl, rfl⟩ := ho
  refine ⟨_, List.mem_map_of_mem ht, ?_⟩
  simp only [beq_self_eq_true, if_true]
  have hext := ScopeTemplate.Extends.foldl_addVar names t
  exact ⟨hext.start, hext.params, t.mem_foldl_addVar hname⟩

/-! ## The pass through a node -/

/-- The templates after the names and functions that a node declares were added. -/
def declared (h : Hoisting) (block vars : Int) (n : Node) : Hoisting :=
  (h.update vars fun t => n.hoistStep.vars.foldl .addVar t).update block
    fun t => n.hoistStep.functions.foldl .addFunction t

/-- The templates after the nodes around the scope that a node opens were visited. -/
def around (h : Hoisting) (block vars : Int) (n : Node) : Hoisting :=
  n.hoistStep.around.foldl (fun h c => visit h block vars c) (h.declared block vars n)

/-- The templates after the nodes inside the scope that a node opens were visited. -/
def inside (h : Hoisting) (start vars : Int) (n : Node) : Hoisting :=
  n.hoistStep.inside.foldl
    (fun h c => visit h start (if n.hoistStep.params.isSome then start else vars) c)
    (h.add start (n.hoistStep.params.getD []))

/-- A visit goes around the scope that the node opens, if it opens one, and then inside. -/
theorem visit_eq_loops (h : Hoisting) (block vars : Int) (n : Node) :
    visit h block vars n = match n.hoistStep.opens with
      | none => h.around block vars n
      | some start => (h.around block vars n).inside start vars n := by
  rw [visit]
  simp only [List.foldl_subtype, List.unattach_attach]
  rfl

/-- Functions are added after names. -/
theorem extends_declared (h : Hoisting) (block vars : Int) (n : Node) :
    (h.update vars fun t => n.hoistStep.vars.foldl .addVar t).Extends (h.declared block vars n) :=
  .update _ _ fun t => .foldl_addFunction _ t

/-- The pass keeps templates. -/
theorem extends_visit (n : Node) (h : Hoisting) (block vars : Int) :
    h.Extends (visit h block vars n) := by
  have hloop : ∀ l : List Node, (∀ c ∈ l, c ∈ n.hoistStep.parts) → ∀ (block vars : Int)
      (h : Hoisting), h.Extends (l.foldl (fun h c => visit h block vars c) h) :=
    fun l hl block vars h =>
      .foldl l (fun c hc h => have := hl c hc; extends_visit c h block vars) h
  have haround := hloop n.hoistStep.around (fun c hc => List.mem_append_left _ hc) block vars
    (h.declared block vars n)
  have hvars := Extends.update h vars fun t => .foldl_addVar n.hoistStep.vars t
  have hbefore := (hvars.trans (extends_declared h block vars n)).trans haround
  rw [visit_eq_loops]
  cases n.hoistStep.opens with
  | none => exact hbefore
  | some start =>
    have hinside := hloop n.hoistStep.inside fun c hc => List.mem_append_right _ hc
    exact (hbefore.trans (.add _ start (n.hoistStep.params.getD []))).trans (hinside _ _ _)
termination_by sizeOf n
decreasing_by exact Node.sizeOf_lt_of_mem_hoistStep ‹_›

/-- What comes behind the loop around keeps templates. -/
theorem extends_around (h : Hoisting) (block vars : Int) (n : Node) :
    (h.around block vars n).Extends (visit h block vars n) := by
  rw [visit_eq_loops]
  cases n.hoistStep.opens with
  | none => exact .refl _
  | some start =>
    refine (Extends.add _ start (n.hoistStep.params.getD [])).trans ?_
    exact .foldl _ (fun c _ h => extends_visit c h _ _) _

/-- The `var` names that a node declares are recorded. -/
theorem records_visit_vars {n : Node} (ho : h.Opens start params) (hname : name ∈ n.hoistStep.vars)
    (block : Int) : (visit h block start n).Records start params name := by
  refine (ho.records_update hname).extends ((extends_declared h block start n).trans ?_)
  exact .trans (.foldl _ (fun c _ h => extends_visit c h _ _) _) (extends_around h block start n)

/-- The pass visits the nodes around the scope that a node opens. -/
theorem exists_visit_around {n c : Node} (hc : c ∈ n.hoistStep.around) (h : Hoisting)
    (block vars : Int) : ∃ h' : Hoisting, h.Extends h' ∧
      (visit h' block vars c).Extends (visit h block vars n) := by
  obtain ⟨h', hbefore, hafter⟩ := Extends.exists_foldl (f := fun h c => visit h block vars c)
    (fun c _ h => extends_visit c h block vars) (h.declared block vars n) hc
  refine ⟨h', ?_, hafter.trans (extends_around h block vars n)⟩
  exact ((Extends.update h vars fun t => .foldl_addVar _ t).trans
    (extends_declared h block vars n)).trans hbefore

/-- The pass opens a scope, and visits the nodes inside. -/
theorem exists_visit_inside {n c : Node} (hc : c ∈ n.hoistStep.inside)
    (ho : n.hoistStep.opens = some start) (h : Hoisting) (block vars : Int) :
    ∃ h' : Hoisting, h.Extends h' ∧ h'.Opens start (n.hoistStep.params.getD []) ∧
      (visit h' start (if n.hoistStep.params.isSome then start else vars) c).Extends
        (visit h block vars n) := by
  obtain ⟨h', hbefore, hafter⟩ := Extends.exists_foldl
    (f := fun h c => visit h start (if n.hoistStep.params.isSome then start else vars) c)
    (fun c _ h => extends_visit c h _ _)
    ((h.around block vars n).add start (n.hoistStep.params.getD [])) hc
  have hvisit : visit h block vars n = (h.around block vars n).inside start vars n := by
    rw [visit_eq_loops, ho]
  refine ⟨h', ?_, Opens.extends ?_ hbefore, hvisit ▸ hafter⟩
  · refine Extends.trans ?_ ((Extends.add _ _ _).trans hbefore)
    exact ((Extends.update h vars fun t => .foldl_addVar _ t).trans
      (extends_declared h block vars n)).trans (.foldl _ (fun c _ h => extends_visit c h _ _) _)
  · exact ⟨_, List.mem_append_right _ (List.mem_singleton_self _), rfl, rfl⟩

/-- The pass through a node records what the node declares in the function body around it. -/
theorem records_visit (n : Node) {h : Hoisting} (ho : h.Opens start params)
    (hname : name ∈ n.hoistedVars) (block : Int) :
    (visit h block start n).Records start params name := by
  rw [Node.hoistedVars_eq] at hname
  rcases List.mem_append.1 hname with hname | hname
  · rcases List.mem_append.1 hname with hname | hname
    · exact records_visit_vars ho hname block
    · obtain ⟨c, hc, hname⟩ := List.mem_flatMap.1 hname
      obtain ⟨h', hbefore, hafter⟩ := exists_visit_around hc h block start
      have := List.mem_append_left n.hoistStep.inside hc
      exact (records_visit c (ho.extends hbefore) hname block).extends hafter
  · -- a block that is no function body: its names belong to the function around it
    split at hname
    · cases hname
    · next hparams =>
      obtain ⟨c, hc, hname⟩ := List.mem_flatMap.1 hname
      have hmem := List.mem_append_right n.hoistStep.around hc
      cases hopens : n.hoistStep.opens with
      | none =>
        rw [Node.inside_hoistStep hopens] at hc
        cases hc
      | some inner =>
        obtain ⟨h', hbefore, -, hafter⟩ := exists_visit_inside hc hopens h block start
        rw [if_neg hparams] at hafter
        exact (records_visit c (ho.extends hbefore) hname inner).extends hafter
termination_by sizeOf n
decreasing_by all_goals exact Node.sizeOf_lt_of_mem_hoistStep ‹_›

end Hoisting

/-! ## Functions -/

namespace Node

/-- A node where a function is made. -/
def IsLiteral (fn : Function) (n : Node) : Prop := n = .function fn ∨ n = .expr (.function fn)

/-- The pass opens the body of a function at a node. -/
def OpensBody (fn : Function) (n : Node) : Prop :=
  n.IsLiteral fn ∨ n = .stmt (.declareFunction fn)

variable {n c : Node} {fn : Function}

/-- At the body of a function the pass opens its scope and visits its statements. -/
theorem OpensBody.opens {b : Block} (h : n.OpensBody fn) (hb : fn.body = .block b) :
    n.hoistStep.opens = some b.start ∧ n.hoistStep.params = some fn.params.names ∧
      ∀ s ∈ b.body, Node.stmt s ∈ n.hoistStep.inside := by
  have hfn : (HoistStep.function fn).opens = some b.start ∧
      (HoistStep.function fn).params = some fn.params.names ∧
      ∀ s ∈ b.body, Node.stmt s ∈ (HoistStep.function fn).inside := by
    unfold HoistStep.function
    rw [hb]
    exact ⟨rfl, rfl, fun s hs => List.mem_append_right _ (List.mem_map_of_mem hs)⟩
  obtain (rfl | rfl) | rfl := h <;> exact hfn

/-- A function made in a call of another one is made in what the pass visits there. -/
theorem visits_of_mem_runs {f : Function} {d : Node} (hd : d ∈ f.runs true) (hc : d.Reaches true c)
    (hlit : c.IsLiteral fn) : ∃ e ∈ (HoistStep.function f).parts, e.Reaches true c := by
  rcases List.mem_append.1 (hd : d ∈ HoistStep.initializers f.params ++ _) with hd | hd
  · refine ⟨d, ?_, hc⟩
    unfold HoistStep.function
    split <;> simp [HoistStep.parts, HoistStep.through, hd]
  · rw [List.mem_singleton] at hd
    subst hd
    revert hc
    unfold HoistStep.function
    cases f.body with
    | block b =>
      intro hc
      rcases Relation.ReflTransGen.cases_head hc with rfl | ⟨e, he, hc⟩
      · obtain h | h := hlit <;> cases h
      · refine ⟨e, List.mem_append_right _ (List.mem_append_right _ ?_), hc⟩
        obtain ⟨span, list⟩ := b
        exact he
    | expression value =>
      intro hc
      rcases Relation.ReflTransGen.cases_head hc with rfl | ⟨e, he, hc⟩
      · obtain h | h := hlit <;> cases h
      · have he : e = .expr value := List.mem_singleton.1 he
        exact ⟨e, by simp [HoistStep.parts, HoistStep.through, he], hc⟩

/-- Where parameters are names, a function that is made below a node is made in what the pass visits
there, unless the pass opens its body at the node. -/
theorem opensBody_or_visits (h : n.Reaches true c) (hlit : c.IsLiteral fn) :
    n.OpensBody fn ∨ ∃ e ∈ n.hoistStep.parts, e.Reaches true c := by
  rcases Relation.ReflTransGen.cases_head h with rfl | ⟨d, hd, hc⟩
  · exact .inl (.inl hlit)
  · unfold hoistStep
    split
    case h_1 b | h_2 b =>
      obtain ⟨span, list⟩ := b
      exact .inr ⟨d, hd, hc⟩
    case h_3 => exact .inr ⟨d, hd, hc⟩
    case h_4 f =>
      have hd : d = .function f := List.mem_singleton.1 hd
      subst hd
      rcases Relation.ReflTransGen.cases_head hc with rfl | ⟨e, he, hc⟩
      · obtain h | h := hlit <;> cases h
        exact .inl (.inr rfl)
      · exact .inr (visits_of_mem_runs he hc hlit)
    case h_5 f | h_6 f => exact .inr (visits_of_mem_runs hd hc hlit)
    case h_10 n _ _ _ _ hfn hexpr _ _ _ =>
      refine .inr ⟨d, ?_, hc⟩
      unfold reach at hd
      split at hd
      · exact absurd rfl (hfn _)
      · exact absurd rfl (hexpr _)
      · exact List.mem_append_left _ hd
    all_goals exact .inr ⟨d, List.mem_append_left _ hd, hc⟩

end Node

section
variable {fn : Function} {b : Block} {s : Stmt} {name : String}

/-- The pass records what the body of a function declares, wherever the function is made. -/
theorem Hoisting.records_visit_body (n : Node) {c : Node} (hc : n.Reaches true c)
    (hlit : c.IsLiteral fn) (hb : fn.body = .block b) (hs : s ∈ b.body)
    (hname : name ∈ (Node.stmt s).hoistedVars) (h : Hoisting) (block vars : Int) :
    (visit h block vars n).Records b.start fn.params.names name := by
  rcases Node.opensBody_or_visits hc hlit with hopens | ⟨e, he, hc⟩
  · obtain ⟨hstart, hparams, hinside⟩ := hopens.opens hb
    obtain ⟨h', -, hopened, hafter⟩ := exists_visit_inside (hinside s hs) hstart h block vars
    rw [hparams] at hopened hafter
    exact (records_visit (.stmt s) hopened hname b.start).extends hafter
  · rcases List.mem_append.1 he with hmem | hmem
    · obtain ⟨h', -, hafter⟩ := exists_visit_around hmem h block vars
      exact (records_visit_body e hc hlit hb hs hname h' _ _).extends hafter
    · cases hopens : n.hoistStep.opens with
      | none =>
        rw [Node.inside_hoistStep hopens] at hmem
        cases hmem
      | some start =>
        obtain ⟨h', -, -, hafter⟩ := exists_visit_inside hmem hopens h block vars
        exact (records_visit_body e hc hlit hb hs hname h' _ _).extends hafter
termination_by sizeOf n
decreasing_by all_goals exact Node.sizeOf_lt_of_mem_hoistStep he

end

/-! ## Programs -/

namespace Program

variable {p : Program} {t : ScopeTemplate} {s : Stmt} {name : String}

/-- Where no scope is opened twice, the template that is found is the one where names are
recorded. -/
theorem mem_vars_of_records (h : p.Distinct) {start : Int} {params : List String}
    (ht : p.hoisting.find? start = some t) (hr : p.hoisting.Records start params name) :
    name ∈ t.vars ∨ name ∈ params := by
  obtain ⟨t', ht', hstart', -, hname⟩ := hr
  have hstart : t.start = start := by simpa using List.find?_some ht
  have heq : t = t' := List.inj_on_of_nodup_map (nodup_starts h) (List.mem_of_find?_eq_some ht) ht'
    (hstart.trans hstart'.symm)
  exact heq ▸ hname

/-- The template of a program has the names that its statements declare. -/
theorem mem_vars_of_root (h : p.Distinct) (ht : p.hoisting.find? Hoisting.root = some t)
    (hs : s ∈ p.body) (hname : name ∈ (Node.stmt s).hoistedVars) : name ∈ t.vars := by
  have hrecords : p.hoisting.Records Hoisting.root [] name := by
    obtain ⟨h', hbefore, hafter⟩ := Hoisting.Extends.exists_foldl
      (f := fun h s => h.visit Hoisting.root Hoisting.root (.stmt s))
      (fun s _ h => Hoisting.extends_visit (.stmt s) h _ _)
      (Hoisting.mk [] |>.add Hoisting.root []) hs
    refine (Hoisting.records_visit (.stmt s) (.extends ?_ hbefore) hname _).extends hafter
    exact ⟨_, List.mem_singleton_self _, rfl, rfl⟩
  exact (mem_vars_of_records h ht hrecords).resolve_right nofun

/-- The template of a function body has the names that its statements declare, unless parameters
have them. -/
theorem mem_vars_of_body (h : p.Distinct) {c : Node} (hc : (Node.program p.body).Reaches true c)
    {fn : Function} (hlit : c.IsLiteral fn) {b : Block} (hb : fn.body = .block b)
    (ht : p.hoisting.find? b.start = some t) (hs : s ∈ b.body)
    (hname : name ∈ (Node.stmt s).hoistedVars) : name ∈ t.vars ∨ name ∈ fn.params.names := by
  refine mem_vars_of_records h ht ?_
  rcases Relation.ReflTransGen.cases_head hc with rfl | ⟨e, he, hc⟩
  · obtain hlit | hlit := hlit <;> cases hlit
  · obtain ⟨s', hs', rfl⟩ := List.mem_map.1 (show e ∈ p.body.map Node.stmt from he)
    obtain ⟨h', -, hafter⟩ := Hoisting.Extends.exists_foldl
      (f := fun h s => h.visit Hoisting.root Hoisting.root (.stmt s))
      (fun s _ h => Hoisting.extends_visit (.stmt s) h _ _)
      (Hoisting.mk [] |>.add Hoisting.root []) hs'
    exact (Hoisting.records_visit_body (.stmt s') hc hlit hb hs hname h' _ _).extends hafter

end Program

end FrozenGlobals.Script
