import FrozenGlobals.Proofs.Coupling.Reports
import FrozenGlobals.Proofs.Discipline.Termination
import FrozenGlobals.Proofs.Script.Contained

/-!
# Class bodies

Class bodies are not analyzed, so it should make no difference what stands in them. It makes none
where they hoist no names: `Setup.analyze_emptied` compares an analysis with that of the programs
whose classes have lost their elements. In `staticVariable` a static block declares a name that the
globals bind, and an assignment to a property of that global is not reported.
-/

namespace FrozenGlobals

open Run
open Script (Span Node Expr Stmt Hoisting ScopeTemplate)

/-! ## Conversions -/

namespace Host.Conversion

/-- The conversion with other functions in the heap. -/
def withClosures (c : Conversion) (closures : Array Closure) : Conversion :=
  { c with heap := { c.heap with closures } }

variable (g : Graph) (closures : Array Closure)

/-- A loop that does not look at functions may be run with others. -/
theorem foldl_withClosures {α β : Type} (step : β × Conversion → α → β × Conversion)
    (h : ∀ b c a, step (b, c.withClosures closures) a =
      ((step (b, c) a).1, (step (b, c) a).2.withClosures closures))
    (parts : List α) (b : β) (c : Conversion) :
    parts.foldl step (b, c.withClosures closures) =
      ((parts.foldl step (b, c)).1, (parts.foldl step (b, c)).2.withClosures closures) := by
  induction parts generalizing b c with
  | nil => rfl
  | cons a parts ih => rw [List.foldl_cons, h, ih, List.foldl_cons]

/-- Conversions do not see functions. -/
theorem convert_withClosures (levels : Nat) (c : Conversion) (path : Path) (d : Datum) :
    convert g levels (c.withClosures closures) path d =
      ((convert g levels c path d).1, (convert g levels c path d).2.withClosures closures) := by
  induction levels generalizing c path d with
  | zero => rfl
  | succ levels ih =>
    have hwrite : ∀ (c : Conversion) (v : Value) (k : Key) (w : Value),
        (c.withClosures closures).write v k w = (c.write v k w).withClosures closures := by
      intro c v k w
      cases v <;> rfl
    have hparts : ∀ (v : Value) (parts : List (Segment × Datum)) (c : Conversion),
        parts.foldl (convertPart g levels v path) (c.withClosures closures) =
          (parts.foldl (convertPart g levels v path) c).withClosures closures := by
      intro v parts
      induction parts with
      | nil => exact fun _ => rfl
      | cons part parts ihp =>
        intro c
        have hpart : convertPart g levels v path (c.withClosures closures) part =
            (convertPart g levels v path c part).withClosures closures := by
          rw [convertPart, ih, hwrite]
          rfl
        rw [List.foldl_cons, hpart, ihp, List.foldl_cons]
    have henter : ∀ k id, (c.withClosures closures).enter k id path =
        ((c.enter k id path).1, (c.enter k id path).2.withClosures closures) := by
      intro k id
      cases k <;> rfl
    cases d with
    | container id =>
      cases hknown : c.known.lookup id with
      | some v =>
        have hknown' : (c.withClosures closures).known.lookup id = some v := hknown
        rw [convert, convert]
        simp only [hknown, hknown']
      | none =>
        by_cases hvisible : ∃ k, g.find? id = some k ∧ k.isVisible = true
        · obtain ⟨k, hk, hv⟩ := hvisible
          rw [convert_container hknown hk hv,
            convert_container (c := c.withClosures closures) hknown hk hv, henter, hparts]
        · have hhidden : ∀ k, g.find? id = some k → k.isVisible = false := fun k hk =>
            Bool.eq_false_iff.2 fun hv => hvisible ⟨k, hk, hv⟩
          rw [convert_hidden hknown hhidden, convert_hidden (c := c.withClosures closures) hknown
            hhidden]
    | _ => rfl

/-- The frame of globals is converted alike whatever functions there are. -/
theorem frame_withClosures (c : Conversion) (entries : List (String × Datum)) :
    frame g (c.withClosures closures) entries =
      ((frame g c entries).1, (frame g c entries).2.withClosures closures) := by
  unfold frame
  rw [foldl_withClosures]
  · rfl
  · intro f c e
    obtain ⟨name, part⟩ := e
    dsimp only
    rw [convert_withClosures]

/-- Conversions leave functions as they are. -/
theorem closures_frame (c : Conversion) (entries : List (String × Datum)) :
    (frame g c entries).2.heap.closures = c.heap.closures := by
  have h := frame_withClosures g c.heap.closures c entries
  have heq : c.withClosures c.heap.closures = c := rfl
  rw [heq] at h
  exact congrArg (fun r : Nat × Conversion => r.2.heap.closures) h

end Host.Conversion

/-! ## Setups without class bodies -/

/-- The heap with the classes in the code of its functions emptied. -/
def Heap.emptied (σ : Nat → Script.Class → Bool) (h : Heap) : Heap :=
  { h with closures := h.closures.map (Closure.emptied σ) }

namespace Heap

variable {σ : Nat → Script.Class → Bool}

/-- Nested arrays are opened alike whatever code functions have. -/
theorem flatten_emptied (h : Heap) (unseen : List Nat) (queue : List Value) (out : Reference) :
    (h.emptied σ).flatten unseen queue out = h.flatten unseen queue out := by
  induction unseen, queue, out using Heap.flatten.induct h with
  | case1 => simp only [flatten]
  | case2 id rest unseen out hmem elements ih =>
    rw [flatten, flatten, dif_pos hmem, dif_pos hmem]
    exact ih
  | case3 id rest unseen out hmem ih =>
    rw [flatten, flatten, dif_neg hmem, dif_neg hmem]
    exact ih
  | case4 v rest unseen out hv ih =>
    rw [flatten, flatten, ih]
    all_goals exact hv

/-- Marking accessors and emptying classes may change places. -/
theorem markAccessor_emptied (h : Heap) (id : Nat) (a : Accessor) :
    (h.emptied σ).markAccessor id a = (h.markAccessor id a).emptied σ := by
  unfold markAccessor emptied
  refine congrArg (fun closures => { h with closures }) (Array.ext_getElem? fun i => ?_)
  rw [Array.getElem?_modify, Array.getElem?_map, Array.getElem?_map, Array.getElem?_modify]
  split
  · cases h.closures[i]? <;> rfl
  · rfl

/-- Marks on functions leave their code as it is. -/
theorem exists_of_mem_markAccessor {h : Heap} {id : Nat} {a : Accessor} {g : Closure}
    (hg : g ∈ (h.markAccessor id a).closures) : ∃ fn ∈ h.closures, fn.code = g.code := by
  obtain ⟨i, hi⟩ := Array.mem_iff_getElem?.1 hg
  rw [markAccessor, Array.getElem?_modify] at hi
  split at hi
  · obtain ⟨fn, hfn, rfl⟩ := Option.map_eq_some_iff.1 hi
    exact ⟨fn, Array.mem_of_getElem? hfn, rfl⟩
  · exact ⟨g, Array.mem_of_getElem? hi, rfl⟩

end Heap

namespace Setup

/-- The setup whose programs have some of their classes emptied. -/
def emptied (setup : Setup) (σ : Nat → Script.Class → Bool) : Setup :=
  { setup with programs := setup.programs.mapIdx fun u p => .ofProgram (p.program.emptied (σ u)) }

variable (setup : Setup) (σ : Nat → Script.Class → Bool)

/-- No scope in the emptied node is one that is gone. -/
def Spares (u : Nat) (n : Node) : Prop :=
  ∀ p, setup.programs[u]? = some p → ∀ start ∈ (n.emptied (σ u)).scopeStarts,
    start ∉ (Node.program p.program.body).cutStarts (σ u)

/-- An analysis and the one of the emptied programs. -/
def emptying : Matching setup (setup.emptied σ) where
  empties := σ
  value v v' := v' = v
  content c c' := c' = { c with heap := c.heap.emptied σ } ∧
    ∀ fn ∈ c.heap.closures, ∀ k, fn.code = some k →
      setup.Spares σ k.unit (.function k.literal)
  exact := True
  hides _ := False
  clear := setup.Spares σ

variable {setup σ}

/-- What spares the scopes that are gone does so in its children. -/
theorem Spares.children {u : Nat} {n c : Node}
    (hc : c.emptied (σ u) ∈ (n.emptied (σ u)).children) (h : setup.Spares σ u n) :
    setup.Spares σ u c := by
  intro p hp start hs
  refine h p hp start ?_
  rw [Node.scopeStarts_eq]
  exact List.mem_append_right _ (List.mem_flatMap.2 ⟨_, hc, hs⟩)

/-- What spares the scopes that are gone does so in what it runs. -/
theorem Spares.part {u : Nat} {n c : Node} (h : setup.Spares σ u n) (hc : c ∈ n.parts) :
    setup.Spares σ u c := by
  refine h.children (Node.mem_children_of_mem_parts ?_)
  rw [Node.parts_emptied]
  exact List.mem_map_of_mem hc

/-- Values keep their names when classes are emptied. -/
theorem same_emptying : (setup.emptying σ).Same := fun _ _ => Iff.rfl

/-- The program itself spares all scopes that are gone. -/
theorem spares_program (hd : ∀ (u : Nat) p, setup.programs[u]? = some p → p.program.Distinct)
    {u : Nat} {p : Prepared} (hp : setup.programs[u]? = some p) :
    setup.Spares σ u (.program p.program.body) := by
  intro p' hp' start hs
  obtain rfl := Option.some.inj (hp.symm.trans hp')
  exact Script.Program.notMem_cutStarts (hd u p hp) hs

/-- What a spared node declares on entry is spared: the template is one of the emptied program,
too. -/
theorem templates_emptying (hd : ∀ (u : Nat) p, setup.programs[u]? = some p → p.program.Distinct)
    (hσ : ∀ u cls, σ u cls = true → cls.Contained) {u : Nat} {p : Prepared}
    (hp : setup.programs[u]? = some p) {n : Node} {start : Int} (hn : setup.Spares σ u n)
    (hs : n.entry? = some start) :
    Option.Rel ((setup.emptying σ).Templates u) (p.hoisting.find? start)
      ((p.program.emptied (σ u)).hoisting.find? start) := by
  have hstart : start ∉ (Node.program p.program.body).cutStarts (σ u) := by
    unfold Node.entry? at hs
    split at hs
    · obtain rfl := Option.some.inj hs
      exact Script.Program.root_notMem_cutStarts (hd u p hp)
    · refine hn p hp start ?_
      rw [Node.scopeStarts_eq, Node.scopeStart?_emptied, hs]
      exact List.mem_cons_self
  have hfind := Script.Program.find?_emptied (hd u p hp) (hσ u) hstart
  rw [← p.hoisting_eq] at hfind
  rw [hfind]
  cases ht : p.hoisting.find? start with
  | none => exact .none
  | some t =>
    refine .some ⟨rfl, fun fn hfn p' hp' => ?_⟩
    obtain rfl := Option.some.inj (hp.symm.trans hp')
    rw [ht] at hfind
    have hreaches := (p.program.emptied (σ u)).reaches_of_hoisted true (t.emptied (σ u))
      (List.mem_of_find?_eq_some hfind) (fn.emptied (σ u)) (List.mem_map_of_mem hfn)
    intro start hs
    exact Script.Program.notMem_cutStarts (hd u p hp) (hreaches.scopeStarts_subset hs)

/-- Globals are converted alike. -/
theorem couples_newGlobals {u : Nat} {w : (setup.emptying σ).coupling.Stage} (root : Host.Datum) :
    (setup.emptying σ).coupling.Couples u w (newGlobals root) (newGlobals root)
      fun _ f f' => f' = f := by
  refine ⟨fun w₁ _ s t hst hu => ?_⟩
  obtain ⟨⟨heq, hcode⟩, hp⟩ := hst
  rw [newGlobals_eq, newGlobals_eq, show (setup.emptied σ).graph = setup.graph from rfl]
  cases setup.graph.globals root with
  | error fault => exact rfl
  | ok entries =>
    have hconversion : t.conversion =
        s.conversion.withClosures (s.heap.closures.map (Closure.emptied σ)) := by
      have hheap : t.heap = s.heap.emptied σ := congrArg Content.heap heq
      have hprovenance : t.provenance = s.provenance := congrArg Content.provenance heq
      have hknown : t.known = s.known := congrArg Content.known heq
      unfold State.conversion
      rw [hheap, hprovenance, hknown]
      rfl
    have hclosures : (Host.Conversion.frame setup.graph s.conversion entries).2.heap.closures =
      s.heap.closures := Host.Conversion.closures_frame setup.graph s.conversion entries
    dsimp only
    rw [hconversion, Host.Conversion.frame_withClosures]
    refine ⟨(), trivial, ⟨⟨?_, fun fn hfn => hcode fn ?_⟩, { hp with }⟩, hu, rfl⟩
    · have hthrown : t.thrown = s.thrown := congrArg Content.thrown heq
      have hdiagnostics : t.diagnostics = s.diagnostics := congrArg Content.diagnostics heq
      have hwarnings : t.warnings = s.warnings := congrArg Content.warnings heq
      simp only [State.content, State.withConversion, Host.Conversion.withClosures, Heap.emptied,
        hthrown, hdiagnostics, hwarnings, hclosures]
    · show fn ∈ s.heap.closures
      rw [← hclosures]
      exact hfn

/-- External code corresponds when classes are emptied. -/
theorem external_emptying (hd : ∀ (u : Nat) p, setup.programs[u]? = some p → p.program.Distinct) :
    (setup.emptying σ).coupling.External where
  ref h := same_emptying.refs_iff.1 h
  provenance h := congrArg Content.provenance h.1.1
  request path := Matching.Lawful.change fun s t hc hp hu => ⟨(), _, (), _, rfl, rfl, hc,
    { hp with requests := congrArg (·.push path) hp.requests }, hu, trivial⟩
  anchored span h := Matching.Lawful.couples_anchored span h
  newGlobals root := (couples_newGlobals root).imp fun _ f f' _ hf v p hp =>
    ⟨by rw [hf], spares_program hd hp⟩

/-! ### Laws -/

/-- A function literal stands where the function stands. -/
theorem Spares.literal {u : Nat} {fn : Script.Function}
    (h : setup.Spares σ u (.expr (.function fn))) :
    setup.Spares σ u (.function fn) := by
  intro p hp start hs
  refine h p hp start ?_
  rw [Node.scopeStarts_eq] at hs ⊢
  have hchildren : (Node.emptied (σ u) (.expr (.function fn))).children =
      (Node.emptied (σ u) (.function fn)).children := Node.children_expr_function _
  rw [hchildren]
  exact hs

/-- The parameters of a function spare what the function spares. -/
theorem Spares.params {u : Nat} {fn : Script.Function} (h : setup.Spares σ u (.function fn)) :
    setup.Spares σ u (.params fn.params) := by
  refine h.children ?_
  cases fn
  exact List.mem_cons_self

/-- The body of a function spares what the function spares. -/
theorem Spares.body {u : Nat} {fn : Script.Function} (h : setup.Spares σ u (.function fn)) :
    setup.Spares σ u (.ofBody fn.body) := by
  refine h.children ?_
  rw [← Node.ofBody_emptied]
  cases fn
  exact List.mem_cons_of_mem _ List.mem_cons_self

/-- Values stay what they are, and what spares scopes does so in all its parts. -/
theorem lawful_naming_emptying : (setup.emptying σ).toNaming.Lawful where
  kind {v v'} h := by
    obtain rfl : v' = v := h
    rfl
  native h _ := h
  primitive _ := rfl
  intrinsic _ := rfl
  builtin _ := rfl
  unique {v v' u u'} h h' := by
    obtain rfl : v' = v := h
    obtain rfl : u' = u := h'
    rfl
  part h hc := Spares.part h hc
  literal h := Spares.literal h
  params h := Spares.params h
  body h := Spares.body h
  identifier _ h := h

section
variable {c c' : Content} (h : (setup.emptying σ).content c c')
include h

/-- A function has the code that it had, with the classes in it emptied. -/
theorem closure_emptying (id : Nat) :
    Option.Rel (setup.emptying σ).Closures (c.heap.closure? id) (c'.heap.closure? id) := by
  obtain ⟨rfl, hcode⟩ := h
  show Option.Rel _ c.heap.closures[id]? (c.heap.closures.map (Closure.emptied σ))[id]?
  rw [Array.getElem?_map]
  cases hfn : c.heap.closures[id]? with
  | none => exact .none
  | some fn => exact .some (Naming.closures_iff.2 ⟨rfl, hcode fn (Array.mem_of_getElem? hfn)⟩)

/-- A function that is made has code that spares the scopes that are gone. -/
theorem newClosure_emptying {fn fn' : Closure} (hfn : (setup.emptying σ).Closures fn fn') :
    (setup.emptying σ).value (c.heap.addClosure fn).1 (c'.heap.addClosure fn').1 ∧
      (setup.emptying σ).content { c with heap := (c.heap.addClosure fn).2 }
        { c' with heap := (c'.heap.addClosure fn').2 } := by
  obtain ⟨rfl, hcode⟩ := h
  obtain ⟨rfl, hspares⟩ := Naming.closures_iff.1 hfn
  refine ⟨?_, ?_, fun g hg k hk => ?_⟩
  · simp [emptying, Heap.addClosure, Heap.emptied]
  · simp [Heap.addClosure, Heap.emptied]
    rfl
  · rcases Array.mem_push.1 hg with hg | rfl
    · exact hcode g hg k hk
    · exact hspares k hk

/-- Marking a function as an accessor leaves its code as it is. -/
theorem mark_emptying (a : Accessor) (id : Nat) :
    (setup.emptying σ).content { c with heap := c.heap.markAccessor id a }
      { c' with heap := c'.heap.markAccessor id a } := by
  obtain ⟨rfl, hcode⟩ := h
  refine ⟨by rw [Heap.markAccessor_emptied], fun g hg k hk => ?_⟩
  obtain ⟨fn, hfn, hk⟩ := Heap.exists_of_mem_markAccessor hg
  exact hcode fn hfn k (hk ▸ ‹g.code = some k›)

end

/-- Emptying classes that hoist no names is a lawful matching: nothing but the code of functions
differs between the heaps, and templates are those of the programs. -/
theorem lawful_emptying (hd : ∀ (u : Nat) p, setup.programs[u]? = some p → p.program.Distinct)
    (hσ : ∀ u cls, σ u cls = true → cls.Contained) : (setup.emptying σ).Lawful where
  toLawful := lawful_naming_emptying
  maxCallDepth := rfl
  strict := rfl
  canceled := rfl
  resolver := rfl
  external _ := external_emptying hd
  programs u := by
    show Option.Rel _ setup.programs[u]? (setup.programs.mapIdx _)[u]?
    rw [Array.getElem?_mapIdx]
    cases hp : setup.programs[u]? with
    | none => exact .none
    | some p => exact .some ⟨rfl, fun n start hn hs => templates_emptying hd hσ hp hn hs⟩
  thrown {c c'} h := by
    obtain ⟨rfl, -⟩ := h
    exact same_emptying.refs_iff.2 rfl
  object {c c' id id'} h hv := by
    obtain ⟨rfl, -⟩ := h
    cases hv
    exact same_emptying.cells_iff.2 rfl
  array {c c' id id'} h hv := by
    obtain ⟨rfl, -⟩ := h
    cases hv
    exact ⟨same_emptying.refs_iff.2 rfl, rfl⟩
  closure {c c' id id'} h hv := by
    cases hv
    exact closure_emptying h id
  binding {c c' f name} h _ := by
    obtain ⟨rfl, -⟩ := h
    exact rel_self (fun _ => (Matching.operands_iff_of_same same_emptying).2 rfl) _
  path {c c' v v'} h hv := by
    obtain ⟨rfl, -⟩ := h
    obtain rfl : v' = v := hv
    exact ⟨rfl, fun _ => rfl⟩
  flatten {c c' r r'} h hr := by
    obtain ⟨rfl, -⟩ := h
    obtain rfl := same_emptying.refs_iff.1 hr
    exact same_emptying.refs_iff.2 (Heap.flatten_emptied ..)
  throws {c c' r r'} h hr := by
    obtain ⟨rfl, hcode⟩ := h
    obtain rfl := same_emptying.refs_iff.1 hr
    exact ⟨rfl, hcode⟩
  report {c c' d d'} h _ hd := by
    obtain ⟨rfl, hcode⟩ := h
    obtain rfl := hd trivial
    exact ⟨rfl, hcode⟩
  warn message h := by
    obtain ⟨rfl, hcode⟩ := h
    exact ⟨rfl, hcode⟩
  write {c c' v v' r r'} k h hv hr := by
    obtain ⟨rfl, hcode⟩ := h
    obtain rfl : v' = v := hv
    obtain rfl := same_emptying.refs_iff.1 hr
    cases v' <;> exact ⟨rfl, hcode⟩
  newObject {c c' o o'} h ho := by
    obtain ⟨rfl, hcode⟩ := h
    obtain rfl := same_emptying.cells_iff.1 ho
    exact ⟨rfl, rfl, hcode⟩
  newArray {c c' r r'} h hr := by
    obtain ⟨rfl, hcode⟩ := h
    obtain rfl := same_emptying.refs_iff.1 hr
    exact ⟨rfl, rfl, hcode⟩
  newFrame f h _ := by
    obtain ⟨rfl, hcode⟩ := h
    exact ⟨rfl, rfl, hcode⟩
  newClosure h hfn := newClosure_emptying h hfn
  mark {c c' id id'} a h hv := by
    cases hv
    exact mark_emptying h a id
  define {c c' o o'} f name h ho := by
    obtain ⟨rfl, hcode⟩ := h
    obtain rfl := (Matching.operands_iff_of_same same_emptying).1 ho
    exact ⟨rfl, hcode⟩

/-- Without external code, levels never run out. -/
theorem analyze_ne_outOfFuel {setup : Setup} (hg : setup.graph.Grounded)
    (hr : setup.resolver = none)
    (globals : Host.Datum) : (setup.analyze globals).1 ≠ .error .outOfFuel := by
  have himpl : ∀ u, ¬ setup.Implements u := by
    rintro u ⟨resolver, _, _, _, h, _⟩
    rw [hr] at h
    cases h
  have hterminates : setup.Terminates globals fun _ _ => True :=
    terminates hg (fun u hu => absurd hu (himpl u)) (fun u _ _ hu => absurd hu (himpl u))
      (fun _ _ _ _ _ => trivial) globals
  intro hfuel
  rcases hterminates.outcome _ hfuel with (h | ⟨_, _, h⟩) | ⟨h, _⟩
  · exact h
  · cases h
  · cases h

/-- Class bodies have no influence where they hoist no names: if the elements of some classes are
deleted, the analysis ends with the same failure or with the same diagnostics and warnings, with as
many levels of recursion as one likes. -/
theorem analyze_emptied (setup : Setup) (σ : Nat → Script.Class → Bool) (globals : Host.Datum)
    (hd : ∀ (u : Nat) p, setup.programs[u]? = some p → p.program.Distinct)
    (hσ : ∀ u cls, σ u cls = true → cls.Contained) :
    (∀ n, (setup.emptied σ).analyzeWith n globals = setup.analyzeWith n globals) ∧
    ((setup.analyze globals).1 ≠ .error .outOfFuel →
      ((setup.emptied σ).analyze globals).1 ≠ .error .outOfFuel →
      ((setup.emptied σ).analyze globals).1 = (setup.analyze globals).1) ∧
    (setup.graph.Grounded → setup.resolver = none →
      ((setup.emptied σ).analyze globals).1 = (setup.analyze globals).1) := by
  have hstart : (setup.emptying σ).content State.start.content State.start.content :=
    ⟨by simp [State.content, State.start, Heap.emptied, Heap.empty],
      fun fn hfn => absurd hfn (Array.not_mem_empty fn)⟩
  have hsame : ∀ n, (setup.emptied σ).analyzeWith n globals = setup.analyzeWith n globals := by
    intro n
    have hroot := (couples_newGlobals (σ := σ) (u := 0) (w := ()) globals).run () trivial .start
      .start ⟨hstart, .rfl⟩ rfl
    rcases (lawful_emptying hd hσ).ends (n := n) hroot fun p hp => spares_program hd hp with
      ⟨f, h, h'⟩ | ⟨c, c', hc, h, h'⟩
    · rw [h, h']
    · rw [h, h', hc.1]
      rfl
  have hends : (setup.analyze globals).1 ≠ .error .outOfFuel →
      ((setup.emptied σ).analyze globals).1 ≠ .error .outOfFuel →
      ((setup.emptied σ).analyze globals).1 = (setup.analyze globals).1 := by
    intro h h'
    rw [analyze_eq] at h h' ⊢
    rw [analyze_eq, ← analyzeWith_of_le (Nat.le_max_left _ setup.fuel) h', hsame,
      analyzeWith_of_le (Nat.le_max_right _ _) h]
  exact ⟨hsame, hends, fun hg hr => hends (analyze_ne_outOfFuel hg hr globals)
    (@analyze_ne_outOfFuel (setup.emptied σ) hg hr globals)⟩

end Setup

/-- The program `class C { static { let g; } m() { g.y = 2; } } g.x = 1;`, whose class hoists no
names. -/
def containedClass : Setup where
  options := Options.standard
  programs := #[.ofProgram
    ⟨"script", "class C \x7b static \x7b let g; \x7d m() \x7b g.y = 2; \x7d \x7d g.x = 1;",
    [.declareClass (.mk ⟨0, 46⟩ (some ⟨"C", ⟨6, 7⟩⟩) none
      [.staticBlock 10 (.mk ⟨17, 27⟩ [.declareLexical ⟨19, 24⟩
        [.mk (.leaf (.identifier ⟨"g", ⟨23, 24⟩⟩)) none]]),
       .method 28 (.string ⟨28, 29⟩ "m") (.mk ⟨28, 44⟩ false none (.mk ⟨29, 31⟩ [] none)
        (.block (.mk ⟨32, 44⟩ [.expression (.assign ⟨34, 41⟩ .plain
          (.leaf (.dot ⟨34, 37⟩ (.identifier ⟨"g", ⟨34, 35⟩⟩) "y"))
          (.number ⟨40, 41⟩ (some (.ofNat 2))))])))]),
     .expression (.assign ⟨47, 54⟩ .plain (.leaf (.dot ⟨47, 50⟩ (.identifier ⟨"g", ⟨47, 48⟩⟩) "x"))
       (.number ⟨53, 54⟩ (some (.ofNat 1))))]⟩]
  graph := ⟨#[.object [("g", .container 1)] false, .object [] false]⟩
  resolver := none
  canceled := false

/-- All classes that hoist no names are emptied, the one of `containedClass` among them. -/
theorem analyze_emptied_containedClass :
    let σ : Nat → Script.Class → Bool := fun _ cls => decide cls.Contained
    (∀ (u : Nat) p, containedClass.programs[u]? = some p → p.program.Distinct) ∧
    (∀ u cls, σ u cls = true → cls.Contained) ∧
    ((containedClass.emptied σ).programs.toList.map fun p =>
      (Node.program p.program.body).scopeStarts) = [[]] ∧
    ((containedClass.emptied σ).analyze (.container 0)).1 =
      (containedClass.analyze (.container 0)).1 ∧
    ((containedClass.analyze (.container 0)).1.toOption.map fun r => r.diagnostics.map (·.span)) =
      some [⟨47, 54⟩] := by
  have hd : ∀ (u : Nat) p, containedClass.programs[u]? = some p → p.program.Distinct := by
    intro u p hp
    obtain rfl := List.mem_singleton.1 (List.mem_of_getElem? (l := containedClass.programs.toList)
      (by simpa using hp))
    exact ⟨by decide +kernel, by decide +kernel⟩
  have hσ : ∀ (u : Nat) (cls : Script.Class), decide cls.Contained = true → cls.Contained :=
    fun _ _ h => of_decide_eq_true h
  have hg : containedClass.graph.Grounded := Host.Graph.grounded_of_shared (by decide)
  exact ⟨hd, hσ, by decide +kernel,
    (Setup.analyze_emptied containedClass (fun _ cls => decide cls.Contained) (.container 0) hd
      hσ).2.2 hg rfl, by decide +kernel⟩

/-- The program `class C { static { var g; } } g.x = 1;`. The `var` of the static block is hoisted
into the program. -/
def staticVariable : Setup where
  options := Options.standard
  programs := #[.ofProgram ⟨"script", "class C \x7b static \x7b var g; \x7d \x7d g.x = 1;",
    [.declareClass (.mk ⟨0, 29⟩ (some ⟨"C", ⟨6, 7⟩⟩) none
      [.staticBlock 10 (.mk ⟨17, 27⟩ [.declareVar ⟨19, 24⟩
        [.mk (.leaf (.identifier ⟨"g", ⟨23, 24⟩⟩)) none]])]),
     .expression (.assign ⟨30, 37⟩ .plain (.leaf (.dot ⟨30, 33⟩ (.identifier ⟨"g", ⟨30, 31⟩⟩) "x"))
       (.number ⟨36, 37⟩ (some (.ofNat 1))))]⟩]
  graph := ⟨#[.object [("g", .container 1)] false, .object [] false]⟩
  resolver := none
  canceled := false

/-- The class body hides the global from the code outside of it: without its elements the assignment
is reported. -/
theorem staticVariable_hides :
    (staticVariable.analyze (.container 0)).1.toOption =
      some ⟨[], ["class body at [0,29) is not analyzed"]⟩ ∧
    ((staticVariable.emptied fun _ _ => true).analyze (.container 0)).1.toOption =
      some ⟨[⟨"Cannot assign to property of global value g", ⟨30, 37⟩, "g"⟩],
        ["class body at [0,29) is not analyzed"]⟩ := by
  decide +kernel

end FrozenGlobals
