import FrozenGlobals.Proofs.Analysis.Evaluation
import FrozenGlobals.Proofs.Discipline.Audit

/-!
# Reports stand at mutations

Without external code, whatever is reported stands at an assignment, an update, a deletion, a call,
a construction, or a loop that assigns to an expression, and all of these are nodes of the analyzed
program. What a report names is a container of the globals or a name that they bind.
`Setup.reports_at_mutations` says so of every analysis, and that a program without such nodes is not
reported on.

A report does not stand at the node that is evaluated when it is made, but at a range that was
handed down to it: through native methods, which call back on behalf of their own call, and through
accessors, which are called where a member is read. Nothing is reported on a read, because what it
calls is a function of the program (`Discipline.Calls`), and that reports at nodes of its own.
-/

namespace FrozenGlobals

open Run Discipline
open Script (Span Node)

/-! ## Mutations in syntax trees -/

namespace Script.Node

/-- A node stands in a syntax tree. -/
def Contains (n c : Node) : Prop := Relation.ReflTransGen (fun n c => c ∈ n.children) n c

/-- What stands in a child stands in the node. -/
theorem Contains.head {n c d : Node} (hc : c ∈ n.children) (h : c.Contains d) : n.Contains d :=
  Relation.ReflTransGen.head hc h

/-- A child stands in the node. -/
theorem contains_of_mem_children {n c : Node} (hc : c ∈ n.children) : n.Contains c :=
  .head hc .refl

/-- What a call of a function runs stands in the function. -/
theorem contains_of_mem_runs {strict : Bool} {fn : Function} {n c : Node}
    (hn : n.children = (Node.function fn).children) (h : c ∈ fn.runs strict) : n.Contains c := by
  have hparams : Node.params fn.params ∈ n.children := by simp [hn, children_function]
  have hbody : Node.ofBody fn.body ∈ n.children := by simp [hn, children_function]
  unfold Function.runs at h
  split at h
  · rcases List.mem_append.1 h with h | h
    · obtain ⟨b, hb, hc⟩ := exists_binding_of_mem_initializers h
      exact .head hparams (.head hb (contains_of_mem_children hc))
    · rw [List.mem_singleton.1 h]
      exact contains_of_mem_children hbody
  · simp only [List.mem_cons, List.not_mem_nil, or_false] at h
    rcases h with rfl | rfl
    · exact contains_of_mem_children hparams
    · exact contains_of_mem_children hbody

/-- What is reached in a tree stands in it. -/
theorem Reaches.contains {strict : Bool} {n c : Node} (h : n.Reaches strict c) : n.Contains c := by
  induction h with
  | refl => exact .refl
  | @tail b c _ hc ih =>
    refine Relation.ReflTransGen.trans ih ?_
    unfold reach at hc
    split at hc
    · exact contains_of_mem_runs rfl hc
    · exact contains_of_mem_runs (children_expr_function _) hc
    · exact contains_of_mem_children hc

/-- The ranges in a syntax tree at which evaluating it may report. -/
def mutationSpans (n : Node) : List Span :=
  n.mutation?.toList ++ (n.children.attach.map fun ⟨c, _⟩ => mutationSpans c).flatten
termination_by sizeOf n
decreasing_by exact Node.sizeOf_lt_of_mem_children ‹_›

/-- The ranges of mutations are those of the mutations that stand in the tree. -/
theorem mem_mutationSpans {n : Node} {span : Span} :
    span ∈ n.mutationSpans ↔ ∃ c, n.Contains c ∧ c.mutation? = some span := by
  constructor
  · fun_induction mutationSpans n with
    | case1 n ih =>
      intro h
      rcases List.mem_append.1 h with h | h
      · exact ⟨n, .refl, Option.mem_toList.1 h⟩
      · obtain ⟨_, hspans, hspan⟩ := List.mem_flatten.1 h
        obtain ⟨⟨c, hc⟩, -, rfl⟩ := List.mem_map.1 hspans
        obtain ⟨d, hd, hm⟩ := ih c hc hspan
        exact ⟨d, .head hc hd, hm⟩
  · rintro ⟨c, hc, hm⟩
    induction hc using Relation.ReflTransGen.head_induction_on with
    | refl =>
      rw [mutationSpans]
      exact List.mem_append_left _ (Option.mem_toList.2 hm)
    | @head n d hd _ ih =>
      rw [mutationSpans.eq_def n]
      refine List.mem_append_right _ (List.mem_flatten.2 ⟨d.mutationSpans, ?_, ih⟩)
      exact List.mem_map.2 ⟨⟨d, hd⟩, List.mem_attach _ _, rfl⟩

end Script.Node

/-- The ranges of the analyzed program at which it may be reported on. -/
def Setup.mutationSpans (setup : Setup) : List Span :=
  (setup.programs[0]?.map fun p => (Node.program p.program.body).mutationSpans).getD []

/-- What the analyzed program may run reports at its own mutations. -/
theorem Setup.HasNode.mem_mutationSpans {setup : Setup} {n : Node} {span : Span}
    (h : setup.HasNode 0 n) (hm : n.mutation? = some span) : span ∈ setup.mutationSpans := by
  obtain ⟨prepared, hu, hn⟩ := h
  rw [Setup.mutationSpans, hu]
  exact Node.mem_mutationSpans.2 ⟨n, hn.contains, hm⟩

/-! ## What reports name -/

/-- More frames bind what was bound. -/
theorem Heap.isSome_find?_of_prefix {h h' : Heap} (hp : h.frames.toList <+: h'.frames.toList)
    {frame : Nat} {name : String} (hb : ((h.frame frame).find? name).isSome) :
    ((h'.frame frame).find? name).isSome := by
  cases hf : h.frames[frame]? with
  | none =>
    rw [Heap.frame, hf] at hb
    cases hb
  | some f =>
    have hf' : h'.frames[frame]? = some f := by
      rw [← Array.getElem?_toList] at hf ⊢
      obtain ⟨more, hmore⟩ := hp
      obtain ⟨hlt, -⟩ := List.getElem?_eq_some_iff.1 hf
      rw [← hmore, List.getElem?_append_left hlt]
      exact hf
    rw [Heap.frame, hf] at hb
    rwa [Heap.frame, hf']

namespace State

variable {setup : Setup} {scope : Stack → Prop} {code : Nat → Script.Function → Prop}
  {place : Nat → Span → Prop} {s s' : State}

/-- Names stay bound. -/
theorem Change.isSome_find? (h : Change setup scope code place s s') {frame : Nat} {name : String}
    (hb : ((s.heap.frame frame).find? name).isSome) :
    ((s'.heap.frame frame).find? name).isSome := by
  cases h with
  | note | warn | skip | report | throws | object | array | accessor | closure => exact hb
  | frame f => exact Heap.isSome_find?_of_prefix (by simp [Heap.addFrame]) hb
  | setKey r k v =>
    refine Heap.isSome_find?_of_prefix ?_ hb
    simp [Heap.setKey, (Heap.frames_foldl_setKeyOf s.heap k v r.values).1]
  | @convert root entries _ =>
    have hextends := Host.Conversion.extends_frame setup.graph s.conversion entries
    exact Heap.isSome_find?_of_prefix hextends.frames hb
  | define other name' o =>
    rw [Heap.frame_define]
    split
    · next hframe =>
      rw [Frame.find?_define, ← hframe.1]
      split
      · rfl
      · exact hb
    · exact hb

/-- What the path of a report may be: none, that of a container of the globals, or a name that the
globals bind. -/
def Cites (s : State) (globals : Nat) (path : String) : Prop :=
  path = "" ∨ (∃ v p, s.provenance.find? v = some p ∧ path = p.render) ∨
    ∃ name, ((s.heap.frame globals).find? name).isSome ∧ path = Path.render [.key name]

variable {globals : Nat}

/-- What was cited may still be cited later. -/
theorem Cites.change {path : String} (hs : s.Cites globals path)
    (h : Change setup scope code place s s') : s'.Cites globals path := by
  rcases hs with hempty | ⟨v, p, hv, hp⟩ | ⟨name, hb, hp⟩
  · exact .inl hempty
  · exact .inr (.inl ⟨v, p, h.grows.paths v p hv, hp⟩)
  · exact .inr (.inr ⟨name, h.isSome_find? hb, hp⟩)

/-- The path of a report is that of a container or of a name that the globals bind. -/
theorem Names.cites {path : Option Path} (h : s.Names scope path)
    (hscope : ∀ stack, scope stack → Stack.globals? stack = some globals) :
    s.Cites globals ((path.map Path.render).getD "") := by
  cases h with
  | nothing => exact .inl rfl
  | container hv => exact .inr (.inl ⟨_, _, hv, rfl⟩)
  | @binding stack frame name hstack hglobals howner =>
    cases (hscope stack hstack).symm.trans hglobals
    refine .inr (.inr ⟨name, ?_, rfl⟩)
    exact List.find?_some (p := fun id => ((s.heap.frame id).find? name).isSome) howner

end State

/-! ## The discipline -/

/-- Frames of a program on top of the globals. -/
structure Stack.Over (globals : Nat) (stack : Stack) : Prop where
  length : 2 ≤ stack.length
  globals : Stack.globals? stack = some globals

/-- A frame on top of others leaves the globals where they are. -/
theorem Stack.Over.push {globals : Nat} {stack : Stack} (h : stack.Over globals) (frame : Nat) :
    Stack.Over globals (frame :: stack) where
  length := Nat.le_succ_of_le h.length
  globals := by
    have hglobals := h.globals
    unfold Stack.globals? at hglobals ⊢
    rw [List.getLast?_cons, hglobals]
    rfl

/-- The analyzed program may run what calls of a function run. -/
def Setup.HasOwn (setup : Setup) (u : Nat) (fn : Script.Function) : Prop :=
  u = 0 ∧ setup.HasFunction u fn

/-- The analyzed program is run, and was reported on at mutations only. -/
structure State.Sited (setup : Setup) (globals : Nat) (s : State) : Prop where
  unit : s.unit = 0
  anchors : s.anchors = []
  closures : s.Closures (Stack.Over globals) setup.HasOwn
  diagnostics : ∀ d ∈ s.diagnostics.toList, d.span ∈ setup.mutationSpans ∧ s.Cites globals d.path

/-- In the beginning nothing was reported. -/
theorem State.sited_start (setup : Setup) (globals : Nat) : State.start.Sited setup globals :=
  ⟨rfl, rfl, State.closures_start _ _, nofun⟩

/-- Every single change reports at mutations. -/
theorem State.Sited.change {setup : Setup} {globals : Nat} {s s' : State}
    (hs : s.Sited setup globals) (h : Change setup (Stack.Over globals) setup.HasOwn
      (fun _ span => span ∈ setup.mutationSpans) s s') : s'.Sited setup globals where
  unit := (congrArg Position.unit h.position).trans hs.unit
  anchors := (congrArg Position.anchors h.position).trans hs.anchors
  closures := hs.closures.change h
  diagnostics := by
    have hkept : ∀ d ∈ s.diagnostics.toList,
        d.span ∈ setup.mutationSpans ∧ s'.Cites globals d.path := fun d hd =>
      ⟨(hs.diagnostics d hd).1, (hs.diagnostics d hd).2.change h⟩
    cases h with
    | @report site path message hplace hpath =>
      intro d hd
      simp only [Array.toList_push, List.mem_append, List.mem_singleton] at hd
      rcases hd with hd | rfl
      · exact hkept d hd
      · refine ⟨?_, hpath.cites fun _ hstack => hstack.globals⟩
        rw [diagnosticAt, hs.anchors]
        exact hplace
    | _ => exact hkept

/-- Only the analyzed program is run, and it is reported on at mutations. -/
def Discipline.siting {setup : Setup} (hr : setup.resolver = none) (globals : Nat) :
    Discipline setup where
  inv := State.Sited setup globals
  le := State.Later
  fails _ := True
  lost _ := False
  scope := Stack.Over globals
  code := setup.HasOwn
  place _ span := span ∈ setup.mutationSpans
  unit u := u = 0
  enters u _ := u = 0
  refl := State.Later.refl
  trans := State.Later.trans
  position h := h.position
  change hs h := ⟨hs.change h, h.grows, h.reportsUnder, h.position⟩
  inUnit hs hu := ⟨⟨hu, hs.anchors, hs.closures, hs.diagnostics⟩, fun hs' h =>
    ⟨⟨hs.unit, hs'.anchors, hs'.closures, hs'.diagnostics⟩, h.leave_unit⟩⟩
  closure hs h := hs.closures _ _ h
  push f h := h.push f
  framed h := .inl h.length
  root h := h
  opens _ _ := .inr trivial
  hoisted hu hp ht hfn := ⟨hu, Setup.hasFunction_of_hoisted hp ht hfn⟩
  runnable h := h.1
  external h := by
    obtain ⟨resolver, _, _, _, heq, _⟩ := h
    cases hr.symm.trans heq
  missing _ _ := trivial
  expected _ := trivial
  fails_within _ _ := trivial
  lost_within _ h := h

section
variable {setup : Setup} (hr : setup.resolver = none) (globals : Nat)

instance : (Discipline.siting hr globals).Alone := ⟨rfl, fun _ _ _ => id, fun _ => id⟩

instance : (Discipline.siting hr globals).Counting :=
  ⟨fun _ hs _ => ⟨⟨hs.unit, hs.anchors, hs.closures, hs.diagnostics⟩, fun hs' h =>
    ⟨⟨hs'.unit, hs'.anchors, hs'.closures, hs'.diagnostics⟩, h.returned⟩⟩⟩

/-- Code of the analyzed program, and calls that may be made. -/
def Licence.sited : Licence where
  node p n := p.unit = 0 ∧ setup.HasNode p.unit n
  call := (Discipline.siting hr globals).Calls

/-- What the analyzed program may run is licensed with its parts. -/
theorem Licence.covers_sited {p : Position} {n : Node} (hp : p.unit = 0)
    (h : setup.HasNode p.unit n) : (Licence.sited hr globals).Covers p n :=
  fun _ hc => ⟨hp, h.within hc⟩

/-- What is licensed asks for parts, reports and calls that are licensed. -/
theorem Licence.lifts_sited :
    (Licence.sited hr globals).Lifts (.sited hr globals) (Discipline.siting hr globals) where
  opens h _ := h.1
  part h hmem := covers_sited hr globals h.1 (h.2.within (.of_part hmem (.refl _)))
  place {p n span} h hm := by
    obtain ⟨hp, hnode⟩ := h
    rw [hp] at hnode
    exact hnode.mem_mutationSpans hm
  call _ h := h
  site h := h
  function h := ⟨h.1, h.2.function⟩
  native {p b c} h := by
    intro v c' hsite _
    have hplace : c.site.span ∈ setup.mutationSpans := h.resolve_left nofun
    refine .inr ?_
    rw [hsite]
    exact hplace
  enter _ := fun hcode _ hmem => covers_sited hr globals hcode.1 (hcode.2 _ hmem)
  follow h _ := by
    rw [hr] at h
    cases h

/-- Every level of the evaluation reports at mutations. -/
theorem Evaluator.agrees_siting (n : Nat) :
    Agrees (Discipline.siting hr globals) (.sited hr globals) (ofFuel n) (ofFuel n) := by
  induction n with
  | zero =>
    refine ⟨(Licence.lifts_sited hr globals).opens, fun _ _ => ?_, fun _ _ _ => ?_, fun _ _ => ?_,
      fun _ => ?_⟩ <;>
      exact .throw fun _ _ _ => trivial
  | succ n ih => exact ih.step (Licence.lifts_sited hr globals)

end

namespace Setup

variable {setup : Setup}

/-- Whatever a run of the program starts with, analyses end in states that were reported on at
mutations only. -/
theorem sited_of_ends (hr : setup.resolver = none) {globals : Host.Datum} {frame : Nat}
    (hframe : ∀ f s, newGlobals globals setup .start = .ok f s → f = frame) {s : State}
    (hs : setup.Ends globals s) : s.Sited setup frame := by
  have hstart := State.sited_start setup frame
  have hrun : ∀ f s, newGlobals globals setup .start = .ok f s → setup.programs[0]?.isSome →
      (siting hr frame).Keeps ⟨0, 0, []⟩ (setup.evaluator.runProgram 0 [f]) fun _ => True := by
    intro f s hf _
    rw [hframe f s hf]
    exact (Evaluator.agrees_siting hr frame _).runProgram rfl (fun _ => ⟨Nat.le_refl 2, rfl⟩)
      fun hprepared hmem => ⟨rfl, hasNode_stmt hprepared hmem⟩
  rcases hs with rfl | rfl
  · exact (outcome_of_keeps (fun _ => id) (keeps_evaluation hstart (fun _ => trivial) hrun)).1
  · exact (outcome_of_keeps (fun _ => id) (keeps_report hstart (fun _ => trivial) hrun)).1

/-- Reports stand at mutations. Without external code, each report is about a node of the analyzed
program that assigns, updates, deletes, calls or constructs, and about a container of the globals
or a name that they bind, if about anything in particular. A program without such nodes has no
reports. -/
theorem reports_at_mutations (hr : setup.resolver = none) (globals : Host.Datum) :
    (∀ frame s₀ s, newGlobals globals setup .start = .ok frame s₀ → setup.Ends globals s →
      ∀ d ∈ s.diagnostics.toList, d.span ∈ setup.mutationSpans ∧ s.Cites frame d.path) ∧
    (setup.mutationSpans = [] → (∀ s, setup.Ends globals s → s.diagnostics = #[]) ∧
      ∀ report, (setup.analyze globals).1 = .ok report → report.diagnostics = []) := by
  refine ⟨fun frame s₀ s hframe hs => ?_, fun hnone => ?_⟩
  · refine (sited_of_ends hr (fun f s hf => ?_) hs).diagnostics
    cases hframe.symm.trans hf
    rfl
  · -- some frame is that of the globals, if there is one
    obtain ⟨frame, hframe⟩ : ∃ frame, ∀ f s, newGlobals globals setup .start = .ok f s →
        f = frame := by
      cases hglobals : newGlobals globals setup .start with
      | ok frame s =>
        refine ⟨frame, fun f s hf => ?_⟩
        cases hf
        rfl
      | error f s => exact ⟨0, fun _ _ => nofun⟩
    have hnever : ∀ s, setup.Ends globals s → s.diagnostics = #[] := by
      intro s hs
      rw [← Array.toList_eq_nil_iff]
      refine List.eq_nil_iff_forall_not_mem.2 fun d hd => ?_
      have hspan := ((sited_of_ends hr hframe hs).diagnostics d hd).1
      rw [hnone] at hspan
      cases hspan
    refine ⟨hnever, fun report h => ?_⟩
    have hnever := hnever _ (.inr rfl)
    unfold analyze Run.outcome at h hnever
    cases hreport : setup.report globals setup .start with
    | ok own s =>
      rw [hreport] at h hnever
      cases h
      have hnever : s.diagnostics = #[] := hnever
      rw [eq_of_report hreport, hnever]
      simp [Diagnostic.dedupe, Diagnostic.keepFirst]
    | error f s =>
      rw [hreport] at h
      cases h

end Setup

/-- The program `[g].map(x => x.p = 1); delete g.q;`, which writes to a global in a function that a
native method calls back, and deletes from it. -/
def mappedWrite : Setup where
  options := { Options.standard with maxCallDepth := 1 }
  programs := #[.ofProgram ⟨"script", "[g].map(x => x.p = 1); delete g.q;",
    [.expression (.call ⟨0, 21⟩
      (.dot ⟨0, 7⟩ (.array ⟨0, 3⟩ [some (.identifier ⟨"g", ⟨1, 2⟩⟩)]) "map")
      [.function (.mk ⟨8, 20⟩ true none
        (.mk ⟨8, 9⟩ [.mk (.leaf (.identifier ⟨"x", ⟨8, 9⟩⟩)) none] none)
        (.expression (.assign ⟨13, 20⟩ .plain
          (.leaf (.dot ⟨13, 16⟩ (.identifier ⟨"x", ⟨13, 14⟩⟩) "p"))
          (.number ⟨19, 20⟩ (some (.ofNat 1))))))]),
     .expression (.unary ⟨23, 33⟩ .delete (.dot ⟨30, 33⟩ (.identifier ⟨"g", ⟨30, 31⟩⟩) "q"))]⟩]
  graph := emptyGlobal
  resolver := none
  canceled := false

/-- Both writes are reported, at the assignment in the callback and at the deletion. -/
theorem reports_at_mutations_mappedWrite :
    let made := Host.Conversion.frame mappedWrite.graph .empty [("g", .container 1)]
    let s₀ := State.start.withConversion made.2
    let s := (mappedWrite.analyze (.container 0)).2
    mappedWrite.resolver = none ∧ newGlobals (.container 0) mappedWrite .start = .ok made.1 s₀ ∧
    mappedWrite.mutationSpans = [⟨0, 21⟩, ⟨13, 20⟩, ⟨23, 33⟩] ∧
    s.diagnostics.toList.map (fun d => (d.span, d.path)) = [(⟨13, 20⟩, "g"), (⟨23, 33⟩, "g")] ∧
    ∀ d ∈ s.diagnostics.toList, d.span ∈ mappedWrite.mutationSpans ∧ s.Cites made.1 d.path := by
  intro made s₀ s
  have hglobals : newGlobals (.container 0) mappedWrite .start = .ok made.1 s₀ :=
    Setup.newGlobals_of_ok globals_emptyGlobal rfl
  exact ⟨rfl, hglobals, by decide +kernel, by decide +kernel,
    (Setup.reports_at_mutations rfl _).1 _ _ _ hglobals (.inr rfl)⟩

end FrozenGlobals
