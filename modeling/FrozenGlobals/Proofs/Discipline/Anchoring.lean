import FrozenGlobals.Proofs.Discipline.Audit

/-!
# Reports about external code

What is found in external code is reported at the call of the analyzed program through which it was
reached. `Setup.reports_at_calls` says when that is so: whatever is evaluated on behalf of such a
call reports there, and the call is one of the analyzed program as long as no external code is run
otherwise.

A function made by external code can be run otherwise: the analyzed program may get hold of it and
call it later. `escapedHandler` is a program that does, and gets a report about a range of the
external code.
-/

namespace FrozenGlobals

open Run Discipline
open Script (Span Node)

/-! ## Calls in syntax trees -/

namespace Script.Node

/-- The ranges of the calls in a syntax tree. -/
def callSpans (n : Node) : List Span :=
  let own : List Span := match n with
    | .expr (.call span _ _) => [span]
    | _ => []
  own ++ (n.children.attach.map fun ⟨c, _⟩ => callSpans c).flatten
termination_by sizeOf n
decreasing_by exact Node.sizeOf_lt_of_mem_children ‹_›

/-- The calls of a child are calls of the node. -/
theorem callSpans_subset_of_mem_children {n c : Node} (h : c ∈ n.children) :
    c.callSpans ⊆ n.callSpans := by
  intro span hspan
  rw [callSpans.eq_def n]
  refine List.mem_append_right _ (List.mem_flatten.2 ⟨c.callSpans, ?_, hspan⟩)
  exact List.mem_map.2 ⟨⟨c, h⟩, List.mem_attach _ _, rfl⟩

/-- The calls of what a function runs are calls of the function. -/
theorem callSpans_subset_of_mem_runs {strict : Bool} {fn : Function} {n c : Node}
    (hn : n.children = (Node.function fn).children) (h : c ∈ fn.runs strict) :
    c.callSpans ⊆ n.callSpans := by
  have hparams : (Node.params fn.params).callSpans ⊆ n.callSpans :=
    callSpans_subset_of_mem_children (by simp [hn, children_function])
  have hbody : (Node.ofBody fn.body).callSpans ⊆ n.callSpans :=
    callSpans_subset_of_mem_children (by simp [hn, children_function])
  unfold Function.runs at h
  split at h
  · rcases List.mem_append.1 h with h | h
    · obtain ⟨b, hb, hc⟩ := exists_binding_of_mem_initializers h
      have hinit := List.Subset.trans (callSpans_subset_of_mem_children hc)
        (callSpans_subset_of_mem_children hb)
      exact List.Subset.trans hinit hparams
    · rwa [List.mem_singleton.1 h]
  · simp only [List.mem_cons, List.not_mem_nil, or_false] at h
    rcases h with rfl | rfl
    · exact hparams
    · exact hbody

/-- The calls of what a node reaches in one step are calls of the node. -/
theorem callSpans_subset_of_mem_reach {strict : Bool} {n c : Node} (h : c ∈ n.reach strict) :
    c.callSpans ⊆ n.callSpans := by
  unfold reach at h
  split at h
  · exact callSpans_subset_of_mem_runs rfl h
  · exact callSpans_subset_of_mem_runs (children_expr_function _) h
  · exact callSpans_subset_of_mem_children h

/-- Calls that are reached stand in the tree. -/
theorem Reaches.mem_callSpans {strict : Bool} {n : Node} {span : Span} {callee : Expr}
    {args : List Expr} (h : n.Reaches strict (.expr (.call span callee args))) :
    span ∈ n.callSpans := by
  induction h using Relation.ReflTransGen.head_induction_on with
  | refl =>
    rw [callSpans]
    exact List.mem_append_left _ (List.mem_singleton_self span)
  | head hc _ ih => exact callSpans_subset_of_mem_reach hc ih

end Script.Node

/-! ## Reports -/

/-- The ranges of the calls in the analyzed program. -/
def Setup.hostCalls (setup : Setup) : List Span :=
  (setup.programs[0]?.map fun p => (Node.program p.program.body).callSpans).getD []

/-- Calls that the analyzed program may run are calls of it. -/
theorem Setup.HasNode.mem_hostCalls {setup : Setup} {span : Span} {callee : Script.Expr}
    {args : List Script.Expr} (h : setup.HasNode 0 (.expr (.call span callee args))) :
    span ∈ setup.hostCalls := by
  obtain ⟨prepared, hu, hn⟩ := h
  rw [hostCalls, hu]
  exact hn.mem_callSpans

namespace State

/-- The diagnostics between two states. -/
def reported (s s' : State) : List Diagnostic := s'.diagnostics.toList.drop s.diagnostics.size

/-- On behalf of a call of the analyzed program, everything is reported there. -/
theorem ReportsUnder.span_eq {s s' : State} (h : s.ReportsUnder s') {a : Span}
    (ha : s.anchors.head? = some a) : ∀ d ∈ s.reported s', d.span = a := by
  obtain ⟨own, heq, hown⟩ := h
  have hreported : s.reported s' = own := by
    rw [reported, heq, ← Array.length_toList, List.drop_left]
  rw [hreported]
  exact hown a ha

end State

/-- What is evaluated on behalf of a call of the analyzed program reports there. -/
def Setup.ReportsThere {α : Type} (setup : Setup) (x : Run α) : Prop :=
  ∀ (s : State) (a : Span), s.anchors.head? = some a →
    ∀ d ∈ s.reported (setup.stateAfter x s), d.span = a

/-- What keeps growth reports at the call on whose behalf it is evaluated. -/
theorem Setup.reportsThere_of_keeps {setup : Setup} {α : Type} {x : Run α} {Q : α → Prop}
    (h : ∀ p, (Discipline.growth setup).Keeps p x Q) : setup.ReportsThere x := fun s _ ha =>
  (later_of_keeps h s).reports.span_eq ha

/-! ## Calls of the analyzed program -/

/-- Code of the analyzed program, or code run on behalf of one of its calls. -/
def Position.Confined (p : Position) : Prop := p.unit = 0 ∨ p.anchors ≠ []

instance : DecidablePred Position.Confined := fun p =>
  inferInstanceAs (Decidable (p.unit = 0 ∨ p.anchors ≠ []))

/-- What is run on behalf of a call is run on behalf of one of the analyzed program. -/
def Discipline.anchoring (setup : Setup) : Discipline setup where
  inv s := s.Coded setup ∧ ∀ a ∈ s.anchors.head?, a ∈ setup.hostCalls
  le := State.Later
  fails _ := True
  lost f := f = .outOfFuel
  scope stack := 2 ≤ stack.length
  code := setup.HasFunction
  unit _ := True
  enters := (Discipline.growth setup).enters
  refl := State.Later.refl
  trans := State.Later.trans
  position h := h.position
  change {s s'} hs h := by
    refine ⟨⟨hs.1.change h, ?_⟩, h.grows, h.reportsUnder, h.position⟩
    have hanchors : s'.anchors = s.anchors := congrArg Position.anchors h.position
    rw [hanchors]
    exact hs.2
  inUnit hs _ := ⟨hs, fun hs' h => ⟨hs', h.leave_unit⟩⟩
  closure hs h := hs.1 _ _ h
  push := @Stack.two_le_cons
  framed _ := .inr trivial
  root _ := trivial
  opens _ _ := .inr trivial
  hoisted _ hu ht hfn := Setup.hasFunction_of_hoisted hu ht hfn
  runnable _ := trivial
  external _ := trivial
  missing _ _ := trivial
  expected _ := trivial
  fails_within _ _ := trivial
  lost_within := Failure.outOfFuel_within

instance (setup : Setup) : (Discipline.anchoring setup).Alone := ⟨rfl, fun _ _ _ => id, fun _ => id⟩

instance (setup : Setup) : (Discipline.anchoring setup).Counting :=
  ⟨fun _ hs _ => ⟨hs, fun hs' h => ⟨hs', h.returned⟩⟩⟩

namespace Licence

/-- Code of the programs, confined. -/
def confined (setup : Setup) : Licence :=
  ⟨fun p n => setup.HasNode p.unit n ∧ p.Confined, fun p _ _ => p.Confined⟩

variable {setup : Setup}

/-- What is run on behalf of a call asks for nothing that is not. -/
theorem lifts_confined (setup : Setup) :
    (confined setup).Lifts (coded setup) (Discipline.anchoring setup) where
  opens _ _ := trivial
  part h hmem := covers_coded (h.1.within (.of_part hmem (.refl _)))
  place _ _ := trivial
  call _ _ := trivial
  site _ := .inr trivial
  function h := h.1.function
  native _ _ _ _ _ := trivial
  enter _ := fun hcode _ hmem => covers_coded (hcode _ hmem)
  follow {p span callee args} _ h := by
    refine ⟨fun _ _ => Nat.le_refl 2, fun s hs hp => ?_,
      fun _ hprepared hs => covers_coded (Setup.hasNode_stmt hprepared hs), fun _ _ => trivial⟩
    subst hp
    refine ⟨⟨hs.1, fun a ha => ?_⟩, fun {s'} hs' h => ⟨⟨hs'.1, hs.2⟩, h.leave_anchor⟩⟩
    have ha : s.anchors.head?.getD span = a := Option.some.inj ha
    -- the call around it is taken over, or a confined position is one of the analyzed program
    cases hanchors : s.anchors with
    | cons b rest =>
      refine hs.2 a ?_
      rw [hanchors] at ha ⊢
      exact congrArg some ha
    | nil =>
      have hunit : s.unit = 0 := h.2.resolve_right fun hne => hne hanchors
      have ha : span = a := by simpa [hanchors] using ha
      subst ha
      have hnode : setup.HasNode s.unit (.expr (.call span callee args)) := h.1
      rw [hunit] at hnode
      exact hnode.mem_hostCalls

end Licence

/-- As long as no external code is run otherwise than on behalf of a call, an audit that follows
from that makes no difference. -/
theorem Evaluator.agrees_anchoring (setup : Setup) {ok : State → State → Prop} [DecidableRel ok]
    (hok : ∀ s s', s.position.Confined → (∀ a ∈ s.anchors.head?, a ∈ setup.hostCalls) →
      s.ReportsUnder s' → ok s s') (n : Nat) :
    Agrees (Discipline.anchoring setup) (Licence.coded setup)
      (audited (fun s _ => s.position.Confined) n) (audited ok n) := by
  induction n with
  | zero =>
    refine ⟨fun _ _ => trivial, fun _ _ => ?_, fun _ _ _ => ?_, fun _ _ => ?_, fun _ => ?_⟩ <;>
      exact .throw fun _ _ _ => trivial
  | succ n ih =>
    refine (((ih.step (Licence.lifts_confined setup)).auditing ?_ ?_).of_auditing rfl
      (fun _ _ => trivial) (fun h hat => ⟨h, hat⟩) fun _ hat => hat)
    · intro p n s s' h hs hp _ hle
      exact hok s s' (hp ▸ h.2) hs.2 hle.reports
    · intro p v c s s' h hs hp _ hle
      exact hok s s' (hp ▸ h) hs.2 hle.reports

/-- What is evaluated on behalf of a call reports there. If external code is run on behalf of calls
only, then all that is reported while it is run is reported at calls of the analyzed program: an
audit for that gives what the evaluation gives. -/
theorem Setup.reports_at_calls (setup : Setup) (n : Nat) :
    ((∀ e stack, setup.ReportsThere ((Evaluator.ofFuel n).resolve e stack)) ∧
      (∀ how target init stack,
        setup.ReportsThere ((Evaluator.ofFuel n).bind how target init stack)) ∧
      (∀ fold s stack, setup.ReportsThere ((Evaluator.ofFuel n).walk fold s stack)) ∧
      ∀ v c, setup.ReportsThere ((Evaluator.ofFuel n).invoke v c)) ∧
    ∀ globals frame s r, newGlobals globals setup .start = .ok frame s →
      (Evaluator.audited (fun s _ => s.position.Confined) n).runProgram 0 [frame] setup s = r →
      (∀ s', r ≠ .error .outOfFuel s') →
      (Evaluator.ofFuel n).runProgram 0 [frame] setup s = r ∧
      (Evaluator.audited (fun s s' => s.unit ≠ 0 →
        ∀ d ∈ s.reported s', d.span ∈ setup.hostCalls) n).runProgram 0 [frame] setup s = r := by
  have h : setup.Everywhere setup.ReportsThere n := everywhere_of_keeps reportsThere_of_keeps n
  refine ⟨⟨h.resolve, h.bind, h.walk, h.invoke⟩, ?_⟩
  intro globals frame s r hs hr hlost
  have hglobals := (Agree.newGlobals globals).alone .start
    (show (Discipline.anchoring setup).inv _ from ⟨State.coded_start setup, nofun⟩) rfl
  rw [hs] at hglobals
  -- whatever the audit, if it follows
  have hsame : ∀ (ok : State → State → Prop) [DecidableRel ok],
      (∀ s s', s.position.Confined → (∀ a ∈ s.anchors.head?, a ∈ setup.hostCalls) →
        s.ReportsUnder s' → ok s s') →
      (Evaluator.audited ok n).runProgram 0 [frame] setup s = r := by
    intro ok _ hok
    have hagree : (Discipline.anchoring setup).Agree s.position
        ((Evaluator.audited (fun s _ => s.position.Confined) n).runProgram 0 [frame])
        ((Evaluator.audited ok n).runProgram 0 [frame]) fun _ => True :=
      (Evaluator.agrees_anchoring setup hok n).runProgram trivial (fun _ => Nat.le_refl 2)
        fun hprepared hmem => hasNode_stmt hprepared hmem
    have h := hagree.alone s hglobals.2.1 rfl
    rw [hr] at h
    cases r with
    | ok a s' => exact h.1
    | error f s' =>
      refine (h.resolve_left fun hf => ?_).1
      subst hf
      exact hlost s' rfl
  refine ⟨?_, hsame _ fun s s' hconf hcalls hreports hunit => ?_⟩
  · rw [← Evaluator.audited_true]
    exact hsame _ fun _ _ _ _ _ => trivial
  · have hne : s.anchors ≠ [] := hconf.resolve_left hunit
    obtain ⟨a, ha⟩ := Option.isSome_iff_exists.1 (List.isSome_head?.2 hne)
    intro d hd
    rw [hreports.span_eq ha d hd]
    exact hcalls a ha

/-- The program `g.f();`. The program `() => { g.x = 1; };` is registered for `g.f`, and runs
against the same globals. -/
def writingHandler : Setup where
  options := { Options.standard with maxCallDepth := 1 }
  programs := #[
    .ofProgram ⟨"script", "g.f();", [.expression (.call ⟨0, 5⟩
      (.dot ⟨0, 3⟩ (.identifier ⟨"g", ⟨0, 1⟩⟩) "f") [])]⟩,
    .ofProgram ⟨"handler", "() => \x7b g.x = 1; \x7d;",
      [.expression (.function (.mk ⟨0, 18⟩ true none
      (.mk ⟨0, 2⟩ [] none) (.block (.mk ⟨6, 18⟩ [.expression (.assign ⟨8, 15⟩ .plain
        (.leaf (.dot ⟨8, 11⟩ (.identifier ⟨"g", ⟨8, 9⟩⟩) "x"))
        (.number ⟨14, 15⟩ (some (.ofNat 1))))]))))]⟩]
  graph := emptyGlobal
  resolver := some (.only [.key "g", .key "f"] 1)
  canceled := false

/-- The write in the handler is reported at the call of the analyzed program. -/
theorem reports_at_calls_writingHandler :
    let made := Host.Conversion.frame writingHandler.graph .empty [("g", .container 1)]
    let s := State.start.withConversion made.2
    newGlobals (.container 0) writingHandler .start = .ok made.1 s ∧
    ∃ a s', (Evaluator.audited (fun s _ => s.position.Confined) 20).runProgram 0 [made.1]
        writingHandler s = .ok a s' ∧
      (Evaluator.audited (fun s s' => s.unit ≠ 0 → ∀ d ∈ s.reported s',
        d.span ∈ writingHandler.hostCalls) 20).runProgram 0 [made.1] writingHandler s = .ok a s' ∧
      s'.diagnostics.toList.map (·.span) = [⟨0, 5⟩] := by
  intro made s
  have hglobals : newGlobals (.container 0) writingHandler .start = .ok made.1 s :=
    Setup.newGlobals_of_ok globals_emptyGlobal rfl
  have hreported : (match (Evaluator.audited (fun s _ => s.position.Confined) 20).runProgram 0
      [made.1] writingHandler s with
    | .ok _ s' => s'.diagnostics.toList.map (·.span)
    | .error _ _ => []) = [⟨0, 5⟩] := by decide +kernel
  refine ⟨hglobals, ?_⟩
  cases hr : (Evaluator.audited (fun s _ => s.position.Confined) 20).runProgram 0 [made.1]
      writingHandler s with
  | ok a s' =>
    rw [hr] at hreported
    have h := (Setup.reports_at_calls writingHandler 20).2 _ _ _ _ hglobals hr nofun
    exact ⟨a, s', rfl, h.2, hreported⟩
  | error f s' =>
    rw [hr] at hreported
    cases hreported

/-- The program `const f = g.get(); f();`. The program `() => () => { g.x = 1; };` is registered for
`g.get`, and runs against the same globals. The analyzed program calls what it gets from there. -/
def escapedHandler : Setup where
  options := { Options.standard with maxCallDepth := 1 }
  programs := #[
    .ofProgram ⟨"script", "const f = g.get(); f();",
      [.declareLexical ⟨0, 17⟩ [.mk (.leaf (.identifier ⟨"f", ⟨6, 7⟩⟩))
        (some (.call ⟨10, 17⟩ (.dot ⟨10, 15⟩ (.identifier ⟨"g", ⟨10, 11⟩⟩) "get") []))],
       .expression (.call ⟨19, 22⟩ (.identifier ⟨"f", ⟨19, 20⟩⟩) [])]⟩,
    .ofProgram ⟨"handler", "() => () => \x7b g.x = 1; \x7d;",
      [.expression (.function (.mk ⟨0, 24⟩ true none (.mk ⟨0, 2⟩ [] none)
        (.expression (.function (.mk ⟨6, 24⟩ true none (.mk ⟨6, 8⟩ [] none)
          (.block (.mk ⟨12, 24⟩ [.expression (.assign ⟨14, 21⟩ .plain
            (.leaf (.dot ⟨14, 17⟩ (.identifier ⟨"g", ⟨14, 15⟩⟩) "x"))
            (.number ⟨20, 21⟩ (some (.ofNat 1))))])))))))]⟩]
  graph := emptyGlobal
  resolver := some (.only [.key "g", .key "get"] 1)
  canceled := false

/-- What is reported about `escapedHandler` is reported at a range of the external code. -/
theorem escapedHandler_reports_elsewhere :
    (escapedHandler.analyze (.container 0)).1.toBool = true ∧
    (escapedHandler.analyze (.container 0)).2.diagnostics.toList.map (·.span) = [⟨14, 21⟩] ∧
    escapedHandler.hostCalls = [⟨10, 17⟩, ⟨19, 22⟩] := by
  decide +kernel

end FrozenGlobals
