import FrozenGlobals.Proofs.Analysis.Natives
import FrozenGlobals.Proofs.Discipline.Silence
import FrozenGlobals.Proofs.Execution.Core

/-!
# Silent changes of globals

What an analysis can do to globals without reporting it. Names of globals are never bound anew in
silence: `Setup.rebinding_reported` says so, and that declarations of programs stay out of the
frames of globals. Containers are written in silence in one situation only, which
`Setup.write_reported_or_thrown` pins down: the target of the write is whatever has been thrown, and
the container was thrown by code that ran between the check of the target and the write.
`caughtSetter` is a program that gets there.

Both are said of the operations that write, whatever evaluator they call back
(`Evaluator.ChecksWrites`, `Run.writeName_eq`), of every activity at every level (`Setup.Upholds`),
and of whole runs.
-/

namespace FrozenGlobals

open Run
open Script (Expr Span)
open Execution (isMember)

/-! ## Containers -/

/-- The operations of a level that write to containers. An assignment to a member and an update
check the object first, and if that has a path then there is a report at the site of the operation.
Nothing comes between the check and the write but the setters of the member. A built-in that writes
reports in the same way if its target has a path, and it changes nothing else that was there. -/
structure Evaluator.ChecksWrites (setup : Setup) (E : Evaluator) : Prop where
  assign : ∀ {target : Expr} {stack : Stack} {object : Operand} {key : Key} {s t : State},
    isMember target → E.memberTarget target stack setup s = .ok (object, key) t →
    ∀ (value : Operand) (site : Site), ∃ own u, t.Notes own u ∧
      ((t.provenance.findAny? (object.now t)).isSome → t.ReportsAt site own) ∧
      E.assignTo target value site stack setup s = (do
        E.callSetters (t.heap.getKey (object.now t) key) object value site
        setKey (← deref object) key (← deref value)) setup u
  update : ∀ {operand : Expr} {stack : Stack} {object : Operand} {key : Key} {s t : State},
    isMember operand → E.memberTarget operand stack setup s = .ok (object, key) t →
    ∀ span : Span, ∃ own u, t.Notes own u ∧
      ((t.provenance.findAny? (object.now t)).isSome → t.ReportsAt ⟨.update, span⟩ own) ∧
      E.update span operand stack setup s = .ok (.known .anyPrimitive)
        { u with heap := u.heap.setKey (object.now t) key .anyPrimitive }
  builtin : ∀ {b : Builtin}, b.isWriting = true → ∀ (c : CallSite) (s : State), ∃ own r t,
    E.callBuiltin b c setup s = .ok r t ∧ s.Affects (b.target c s) own t ∧
      ((s.provenance.findAny? (b.target c s)).isSome → s.ReportsAt c.site own)

/-- A built-in that writes calls nothing back. -/
theorem Builtin.uncalled_of_isWriting {b : Builtin} (h : b.isWriting = true) (c : CallSite)
    (s : State) : b.Uncalled c s := by
  have hnone : b.callback? = none := by cases b <;> first | rfl | cases h
  intro i hi
  rw [hnone] at hi
  cases hi

/-- The model of a built-in that writes is the same at all levels. -/
theorem Evaluator.model_of_isWriting {b : Builtin} (h : b.isWriting = true) (E E' : Evaluator)
    (c : CallSite) : E.model b c = E'.model b c := by
  unfold Builtin.isWriting at h
  split at h <;> first | rfl | cases h

/-- A check of a reference that has a path reports at its site. -/
theorem Evaluator.reportsAt_violations {s : State} {r : Reference}
    (h : (s.provenance.findAny? r).isSome) (site : Site) (violation : Violation) :
    s.ReportsAt site (violations s r site violation) := by
  obtain ⟨path, hpath⟩ := Option.isSome_iff_exists.1 h
  unfold violations
  rw [hpath]
  exact ⟨_, List.mem_singleton_self _, rfl⟩

/-- The operations of every level check what they write to. -/
theorem Evaluator.checksWrites (setup : Setup) (E : Evaluator) : E.ChecksWrites setup where
  assign {target stack object key s t} hmember htarget value site := by
    obtain ⟨own, u, hs, hown, heq⟩ := assignMember_eq E setup object key value site t
    refine ⟨own, u, hs, hown, ?_⟩
    cases target with
    | dot span e name => exact (bind_of_ok htarget).trans heq
    | bracket span e key => exact (bind_of_ok htarget).trans heq
    | _ => cases hmember
  update {operand stack object key s t} hmember htarget span := by
    obtain ⟨own, u, hs, hown, heq⟩ :=
      updateMember_eq setup (object.now t) key ⟨.update, span⟩ t
    refine ⟨own, u, hs, hown, ?_⟩
    have hend : (do
        let object ← deref object
        let _ ← checkGlobal (← getKey object key) ⟨.update, span⟩ .update
        let _ ← checkGlobal object ⟨.update, span⟩ .update
        setKey object key .anyPrimitive
        return .known .anyPrimitive : Run Operand) setup t =
        .ok (.known .anyPrimitive)
          { u with heap := u.heap.setKey (object.now t) key .anyPrimitive } := by
      have hwrite : (do
          let object ← deref object
          let _ ← checkGlobal (← getKey object key) ⟨.update, span⟩ .update
          let _ ← checkGlobal object ⟨.update, span⟩ .update
          setKey object key .anyPrimitive) setup t =
          .ok () { u with heap := u.heap.setKey (object.now t) key .anyPrimitive } :=
        (bind_of_ok (deref_eq ..)).trans heq
      have hreturn := bind_of_ok (f := fun _ => (pure (.known .anyPrimitive) : Run Operand)) hwrite
      simp only [bind_assoc] at hreturn
      exact hreturn
    cases operand with
    | dot span' e name => exact (bind_of_ok htarget).trans hend
    | bracket span' e key' => exact (bind_of_ok htarget).trans hend
    | _ => cases hmember
  builtin {b} hb c s := by
    obtain ⟨r, t, heq, hs, -⟩ : Acts setup s _ _ ((ofFuel 1).callBuiltin b c) _ :=
      acts_callBuiltin b (Builtin.uncalled_of_isWriting hb c s)
    have hmutating : b.isMutating = true := by cases b <;> first | rfl | cases hb
    rw [if_pos hb] at hs
    refine ⟨_, r, t, ?_, hs, fun hpath => ?_⟩
    · unfold callBuiltin at heq ⊢
      rw [model_of_isWriting hb E (ofFuel 1)]
      exact heq
    · unfold Builtin.reports
      rw [if_pos hmutating]
      exact reportsAt_violations hpath c.site b.violation

/-- From one state to another, no container with a path was written to in silence: if it holds
something else, then there are new diagnostics, or it was thrown in between. -/
def State.Answers (s s' : State) : Prop :=
  ∀ v ∈ s.provenance.entries.map (·.1), s'.heap.contents v ≠ s.heap.contents v →
    s.Reports s' ∨ (v ∈ s'.thrown ∧ v ∉ s.thrown)

section
variable {setup : Setup} (hg : setup.graph.Grounded)

/-- A write that changes a container with a path and has nothing to report writes to what was
thrown. The container was thrown after the check. -/
theorem Write.Guarded.thrown_of_unreported {x : Write} {w : World} (h : x.Guarded w) {v : Value}
    (hv : v ∈ w.state.provenance.entries.map (·.1))
    (hne : x.before.heap.contents v ≠ x.after.heap.contents v) (hown : x.own = []) :
    x.target = .thrown ∧ v ∈ w.state.thrown ∧ v ∉ x.opened.thrown := by
  obtain ⟨globals, hle⟩ := h.grows
  obtain ⟨e, he, rfl⟩ := List.mem_map.1 hv
  have hbefore : e ∈ x.before.provenance.entries := by
    rcases hle.added e he with hin | hnone
    · exact hin
    · -- writes change only what is there
      refine absurd ?_ hne
      have hnone' : x.before.heap.contents e.1 = none := hnone
      rw [h.written]
      show _ = (x.before.heap.setKeys _ _ _).contents e.1
      rw [Heap.contents_setKeys, hnone']
      split <;> rfl
  rcases h.reported _ (List.mem_map_of_mem hbefore) hne with hrep | ⟨ht, hthrown, hnot⟩
  · exact absurd hown hrep
  · exact ⟨ht, hle.thrown _ hthrown, hnot⟩

/-- Without diagnostics, a check has none of its own. -/
theorem State.Checks.own_eq_nil {s s₁ s₂ : State} {own : List Diagnostic} (h : s₁.Checks own s₂)
    (hkept : s₂.diagnostics.toList <+: s.diagnostics.toList) (hd : s.diagnostics = #[]) :
    own = [] := by
  rw [hd] at hkept
  have hnil := List.prefix_nil.1 hkept
  rw [h.diagnostics] at hnil
  exact (List.append_eq_nil_iff.1 hnil).2

include hg

/-- Wherever a run leads, containers with a path have not been written to in silence. -/
theorem Setup.vouches_answers : setup.Vouches fun w s => w.state.Answers s := by
  intro w es w' hw hr v hv hne
  obtain ⟨e, he, rfl⟩ := List.mem_map.1 hv
  obtain ⟨k, hk⟩ := Option.isSome_iff_exists.1 (hw.contents_isSome he)
  rcases hr.contents_or_write hg hw hk with hsame | ⟨x, hx, hchange⟩
  · exact absurd (hsame.trans hk.symm) hne
  · have hguard := hr.write_guarded hg hw hx
    by_cases hown : x.own = []
    · have hpath : e.1 ∈ w'.state.provenance.entries.map (·.1) := by
        obtain ⟨hle, -⟩ := hr.le_ok hg hw
        exact List.mem_map_of_mem (hle.entries.subset he)
      obtain ⟨-, hthrown, hnot⟩ := hguard.thrown_of_unreported hpath hchange hown
      obtain ⟨globals, hle⟩ := hr.opened_le hg hw hx rfl
      exact .inr ⟨hthrown, fun h => hnot (hle.thrown _ h)⟩
    · exact .inl (hr.reports_of_opened hg hw hx rfl hguard.checks hown hguard.kept)

/-- No container of the globals is written to in silence, but for what is thrown in the meantime.

An operation that writes to a container checks its target before, whatever it calls back. Every
activity, at every level and from every world in order, that changes a container with a path has new
diagnostics, or the container was thrown while it went on; and analyses are what they are with
audits for this at all levels. The final state of an analysis is reached by a run. In every run, a
write that changes a container of the globals has reported itself, or its target is whatever was
thrown and the container was thrown after the check of the target. In a run without diagnostics, a
container of the globals that was not thrown holds what its conversion gave it. -/
theorem Setup.write_reported_or_thrown :
    (∀ E : Evaluator, E.ChecksWrites setup) ∧
    setup.Upholds (fun w s => w.state.Answers s) ∧
    (∀ globals s, setup.Ends globals s →
      ∃ es w, Runs setup .start es w ∧ w.state = s ∧ setup.Begins globals es) ∧
    ∀ es w, Runs setup .start es w →
      (∀ x, Event.write x ∈ es → x.Guarded w) ∧
      (w.state.diagnostics = #[] → ∀ v ∈ w.state.provenance.entries.map (·.1),
        v ∉ w.state.thrown → ∃ x k, Event.convert x ∈ es ∧
          x.before.heap.contents v = none ∧ x.after.heap.contents v = some k ∧
          w.state.heap.contents v = some k) := by
  refine ⟨Evaluator.checksWrites setup, (vouches_answers hg).upholds hg,
    fun globals s hs => runs_of_ends hg hs, fun es w hr => ?_⟩
  have hguard : ∀ x, Event.write x ∈ es → x.Guarded w := fun x hx =>
    hr.write_guarded hg (.start setup) hx
  refine ⟨hguard, fun hd v hv hnot => ?_⟩
  rcases hr.entry_or_convert hg (.start setup) hv with hnone | ⟨x, k, hx, hnone, hk, hlast⟩
  · cases hnone
  · refine ⟨x, k, hx, hnone, hk, ?_⟩
    rcases hlast with hlast | ⟨y, hy, hne⟩
    · exact hlast
    · have hown := (hguard y hy).checks.own_eq_nil (hguard y hy).kept hd
      exact absurd ((hguard y hy).thrown_of_unreported hv hne hown).2.1 hnot

end

/-- The program `try { throw { set p(v) { throw g; } }; } catch (e) { e.p = 1; }` against
globals in which `g` is an empty object. What `e` stands for is all that was thrown, and the setter
throws `g`. -/
def caughtSetter : Setup where
  options := { Options.standard with maxCallDepth := 1 }
  programs := #[.ofProgram
    ⟨"script", "try { throw { set p(v) { throw g; } }; } catch (e) { e.p = 1; }",
    [.tryCatch ⟨0, 63⟩
      (.mk ⟨4, 40⟩
        [.throwWith ⟨6, 37⟩ (.object ⟨12, 37⟩ [.keyed (.string ⟨18, 19⟩ "p") false .setter
          (.function (.mk ⟨14, 35⟩ false none
            (.mk ⟨19, 22⟩ [.mk (.leaf (.identifier ⟨"v", ⟨20, 21⟩⟩)) none] none)
            (.block (.mk ⟨23, 35⟩ [.throwWith ⟨25, 32⟩ (.identifier ⟨"g", ⟨31, 32⟩⟩)]))))])])
      (some (.mk 41 (some (.leaf (.identifier ⟨"e", ⟨48, 49⟩⟩)))
        (.mk ⟨51, 63⟩ [.expression (.assign ⟨53, 60⟩ .plain
          (.leaf (.dot ⟨53, 56⟩ (.identifier ⟨"e", ⟨53, 54⟩⟩) "p"))
          (.number ⟨59, 60⟩ (some (.ofNat 1))))])))
      none]⟩]
  graph := ⟨#[.object [("g", .container 1)] false, .object [] false]⟩
  resolver := none
  canceled := false

theorem grounded_caughtSetter : caughtSetter.graph.Grounded :=
  Host.Graph.grounded_of_shared (by decide)

/-- What `caughtSetter` does to its global object is what `Setup.write_reported_or_thrown` leaves
room for. -/
theorem write_reported_or_thrown_caughtSetter :
    caughtSetter.graph.Grounded ∧
    caughtSetter.Ends (.container 0) (caughtSetter.evaluate (.container 0)).2 ∧
    (∀ fault n, (Evaluator.vetting caughtSetter (fun w s => w.state.Answers s) fault n).Coincide
      caughtSetter (.ofFuel n)) ∧
    ∃ es w, Runs caughtSetter .start es w ∧
      w.state = (caughtSetter.evaluate (.container 0)).2 ∧
      ∀ x, Event.write x ∈ es → x.Guarded w := by
  obtain ⟨-, hupholds, hends, hruns⟩ := Setup.write_reported_or_thrown grounded_caughtSetter
  obtain ⟨es, w, hr, hw, _⟩ := hends (.container 0) _ (.inl rfl)
  exact ⟨grounded_caughtSetter, .inl rfl, hupholds.levels, es, w, hr, hw, (hruns es w hr).1⟩

/-- `caughtSetter` ends without diagnostics, and yet its global object has got a property that the
conversion did not give it. -/
theorem caughtSetter_writes_silently :
    let made := (Host.Conversion.frame caughtSetter.graph .empty [("g", .container 1)]).2
    let s := (caughtSetter.evaluate (.container 0)).2
    s.diagnostics.size = 0 ∧ made.provenance.find? (.object 0) = some [.key "g"] ∧
      (made.heap.getKeyOf (.name "p") (.object 0)).isEmpty ∧
      (s.heap.getKeyOf (.name "p") (.object 0)).isEmpty = false := by
  decide +kernel

/-! ## Names -/

/-- Frames of globals keep their names, and if one of them is not what it was then there are new
diagnostics. -/
def World.Keeps (w : World) (s : State) : Prop :=
  ∀ f ∈ w.globals,
    (s.heap.frame f).bindings.map (·.1) = (w.state.heap.frame f).bindings.map (·.1) ∧
    (s.heap.frame f ≠ w.state.heap.frame f → w.state.Reports s)

section
variable {setup : Setup} (hg : setup.graph.Grounded)
include hg

/-- Wherever a run leads, names of globals have not been bound anew in silence. -/
theorem Setup.vouches_keeps : setup.Vouches World.Keeps := by
  intro w es w' hw hr f hf
  obtain ⟨hnames, hframe⟩ := hr.frame_or_rebind hg hw hf
  refine ⟨hnames, fun hne => ?_⟩
  obtain ⟨x, hx, -⟩ := hframe.resolve_left hne
  have hguard := hr.rebind_guarded hg hw hx
  exact hr.reports_of_opened hg hw hx rfl hguard.checks hguard.reported hguard.kept

/-- No name of the globals is bound anew in silence.

A write to a name checks it before it binds it anew, from every state, and reports it at its own
site if the globals bind it. Declarations, whatever they call back as long as that reports nothing,
leave the frames of globals as they are, and so do writes to names that nothing binds. Every
activity, at every level and from every world in order, leaves the frames of globals their names,
and if it changes one of them there are new diagnostics; and analyses are what they are with audits
for this at all levels. The final state of an analysis is reached by a run. In every run, a new
binding of a global name has reported itself and leaves the names of its frame as they are,
declarations bind names in other frames, and a frame of globals has the names its conversion gave
it. Without diagnostics it is the very frame that the conversion made. -/
theorem Setup.rebinding_reported :
    (∀ name value stack site violation (s : State), ∃ own t, s.Notes own t ∧
      (∀ f, s.heap.owner? stack name = some f → Stack.globals? stack = some f →
        s.ReportsAt site own) ∧
      Evaluator.writeName name value stack site violation setup s =
        rebind name (((s.heap.meaning stack name).now s).union (value.now s)) stack setup t) ∧
    (∀ E : Evaluator, E.IsTraced setup → E.Silent setup → E.DeclaresAbove setup) ∧
    setup.Upholds World.Keeps ∧
    (∀ globals s, setup.Ends globals s →
      ∃ es w, Runs setup .start es w ∧ w.state = s ∧ setup.Begins globals es) ∧
    ∀ es w, Runs setup .start es w →
      (∀ x, Event.rebind x ∈ es → x.Guarded w) ∧
      (∀ f name, Event.bind f name ∈ es → f ∉ w.globals) ∧
      (∀ f ∈ w.globals, ∃ x, Event.convert x ∈ es ∧ x.frame = f ∧
        (w.state.heap.frame f).bindings.map (·.1) = (x.after.heap.frame f).bindings.map (·.1) ∧
        (w.state.diagnostics = #[] → w.state.heap.frame f = x.after.heap.frame f)) := by
  refine ⟨writeName_eq setup, fun E => Evaluator.IsTraced.declaresAbove hg,
    (vouches_keeps hg).upholds hg, fun globals s hs => runs_of_ends hg hs, fun es w hr => ?_⟩
  have hguard : ∀ x, Event.rebind x ∈ es → x.Guarded w := fun x hx =>
    hr.rebind_guarded hg (.start setup) hx
  refine ⟨hguard, fun f name hf => (hr.bind_not_mem_globals hg (.start setup) hf).2, ?_⟩
  intro f hf
  rcases hr.global_or_convert hg (.start setup) hf with hstart | ⟨x, hx, hxf, hnames, hlast⟩
  · cases hstart
  · refine ⟨x, hx, hxf, hnames, fun hd => ?_⟩
    rcases hlast with heq | ⟨y, hy, _⟩
    · exact heq
    · exact absurd ((hguard y hy).checks.own_eq_nil (hguard y hy).kept hd) (hguard y hy).reported

end

/-- The one global of `caughtSetter` is never bound anew. -/
theorem rebinding_reported_caughtSetter :
    caughtSetter.graph.Grounded ∧
    caughtSetter.Ends (.container 0) (caughtSetter.analyze (.container 0)).2 ∧
    (∀ fault n, (Evaluator.vetting caughtSetter World.Keeps fault n).Coincide caughtSetter
      (.ofFuel n)) ∧
    ∃ es w, Runs caughtSetter .start es w ∧
      w.state = (caughtSetter.analyze (.container 0)).2 ∧
      ∀ x, Event.rebind x ∈ es → x.Guarded w := by
  obtain ⟨-, -, hupholds, hends, hruns⟩ := Setup.rebinding_reported grounded_caughtSetter
  obtain ⟨es, w, hr, hw, _⟩ := hends (.container 0) _ (.inr rfl)
  exact ⟨grounded_caughtSetter, .inr rfl, hupholds.levels, es, w, hr, hw, (hruns es w hr).1⟩

end FrozenGlobals
