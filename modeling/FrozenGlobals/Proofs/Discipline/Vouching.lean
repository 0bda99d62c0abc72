import FrozenGlobals.Proofs.Analysis.Origin
import FrozenGlobals.Proofs.Discipline.Audit

/-!
# Audits that runs vouch for

An evaluator that is traced leads from every world in order to another one by a run. What holds
wherever a run leads (`Setup.Vouches`) is therefore true of its activities one by one: of every
expression that is resolved, every target that is bound, every statement that is walked and every
value that is called, and not only of a whole analysis. `Setup.Upholds` puts this in four ways, from
single steps over evaluators of any kind to analyses that are audited at all levels, and
`Setup.Vouches.upholds` derives them.

An audit asks of an activity what it has to do from every world that its state may belong to, since
a state alone does not tell which of its frames hold globals.
-/

namespace FrozenGlobals

open Run Discipline

/-! ## Worlds of a state -/

namespace World

/-- The frames that an activity sees, if it sees any, are those of a program. -/
def Sees (w : World) (stack : Option Stack) : Prop := ∀ st, stack = some st → w.Scope st

theorem sees_some {w : World} {stack : Stack} (hs : w.Scope stack) : w.Sees (some stack) := by
  rintro _ ⟨⟩
  exact hs

theorem sees_none (w : World) : w.Sees none := nofun

/-- What exists does not depend on where globals are. -/
theorem Has.of_state {w w' : World} {o : Operand} (ho : w.Has o) (h : w'.state = w.state) :
    w'.Has o := by
  cases o with
  | known r =>
    intro v hv
    rw [h]
    exact ho v hv
  | thrown => trivial

theorem HasCall.of_state {w w' : World} {c : CallSite} (hc : w.HasCall c)
    (h : w'.state = w.state) : w'.HasCall c :=
  ⟨fun o ho => (hc.1 o ho).of_state h, fun o ho => (hc.2 o ho).of_state h⟩

end World

/-! ## Where activities lead -/

/-- Every run from a world in order leads to a state that is as it should be. -/
def Setup.Vouches (setup : Setup) (ok : World → State → Prop) : Prop :=
  ∀ (w : World) es w', w.Ok setup → Runs setup w es w' → ok w w'.state

/-- An activity that sees some frames led from a state to another as it should, whichever world in
order the state belongs to. -/
def Setup.Proper (setup : Setup) (ok : World → State → Prop) (stack : Option Stack)
    (s s' : State) : Prop :=
  ∀ w : World, w.state = s → w.Ok setup → w.Sees stack → ok w s'

/-- The activities of an evaluator lead from every world in order to a state that is as it should
be, whether they end or fail. -/
structure Evaluator.Leads (setup : Setup) (ok : World → State → Prop) (E : Evaluator) : Prop where
  resolve : ∀ {w : World} {e stack}, w.Ok setup → w.Scope stack →
    ok w (setup.stateAfter (E.resolve e stack) w.state)
  bind : ∀ {w : World} {how p o stack}, w.Ok setup → w.Scope stack → w.Has o →
    ok w (setup.stateAfter (E.bind how p o stack) w.state)
  walk : ∀ {w : World} {fold s stack}, w.Ok setup → w.Scope stack →
    ok w (setup.stateAfter (E.walk fold s stack) w.state)
  invoke : ∀ {w : World} {v c}, w.Ok setup → w.HasCall c →
    ok w (setup.stateAfter (E.invoke v c) w.state)

/-- From every world in order, the activities of two evaluators do the same. -/
structure Evaluator.Coincide (setup : Setup) (E E' : Evaluator) : Prop where
  resolve : ∀ {w : World} {e stack}, w.Ok setup → w.Scope stack →
    E.resolve e stack setup w.state = E'.resolve e stack setup w.state
  bind : ∀ {w : World} {how p o stack}, w.Ok setup → w.Scope stack → w.Has o →
    E.bind how p o stack setup w.state = E'.bind how p o stack setup w.state
  walk : ∀ {w : World} {fold s stack}, w.Ok setup → w.Scope stack →
    E.walk fold s stack setup w.state = E'.walk fold s stack setup w.state
  invoke : ∀ {w : World} {v c}, w.Ok setup → w.HasCall c →
    E.invoke v c setup w.state = E'.invoke v c setup w.state
  program : ∀ {w : World} {frame} (u), w.Ok setup → frame ∈ w.globals →
    E.runProgram u [frame] setup w.state = E'.runProgram u [frame] setup w.state

namespace Evaluator

/-- The evaluator one level above. -/
def above (E : Evaluator) : Evaluator := ⟨E.resolveStep, E.bindStep, E.walkStep, E.invokeStep⟩

open Classical in
/-- An evaluator whose own activities have to be proper. -/
noncomputable def vetted (setup : Setup) (ok : World → State → Prop) (fault : Failure)
    (E : Evaluator) : Evaluator where
  resolve e stack := (E.resolve e stack).audited (setup.Proper ok (some stack)) fault
  bind how target init stack :=
    (E.bind how target init stack).audited (setup.Proper ok (some stack)) fault
  walk fold s stack := (E.walk fold s stack).audited (setup.Proper ok (some stack)) fault
  invoke v c := (E.invoke v c).audited (setup.Proper ok none) fault

/-- An evaluator whose activities nest at most `fuel` deep and have to be proper at all levels. -/
noncomputable def vetting (setup : Setup) (ok : World → State → Prop) (fault : Failure) :
    Nat → Evaluator
  | 0 => ofFuel 0
  | fuel + 1 => vetted setup ok fault (vetting setup ok fault fuel).above

end Evaluator

/-- What is true of every activity. Whatever evaluator a step calls back, if its activities are
traced then the step leads where it should, and the activities of evaluators are traced at all
levels. An evaluator whose activities have to be proper at all levels does what it does otherwise,
whatever it would fail with, and the report of an analysis is the report. -/
structure Setup.Upholds (setup : Setup) (ok : World → State → Prop) : Prop where
  step : ∀ {E : Evaluator}, E.IsTraced setup → E.above.Leads setup ok
  traced : ∀ n, (Evaluator.ofFuel n).IsTraced setup
  levels : ∀ fault n, (Evaluator.vetting setup ok fault n).Coincide setup (.ofFuel n)
  analyze : ∀ fault globals,
    (setup.reportWith (.vetting setup ok fault setup.fuel) globals).outcome setup =
      setup.analyze globals

/-! ## Traced computations -/

namespace Traced

variable {α : Type} {setup : Setup} {ok : World → State → Prop} {w : World} {x : Run α}
  {Q : World → α → Prop}

/-- A traced computation leads where every run does. -/
theorem leads (h : Traced setup w x Q) (hv : setup.Vouches ok) (hw : w.Ok setup) :
    ok w (setup.stateAfter x w.state) := by
  obtain ⟨es, w', hr, hres⟩ := h hw
  have hend : w'.state = setup.stateAfter x w.state := by
    unfold Setup.stateAfter
    cases hx : x setup w.state with
    | ok a s =>
      rw [hx] at hres
      exact hres.1
    | error e s =>
      rw [hx] at hres
      exact hres.1
  exact hend ▸ hv _ _ _ hw hr

open Classical in
/-- An audit of a computation that is traced from every world of a state finds nothing. -/
theorem audited_eq (hv : setup.Vouches ok) {stack : Option Stack} (fault : Failure)
    (h : ∀ w' : World, w'.state = w.state → w'.Sees stack → Traced setup w' x Q) :
    x.audited (setup.Proper ok stack) fault setup w.state = x setup w.state := by
  have hproper : setup.Proper ok stack w.state (setup.stateAfter x w.state) := by
    intro w' hstate hw' hsees
    have := (h w' hstate hsees).leads hv hw'
    rwa [hstate] at this
  unfold Setup.stateAfter at hproper
  unfold Run.audited
  cases hx : x setup w.state with
  | ok a s =>
    rw [hx] at hproper
    exact if_pos hproper
  | error e s =>
    rw [hx] at hproper
    exact if_pos hproper

open Classical in
/-- A computation that is traced from every world of a state is traced when it is audited. -/
theorem audited (hv : setup.Vouches ok) {stack : Option Stack} (fault : Failure)
    (hsees : w.Sees stack)
    (h : ∀ w' : World, w'.state = w.state → w'.Sees stack → Traced setup w' x Q) :
    Traced setup w (x.audited (setup.Proper ok stack) fault) Q := by
  unfold Traced
  rw [audited_eq hv fault h]
  exact h w rfl hsees

end Traced

namespace Evaluator

variable {setup : Setup} {ok : World → State → Prop} {E : Evaluator}

/-- The activities of a traced evaluator lead where every run does. -/
theorem IsTraced.leads (hE : E.IsTraced setup) (hv : setup.Vouches ok) : E.Leads setup ok where
  resolve hw hs := (hE.resolve hs).leads hv hw
  bind hw hs ho := (hE.bind hs ho).leads hv hw
  walk hw hs := (hE.walk hs).leads hv hw
  invoke hw hc := (hE.invoke hc).leads hv hw

/-- The evaluator above a traced one is traced. -/
theorem IsTraced.above (hg : setup.graph.Grounded) (hE : E.IsTraced setup) :
    E.above.IsTraced setup where
  resolve hs := hE.resolveStep hg hs _
  bind hs ho := hE.bindStep hg hs _ _ ho
  walk hs := hE.walkStep hg hs _ _
  invoke hc := hE.invokeStep hg _ hc

/-- A traced evaluator is traced when it is audited. -/
theorem IsTraced.vetted (hE : E.IsTraced setup) (hv : setup.Vouches ok) (fault : Failure) :
    (E.vetted setup ok fault).IsTraced setup where
  resolve hs := .audited hv fault (World.sees_some hs) fun _ _ h => hE.resolve (h _ rfl)
  bind hs ho := .audited hv fault (World.sees_some hs) fun _ hstate h =>
    hE.bind (h _ rfl) (ho.of_state hstate)
  walk hs := .audited hv fault (World.sees_some hs) fun _ _ h => hE.walk (h _ rfl)
  invoke hc := .audited hv fault (World.sees_none _) fun _ hstate _ =>
    hE.invoke (hc.of_state hstate)

theorem isTraced_vetting (hg : setup.graph.Grounded) (hv : setup.Vouches ok) (fault : Failure)
    (n : Nat) : (vetting setup ok fault n).IsTraced setup := by
  induction n with
  | zero => exact isTraced_ofFuel hg 0
  | succ n ih => exact (ih.above hg).vetted hv fault

end Evaluator

/-! ## Audits make no difference -/

/-- Nothing is asked of states but that activities end where they began. Computations may give up
for want of a frame. -/
def Discipline.yielding (setup : Setup) : Discipline setup :=
  { Discipline.growth setup with
    lost := fun f => f = .internal .scopeUnderflow
    lost_within := by
      rintro _ _ rfl
      rfl }

instance (setup : Setup) : (Discipline.yielding setup).Alone :=
  ⟨rfl, fun _ _ _ => id, fun _ => id⟩

instance (setup : Setup) : (Discipline.yielding setup).Counting :=
  ⟨fun _ _ _ => ⟨trivial, fun _ h => ⟨trivial, h.returned⟩⟩⟩

instance (setup : Setup) : (Discipline.yielding setup).Open where
  scope _ := trivial
  code _ _ := trivial
  place _ _ := trivial
  enters _ _ := trivial
  fails _ := trivial
  anchored _ _ := ⟨trivial, fun _ h => ⟨trivial, h.leave_anchor⟩⟩

open Classical in
/-- Where an audit that gives up for want of a frame finds nothing, a laxer one finds nothing. -/
theorem Discipline.Agree.audits {setup : Setup} {p : Position} {α : Type} {x x' : Run α}
    {Q : α → Prop} {ok ok' : State → State → Prop} (fault : Failure)
    (hok : ∀ s s', ok s s' → ok' s s') (h : (yielding setup).Agree p x x' Q) :
    (yielding setup).Agree p (x.audited ok (.internal .scopeUnderflow))
      (x'.audited ok' fault) Q := by
  refine ⟨fun s hs hp => ?_⟩
  have h := (h.run s hs hp).alone
  unfold AgreeAt
  rw [Alone.twin (D := yielding setup)]
  cases hx : x setup s with
  | ok a s' =>
    rw [hx] at h
    obtain ⟨hx', hrest⟩ := h
    unfold Run.audited
    rw [hx, hx']
    by_cases hs' : ok s s'
    · simp only [if_pos hs', if_pos (hok s s' hs')]
      exact ⟨.refl _ _, hrest⟩
    · simp only [if_neg hs']
      exact .inl rfl
  | error e s' =>
    rw [hx] at h
    unfold Run.audited
    rw [hx]
    by_cases hs' : ok s s'
    · simp only [if_pos hs']
      refine h.imp_right fun ⟨hx', hrest⟩ => ⟨?_, hrest⟩
      rw [hx']
      simp only [if_pos (hok s s' hs')]
      exact .refl _ _
    · simp only [if_neg hs']
      exact .inl rfl

namespace Evaluator

variable {setup : Setup} {ok ok' : World → State → Prop}

/-- Of two evaluators with audits at all levels, the laxer one does what the other one does unless
that gives up for want of a frame. -/
theorem agrees_vetting (fault : Failure) (hok : ∀ w s, ok w s → ok' w s) (n : Nat) :
    Agrees (yielding setup) .all (vetting setup ok (.internal .scopeUnderflow) n)
      (vetting setup ok' fault n) := by
  have hproper : ∀ stack s s', setup.Proper ok stack s s' → setup.Proper ok' stack s s' :=
    fun _ _ _ h w hstate hw hsees => hok w _ (h w hstate hw hsees)
  induction n with
  | zero => exact agrees_zero
  | succ n ih =>
    have hstep := ih.step Licence.lifts_all
    exact {
      opens := hstep.opens
      resolve := fun hs hn => (hstep.resolve hs hn).audits fault (hproper _)
      bind := fun hs hhow hn => (hstep.bind hs hhow hn).audits fault (hproper _)
      walk := fun hs hn => (hstep.walk hs hn).audits fault (hproper _)
      invoke := fun hn => (hstep.invoke hn).audits fault (hproper _) }

open Classical in
/-- Audits that ask for nothing. -/
theorem vetting_true (fault : Failure) (n : Nat) :
    vetting setup (fun _ _ => True) fault n = ofFuel n := by
  have hvetted : ∀ E : Evaluator, E.vetted setup (fun _ _ => True) fault = E := by
    rintro ⟨resolve, bind, walk, invoke⟩
    simp only [vetted, mk.injEq]
    refine ⟨?_, ?_, ?_, ?_⟩ <;> funext <;>
      exact Run.audited_of_ok fault _ _ fun _ _ _ _ _ => trivial
  induction n with
  | zero => rfl
  | succ n ih =>
    rw [vetting, hvetted, ih]
    rfl

end Evaluator

/-- What a traced computation does, another one does too if they agree unless the first one gives up
for want of a frame. -/
theorem Discipline.Agree.eq_of_traced {setup : Setup} {w : World} {α : Type} {x x' : Run α}
    {P : α → Prop} {Q : World → α → Prop} (h : (yielding setup).Agree w.state.position x x' P)
    (hx : Traced setup w x Q) (hw : w.Ok setup) : x' setup w.state = x setup w.state := by
  obtain ⟨es, w', -, hres⟩ := hx hw
  have h := h.alone w.state trivial rfl
  cases hxs : x setup w.state with
  | ok a s =>
    rw [hxs] at h
    exact h.1
  | error e s =>
    rw [hxs] at h hres
    exact (h.resolve_left hres.2).1

namespace Setup.Vouches

variable {setup : Setup} {ok ok' : World → State → Prop} (hg : setup.graph.Grounded)
  (hv : setup.Vouches ok)
include hg hv

/-- A laxer evaluator does what one does that would give up for want of a frame. -/
theorem coincide_of_imp (fault : Failure) (hok : ∀ w s, ok w s → ok' w s) (n : Nat) :
    (Evaluator.vetting setup ok' fault n).Coincide setup
      (.vetting setup ok (.internal .scopeUnderflow) n) := by
  have hE := Evaluator.isTraced_vetting hg hv (.internal .scopeUnderflow) n
  have hagree : Evaluator.Agrees (.yielding setup) .all
      (.vetting setup ok (.internal .scopeUnderflow) n) (.vetting setup ok' fault n) :=
    Evaluator.agrees_vetting fault hok n
  exact {
    resolve := fun hw hs => (hagree.resolve trivial trivial).eq_of_traced (hE.resolve hs) hw
    bind := fun hw hs ho =>
      (hagree.bind trivial (fun _ _ => trivial) trivial).eq_of_traced (hE.bind hs ho) hw
    walk := fun hw hs => (hagree.walk trivial trivial).eq_of_traced (hE.walk hs) hw
    invoke := fun hw hc => (hagree.invoke trivial).eq_of_traced (hE.invoke hc) hw
    program := fun u hw hf => (hagree.runProgram trivial (fun _ => trivial)
      fun _ _ => trivial).eq_of_traced (hE.runProgram hg hf u) hw }

/-- Audits at all levels find nothing, whatever they would fail with. -/
theorem coincide (fault : Failure) (n : Nat) :
    (Evaluator.vetting setup ok fault n).Coincide setup (.ofFuel n) := by
  have h := coincide_of_imp hg hv fault (fun _ _ => id) n
  have h' : (Evaluator.ofFuel n).Coincide setup
      (.vetting setup ok (.internal .scopeUnderflow) n) := by
    have htrue : (Evaluator.vetting setup (fun _ _ => True) fault n).Coincide setup
        (.vetting setup ok (.internal .scopeUnderflow) n) :=
      coincide_of_imp hg hv fault (fun _ _ _ => trivial) n
    rwa [Evaluator.vetting_true] at htrue
  exact {
    resolve := fun hw hs => (h.resolve hw hs).trans (h'.resolve hw hs).symm
    bind := fun hw hs ho => (h.bind hw hs ho).trans (h'.bind hw hs ho).symm
    walk := fun hw hs => (h.walk hw hs).trans (h'.walk hw hs).symm
    invoke := fun hw hc => (h.invoke hw hc).trans (h'.invoke hw hc).symm
    program := fun u hw hf => (h.program u hw hf).trans (h'.program u hw hf).symm }

end Setup.Vouches

namespace Run

/-- What comes after two computations that do the same. -/
theorem bind_congr_left {α β : Type} {setup : Setup} {s : State} {x x' : Run α} {f : α → Run β}
    (h : x setup s = x' setup s) : (x >>= f) setup s = (x' >>= f) setup s := by
  cases hx : x' setup s with
  | ok a t => rw [bind_of_ok (h.trans hx), bind_of_ok hx]
  | error e t => rw [bind_of_error (h.trans hx), bind_of_error hx]

end Run

namespace Setup

variable {setup : Setup} {ok : World → State → Prop}

/-- Evaluators that do the same from every world in order make the same report. -/
theorem report_of_coincide (hg : setup.graph.Grounded) {E E' : Evaluator}
    (h : E.Coincide setup E') (globals : Host.Datum) :
    setup.reportWith E globals setup .start = setup.reportWith E' globals setup .start := by
  unfold reportWith
  cases setup.programs[0]? with
  | none => rfl
  | some main =>
    have htraced : Traced setup .start (newGlobals globals) fun w frame => frame ∈ w.globals :=
      .newGlobals
    obtain ⟨es, w, hr, hres⟩ := htraced (World.Ok.start setup)
    have hw := (hr.le_ok hg (.start setup)).2
    dsimp only
    cases hnew : newGlobals globals setup .start with
    | error e s => rw [bind_of_error hnew, bind_of_error hnew]
    | ok frame s =>
      rw [show newGlobals globals setup World.start.state = .ok frame s from hnew] at hres
      obtain ⟨rfl, hframe⟩ := hres
      rw [bind_of_ok hnew, bind_of_ok hnew]
      obtain ⟨t, hlog, hnotes⟩ := log_eq setup .info (fun s => ("Starting analysis",
        [("globals", .ofNat (s.heap.frame frame).bindings.length),
         ("containers", .ofNat s.provenance.size),
         ("statements", .ofNat main.program.body.length)])) w.state
      rw [bind_of_ok hlog, bind_of_ok hlog]
      exact bind_congr_left (h.program 0 (hnotes.toChecks.ok hw) hframe)

/-- What holds wherever a run leads is true of every activity. -/
theorem Vouches.upholds (hg : setup.graph.Grounded) (hv : setup.Vouches ok) :
    setup.Upholds ok where
  step hE := (hE.above hg).leads hv
  traced := Evaluator.isTraced_ofFuel hg
  levels fault n := hv.coincide hg fault n
  analyze fault globals := by
    unfold Setup.analyze Run.outcome
    rw [report_of_coincide hg (hv.coincide hg fault setup.fuel) globals]
    rfl

end Setup

end FrozenGlobals
