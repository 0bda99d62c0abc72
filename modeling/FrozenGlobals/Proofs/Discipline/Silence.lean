import FrozenGlobals.Proofs.Discipline.Vouching

/-!
# Silent evaluators

An evaluator is silent if its activities report nothing. What a step reports over silent evaluators
is therefore its own. Declarations report nothing of their own, in any of their forms: they bind the
names of `var`, `let` and `const`, of `catch` and of loops, of parameters, and of the functions that
a block declares. And since a run replaces a binding of globals only together with a report, all of
them leave the frames of globals as they are (`Evaluator.IsTraced.declaresAbove`). The same goes for
assignments to names that nothing binds.
-/

namespace FrozenGlobals

open Run Discipline
open Script (Node)

/-! ## Silence -/

/-- Between two states nothing was reported, and the second one is where the first one was. -/
structure State.Unreported (s s' : State) : Prop where
  diagnostics : s'.diagnostics = s.diagnostics
  position : s'.position = s.position

/-- The activities of an evaluator report nothing, from whatever state. -/
abbrev Evaluator.Silent (setup : Setup) (E : Evaluator) : Prop :=
  E.Throughout setup State.Unreported

/-- Nothing may be reported. -/
def Discipline.silent (setup : Setup) : Discipline setup :=
  { Discipline.growth setup with
    le := State.Unreported
    place := fun _ _ => False
    refl := fun _ => ⟨rfl, rfl⟩
    trans := fun h h' => ⟨h'.diagnostics.trans h.diagnostics, h'.position.trans h.position⟩
    position := fun h => h.position
    change := by
      intro s s' _ h
      have hposition := h.position
      cases h with
      | report message hplace _ => exact hplace.elim
      | _ => exact ⟨trivial, rfl, hposition⟩
    inUnit := fun _ _ => ⟨trivial, fun _ h => ⟨trivial, h.diagnostics, by
      have hp := h.position
      simp only [State.position, Position.mk.injEq] at hp ⊢
      exact ⟨trivial, hp.2⟩⟩⟩
    stops_le := fun _ h => h
    parted_le := fun _ h => h }

instance (setup : Setup) : (Discipline.silent setup).Alone := ⟨rfl, fun _ _ _ => id, fun _ => id⟩

instance (setup : Setup) : (Discipline.silent setup).Counting :=
  ⟨fun _ _ _ => ⟨trivial, fun _ h => ⟨trivial, h.diagnostics, by
    have hp := h.position
    simp only [State.position, State.called, State.returned, Position.mk.injEq] at hp ⊢
    exact ⟨hp.1, by omega, hp.2.2⟩⟩⟩⟩

section
variable {setup : Setup} {α : Type} {x : Run α}

/-- A silent computation reports nothing. -/
theorem Discipline.Agree.unreported {Q : α → Prop} {s : State}
    (h : (silent setup).Keeps s.position x Q) : s.Unreported (setup.stateAfter x s) :=
  Setup.le_of_keeps (fun _ => id) (h.run s trivial rfl)

/-- What a silent evaluator does is silent. -/
theorem Evaluator.Silent.agrees {E : Evaluator} (hE : E.Silent setup) :
    Agrees (silent setup) .all E E :=
  Throughout.agrees (D := silent setup) hE (fun _ => trivial) (fun _ => trivial) fun _ _ => trivial

end

/-! ## Frames of globals -/

/-- The frames of globals are what they were. -/
def World.Spares (w : World) (s : State) : Prop :=
  ∀ f ∈ w.globals, s.heap.frame f = w.state.heap.frame f

section
variable {setup : Setup} (hg : setup.graph.Grounded) {w : World}
include hg

/-- A traced computation that reports nothing leaves the frames of globals as they are. -/
theorem Traced.spares {α : Type} {x : Run α} {Q : World → α → Prop} (h : Traced setup w x Q)
    (hw : w.Ok setup) (hs : w.state.Unreported (setup.stateAfter x w.state)) :
    w.Spares (setup.stateAfter x w.state) := by
  let ok : World → State → Prop := fun w s => s.diagnostics = w.state.diagnostics → w.Spares s
  have hv : setup.Vouches ok := by
    intro w es w' hw hr hd f hf
    rcases (hr.frame_or_rebind hg hw hf).2 with heq | ⟨x, hx, -⟩
    · exact heq
    · have hguard := hr.rebind_guarded hg hw hx
      obtain ⟨d, own, hnew⟩ :=
        hr.reports_of_opened hg hw hx rfl hguard.checks hguard.reported hguard.kept
      rw [hd] at hnew
      simp at hnew
  have hleads : ok w (setup.stateAfter x w.state) := h.leads hv hw
  exact hleads hs.diagnostics

end

/-- The declarations of a level leave the frames of globals as they are: targets of declarations
that are bound, statements that do not assign to an expression of their own, calls, which bind
parameters, and runs of programs; blocks, function bodies and programs bind the functions they
declare. So does an assignment to a name that nothing binds. -/
structure Evaluator.DeclaresAbove (setup : Setup) (E : Evaluator) : Prop where
  bind : ∀ {w : World} {how p o stack}, w.Ok setup → w.Scope stack → w.Has o →
    (∀ site, how ≠ .assign site) →
    w.Spares (setup.stateAfter (E.bindStep how p o stack) w.state)
  walk : ∀ {w : World} {fold st stack}, w.Ok setup → w.Scope stack →
    (Node.stmt st).mutation? = none →
    w.Spares (setup.stateAfter (E.walkStep fold st stack) w.state)
  call : ∀ {w : World} {id c}, w.Ok setup → w.HasCall c →
    w.Spares (setup.stateAfter (E.callFunction id c) w.state)
  program : ∀ {w : World} {frame} (u), w.Ok setup → frame ∈ w.globals →
    w.Spares (setup.stateAfter (E.runProgram u [frame]) w.state)
  undeclared : ∀ {w : World} {name value stack site violation}, w.Ok setup → w.Scope stack →
    w.state.heap.owner? stack name = none →
    w.Spares (setup.stateAfter (writeName name value stack site violation) w.state)

namespace Evaluator

variable {setup : Setup} {E : Evaluator}

/-- Targets of declarations are bound in silence. -/
theorem Silent.bindStep (hE : E.Silent setup) {how : Install} (hhow : ∀ site, how ≠ .assign site)
    (p : Script.Pattern) (o : Operand) (stack : Stack) (s : State) :
    s.Unreported (setup.stateAfter (E.bindStep how p o stack) s) := by
  have hinstalls : (silent setup).Installs s.position how := fun site h => absurd h (hhow site)
  have hagree : (silent setup).Keeps s.position (E.bindStep how p o stack) fun _ => True := by
    cases p with
    | leaf leaf =>
      exact Agrees.installLeaf trivial hE.agrees hinstalls (fun _ _ _ => trivial)
        (fun _ => trivial) o
    | array span items rest =>
      exact Agrees.bindStep trivial hE.agrees hinstalls
        ⟨fun _ _ _ => trivial, fun h => (by cases h), fun _ => trivial⟩ o
    | object span properties rest =>
      exact Agrees.bindStep trivial hE.agrees hinstalls
        ⟨fun _ _ _ => trivial, fun h => (by cases h), fun _ => trivial⟩ o
  exact hagree.unreported

/-- A statement that does not assign to an expression of its own is run in silence. -/
theorem Silent.walkStep (hE : E.Silent setup) (fold : Bool) {st : Script.Stmt}
    (hst : (Node.stmt st).mutation? = none) (stack : Stack) (s : State) :
    s.Unreported (setup.stateAfter (E.walkStep fold st stack) s) := by
  have hallows : Licence.all.Allows (silent setup) s.position (.stmt st) :=
    ⟨fun _ _ _ => trivial, fun h => (by rw [hst] at h; cases h), fun _ => trivial⟩
  have hagree : (silent setup).Keeps s.position (E.walkStep fold st stack) fun _ => True :=
    hE.agrees.walkStep trivial fold hallows (fun _ => trivial) fun _ => inferInstance
  exact hagree.unreported

/-- A write to a name that nothing binds goes to the innermost frame inside the globals. -/
theorem spares_writeName {w : World} {name : String} {value : Operand} {stack : Stack} {site : Site}
    {violation : Violation} (hs : w.Scope stack) (hnone : w.state.heap.owner? stack name = none) :
    w.Spares (setup.stateAfter (writeName name value stack site violation) w.state) := by
  intro f hf
  obtain ⟨own, t, hnotes, -, heq⟩ := writeName_eq setup name value stack site violation w.state
  obtain ⟨frame, hframe, -, hlocal⟩ := hs.programFrame?
  have howner : owner? stack name setup t = .ok none t := by
    show EStateM.Result.ok (t.heap.owner? stack name) t = _
    rw [hnotes.heap, hnone]
  have hend : ∀ r, rebind name r stack setup t =
      .ok () { t with heap := t.heap.define frame name (.known r) } := by
    intro r
    unfold rebind
    rw [bind_of_ok howner, hframe]
    rfl
  unfold Setup.stateAfter
  rw [heq, hend]
  show (t.heap.define frame name _).frame f = _
  rw [Heap.frame_define, if_neg, hnotes.heap]
  rintro ⟨rfl, -⟩
  exact hlocal hf

/-- The declarations of a level leave the frames of globals as they are. What they have to call back
is not to report anything, so that whatever is reported would be their own. -/
theorem IsTraced.declaresAbove (hg : setup.graph.Grounded) (hE : E.IsTraced setup)
    (hsilent : E.Silent setup) : E.DeclaresAbove setup where
  bind hw hs ho hhow :=
    (hE.bindStep hg hs _ _ ho).spares hg hw (hsilent.bindStep hhow _ _ _ _)
  walk hw hs hst := (hE.walkStep hg hs _ _).spares hg hw (hsilent.walkStep _ hst _ _)
  call {w id c} hw hc := by
    have hagree : (silent setup).Keeps w.state.position (E.callFunction id c) fun _ => True :=
      hsilent.agrees.callFunction (fun _ _ _ _ _ => trivial) id c
    exact (hE.callFunction hg _ hc).spares hg hw hagree.unreported
  program {w frame} u hw hf := by
    have hagree : (silent setup).Keeps w.state.position (E.runProgram u [frame]) fun _ => True :=
      hsilent.agrees.runProgram trivial (fun _ => trivial) fun _ _ => trivial
    exact (hE.runProgram hg hf u).spares hg hw hagree.unreported
  undeclared _ hs hnone := spares_writeName hs hnone

end Evaluator

end FrozenGlobals
