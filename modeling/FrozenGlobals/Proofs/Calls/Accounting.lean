import FrozenGlobals.Proofs.Calls.Books
import FrozenGlobals.Proofs.Calls.Counting
import FrozenGlobals.Proofs.Calls.ScopeStacks
import FrozenGlobals.Proofs.Discipline.Audit

/-!
# Calls are accounted for

Whatever is evaluated, from whatever state, leaves things as it found them: the program whose code
is evaluated, how many calls are nested and how often each function is being called, and the calls
of the analyzed program through which external code is reached (`State.Balanced`).

From a state that a run can come to, an evaluation goes on as a run does (`Setup.Leads`). This is
seen by an evaluator that is told the functions that are being called: it hands on what it was told,
with the function in front where it runs the body of one, and gives up where an activity does not
fit in. It never does (`Evaluator.agrees_accounting`).
-/

namespace FrozenGlobals

open Run Discipline Relation
open Script (Span)

/-! ## Leaving things as they were -/

/-- An evaluation stands where it stood, under the same calls. -/
structure State.Balanced (s s' : State) : Prop where
  position : s'.position = s.position
  active : ∀ key, s'.active.count key = s.active.count key

namespace State.Balanced

variable {s s' s'' : State}

/-- A state stands where it stands. -/
theorem refl (s : State) : s.Balanced s := ⟨rfl, fun _ => rfl⟩

/-- Standing in the same place is transitive. -/
theorem trans (h : s.Balanced s') (h' : s'.Balanced s'') : s.Balanced s'' :=
  ⟨h'.position.trans h.position, fun key => (h'.active key).trans (h.active key)⟩

/-- No single change moves an evaluation. -/
theorem of_change {setup : Setup} {scope : Stack → Prop} {code : Nat → Script.Function → Prop}
    {place : Nat → Span → Prop} (h : Change setup scope code place s s') : s.Balanced s' := by
  refine ⟨h.position, fun key => ?_⟩
  cases h <;> rfl

/-- Leaving the program that was entered leads back to the one before. -/
theorem leave_unit {u : Nat} (h : Balanced { s with unit := u } s') :
    s.Balanced { s' with unit := s.unit } where
  position := by
    have hp : s'.position = ⟨u, s.depth, s.anchors⟩ := h.position
    simp only [State.position, Position.mk.injEq] at hp ⊢
    exact ⟨trivial, hp.2⟩
  active := h.active

/-- Leaving external code leads back to the calls before it. -/
theorem leave_anchors {anchors : List Span} (h : Balanced { s with anchors } s') :
    s.Balanced { s' with anchors := s.anchors } where
  position := by
    have hp : s'.position = ⟨s.unit, s.depth, anchors⟩ := h.position
    simp only [State.position, Position.mk.injEq] at hp ⊢
    exact ⟨hp.1, hp.2.1, trivial⟩
  active := h.active

/-- A call takes back what it counted. -/
theorem returned {key : FunctionKey} (h : (s.called key).Balanced s') :
    s.Balanced (s'.returned key) where
  position := by
    have hp : s'.position = ⟨s.unit, s.depth + 1, s.anchors⟩ := h.position
    simp only [State.position, State.returned, Position.mk.injEq] at hp ⊢
    exact ⟨hp.1, by omega, hp.2.2⟩
  active := fun k => by
    have hactive : s'.active.count k = (s.active.add key).count k := h.active k
    show (s'.active.remove key).count k = s.active.count k
    rw [Tally.count_remove, hactive, Tally.count_add, Nat.add_sub_cancel]

end State.Balanced

/-- All that is evaluated leaves things as they were. -/
def Discipline.balanced (setup : Setup) : Discipline setup :=
  { Discipline.growth setup with
    le := State.Balanced
    refl := State.Balanced.refl
    trans := State.Balanced.trans
    position := fun h => h.position
    change := fun _ h => ⟨trivial, .of_change h⟩
    inUnit := fun _ _ => ⟨trivial, fun _ h => ⟨trivial, h.leave_unit⟩⟩
    stops_le := fun _ h => h
    parted_le := fun _ h => h }

instance (setup : Setup) : (Discipline.balanced setup).Alone := ⟨rfl, fun _ _ _ => id, fun _ => id⟩

instance (setup : Setup) : (Discipline.balanced setup).Counting :=
  ⟨fun _ _ _ => ⟨trivial, fun _ h => ⟨trivial, h.returned⟩⟩⟩

instance (setup : Setup) : (Discipline.balanced setup).Open where
  scope _ := trivial
  code _ _ := trivial
  place _ _ := trivial
  enters _ _ := trivial
  fails _ := trivial
  anchored _ _ := ⟨trivial, fun _ h => ⟨trivial, h.leave_anchors⟩⟩

namespace Setup

/-- A computation leaves things as they were, whether it ends or fails. -/
def Restores {α : Type} (setup : Setup) (x : Run α) : Prop :=
  ∀ s : State, s.Balanced (setup.stateAfter x s)

/-- All that is evaluated leaves things as they were. -/
theorem everywhere_restores (setup : Setup) (n : Nat) : setup.Everywhere setup.Restores n :=
  everywhere_of_keeps (D := Discipline.balanced setup)
    (fun h s => le_of_keeps (fun _ => id) ((h s.position).run s trivial rfl)) n

/-! ## Going on as a run does -/

/-- A run can come to a state in which the functions of a chain are being called. The state does not
record the past calls one by one, but it has their number and how often each function was entered
again on its books. -/
def ReachedIn (setup : Setup) (chain : List FunctionKey) (s : State) : Prop :=
  ∃ past, setup.Reached ⟨past, chain, s⟩

variable {setup : Setup} {chain : List FunctionKey} {key : FunctionKey} {s s' t : State}

/-- In the beginning no function is being called. -/
theorem reachedIn_start (setup : Setup) : setup.ReachedIn [] .start := ⟨[], .refl⟩

/-- A run goes on from where it has come to. -/
theorem ReachedIn.leads (hs : setup.ReachedIn chain s) (h : setup.Leads chain s s') :
    setup.ReachedIn chain s' := by
  obtain ⟨past, hs⟩ := hs
  obtain ⟨new, h⟩ := h
  exact ⟨new ++ past, hs.trans (h past)⟩

/-- A call that is followed puts its function in front of the chain. -/
theorem ReachedIn.called (hs : setup.ReachedIn chain s) (hdepth : s.depth < setup.callLevels)
    (hafford : s.Affords setup.options key) : setup.ReachedIn (key :: chain) (s.called key) := by
  obtain ⟨past, hs⟩ := hs
  exact ⟨_, hs.tail (.enter key hdepth hafford)⟩

/-- An activity that starts where a run can come to goes on as a run does, and leaves things as they
were. -/
structure Accounted (setup : Setup) (chain : List FunctionKey) (s s' : State) : Prop where
  reached : setup.ReachedIn chain s
  balanced : s.Balanced s'
  leads : setup.Leads chain s s'

noncomputable instance : DecidableRel (setup.Accounted chain) := fun _ _ =>
  Classical.propDecidable _

end Setup

/-- What is evaluated while the functions of a chain are being called goes on as a run does. -/
def Discipline.accounting (setup : Setup) (chain : List FunctionKey) : Discipline setup :=
  { Discipline.growth setup with
    inv := setup.ReachedIn chain
    le := fun s s' => s.Balanced s' ∧ setup.Leads chain s s'
    refl := fun s => ⟨.refl s, .refl chain s⟩
    trans := fun h h' => ⟨h.1.trans h'.1, h.2.trans h'.2⟩
    position := fun h => h.1.position
    change := fun hs h => ⟨hs.leads (.of_change h), .of_change h, .of_change h⟩
    inUnit := fun hs _ => ⟨hs.leads (.of_books rfl), fun hs' h =>
      ⟨hs'.leads (.of_books rfl), h.1.leave_unit, h.2.congr⟩⟩
    closure := fun _ _ => ⟨trivial, fun _ _ => trivial⟩
    missing := fun _ _ => trivial
    stops_le := fun _ h => h
    parted_le := fun _ h => h }

section
variable {setup : Setup} {chain : List FunctionKey} {key : FunctionKey} {s : State} {α : Type}
  {x x' : Run α} {Q : α → Prop}

instance : (Discipline.accounting setup chain).Alone := ⟨rfl, fun _ _ _ => id, fun _ => id⟩

instance : (Discipline.accounting setup chain).Open where
  scope _ := trivial
  code _ _ := trivial
  place _ _ := trivial
  enters _ _ := trivial
  fails _ := trivial
  anchored _ hs := ⟨hs.leads (.of_books rfl), fun hs' h =>
    ⟨hs'.leads (.of_books rfl), h.1.leave_anchors, h.2.congr⟩⟩

/-- A call is followed with its function in front of the chain. -/
theorem Discipline.AgreeAt.counted (hs : setup.ReachedIn chain s)
    (hdepth : s.depth < setup.callLevels) (hafford : s.Affords setup.options key)
    (hx : (accounting setup (key :: chain)).AgreeAt (s.called key) x x' Q) :
    (accounting setup chain).AgreeAt s (x.counted key) (x'.counted key) Q := by
  have hcounted : ∀ y : Run α, y.counted key setup s =
      y.restoring (State.returned · key) setup (s.called key) := fun _ => rfl
  -- the call and what it led to are one step further
  have hend : ∀ {u : State}, (s.called key).Balanced u →
      setup.Leads (key :: chain) (s.called key) u →
      setup.ReachedIn chain (u.returned key) ∧ s.Balanced (u.returned key) ∧
        setup.Leads chain s (u.returned key) := fun hbalanced hleads =>
    have h := Setup.Leads.of_call hdepth hafford hleads
    ⟨hs.leads h, hbalanced.returned, h⟩
  have h := hx.alone
  unfold AgreeAt
  rw [Alone.twin (D := accounting setup chain), hcounted, hcounted, Run.restoring, Run.restoring]
  cases hxs : x setup (s.called key) with
  | ok a u =>
    rw [hxs] at h
    obtain ⟨heq, -, ⟨hbalanced, hleads⟩, hq⟩ := h
    rw [heq]
    exact ⟨.refl _ _, (hend hbalanced hleads).1, (hend hbalanced hleads).2, hq⟩
  | error f u =>
    rw [hxs] at h
    obtain ⟨heq, -, ⟨hbalanced, hleads⟩, hf⟩ := h.resolve_left id
    rw [heq]
    exact .inr ⟨.refl _ _, (hend hbalanced hleads).1, (hend hbalanced hleads).2, hf⟩

end

namespace Evaluator

/-- Calls a value. What a function runs is run by an evaluator for the inside of its call. -/
def invokeBy (E : Evaluator) (inside : FunctionKey → Evaluator) (v : Value) (c : CallSite) :
    Run Reference := do
  match v with
  | .function id =>
      let key := ((← get).heap.closure? id).bind Closure.key
      (inside key).callFunction id c
  | v => E.invokeStep v c

/-- An evaluator for the inside of the calls of a chain, whose activities are audited at all levels:
they are accounted for, and the function of every call is put in front of the chain. -/
noncomputable def accounting (setup : Setup) : Nat → List FunctionKey → Evaluator
  | 0, _ => ofFuel 0
  | fuel + 1, chain =>
      let E := accounting setup fuel chain
      auditing (setup.Accounted chain) ⟨E.resolveStep, E.bindStep, E.walkStep,
        E.invokeBy fun key => accounting setup fuel (key :: chain)⟩

/-- A function is run by the evaluator for the inside of its call. -/
theorem invokeBy_function (E : Evaluator) (inside : FunctionKey → Evaluator) (id : Nat)
    (c : CallSite) (setup : Setup) (s : State) :
    E.invokeBy inside (.function id) c setup s =
      (inside ((s.heap.closure? id).bind Closure.key)).callFunction id c setup s := by
  unfold invokeBy
  rfl

/-- Everything else is called as ever. -/
theorem invokeBy_native (E : Evaluator) (inside : FunctionKey → Evaluator) {v : Value}
    (c : CallSite) (hv : ∀ id, v ≠ .function id) : E.invokeBy inside v c = E.invokeStep v c := by
  cases v with
  | function id => exact absurd rfl (hv id)
  | _ => rfl

/-- A call agrees if what functions run agrees with their function in front of the chain. -/
theorem agreeAt_callFunction {setup : Setup} {chain : List FunctionKey} {E : Evaluator}
    {inside : FunctionKey → Evaluator}
    (hinside : ∀ key, Agrees (Discipline.accounting setup (key :: chain)) .all E (inside key))
    (id : Nat) (c : CallSite) {s : State} (hs : setup.ReachedIn chain s) :
    (Discipline.accounting setup chain).AgreeAt s (E.callFunction id c)
      ((inside ((s.heap.closure? id).bind Closure.key)).callFunction id c) fun _ => True := by
  refine Agrees.callFunctionOf id c hs (fun _ fn _ => (Agrees.admits fn c.site).run s hs rfl)
    fun fn code log hfn hcode hdepth hafford hinv => ?_
  have hkey : (s.heap.closure? id).bind Closure.key = fn.key :=
    congrArg (Option.bind · Closure.key) hfn
  rw [hkey]
  have hlogged : setup.ReachedIn chain { s with log } := hinv
  have hrun : (Discipline.accounting setup (fn.key :: chain)).Agree
      (State.called { s with log } fn.key).position (E.runCode (.function id) fn code c.args)
      ((inside fn.key).runCode (.function id) fn code c.args) fun _ => True :=
    (hinside fn.key).runCode trivial trivial (fun _ _ _ _ => trivial) c.args
  exact .counted hlogged hdepth hafford (hrun.run _ (hlogged.called hdepth hafford) rfl)

/-- The audits find nothing. -/
theorem agrees_accounting (setup : Setup) (n : Nat) (chain : List FunctionKey) :
    Agrees (Discipline.accounting setup chain) .all (ofFuel n) (accounting setup n chain) := by
  induction n generalizing chain with
  | zero => exact agrees_zero
  | succ n ih =>
    have hE := ih chain
    refine (hE.stepWith Licence.lifts_all fun {p v c} _ => ?_).auditing
      (fun _ hs _ _ hle => ⟨hs, hle.1, hle.2⟩) fun _ hs _ _ hle => ⟨hs, hle.1, hle.2⟩
    by_cases hv : ∃ id, v = .function id
    · obtain ⟨id, rfl⟩ := hv
      exact ⟨fun s hs _ => .of_later ((Discipline.accounting setup chain).refl s) (fun _ => rfl)
        (fun _ => invokeBy_function ..)
          (agreeAt_callFunction (fun key => ih (key :: chain)) id c hs)⟩
    · have hnative : ∀ id, v ≠ .function id := fun id hid => hv ⟨id, hid⟩
      rw [invokeBy_native _ _ _ hnative]
      exact hE.invokeNative (.inr trivial) (fun _ _ _ _ _ _ => trivial) hnative

end Evaluator

/-! ## Runs -/

namespace Setup

variable {setup : Setup} {m : Moment} {s : State}

/-- No function is being called before the program is run. -/
theorem reachedIn_newGlobals {globals : Host.Datum} {frame : Nat}
    (h : newGlobals globals setup .start = .ok frame s) : setup.ReachedIn [] s := by
  have hglobals := (Agree.newGlobals globals).alone .start
    (show (Discipline.accounting setup []).inv _ from reachedIn_start setup) rfl
  rw [h] at hglobals
  exact hglobals.2.1

/-- Where an analysis and an evaluation end, a run can come to, and no function is being called. -/
theorem reachedIn_outcome (setup : Setup) (globals : Host.Datum) :
    setup.ReachedIn [] (setup.analyze globals).2 ∧
      setup.ReachedIn [] (setup.evaluate globals).2 := by
  have hrun : ∀ frame, (Discipline.accounting setup []).Keeps ⟨0, 0, []⟩
      (setup.evaluator.runProgram 0 [frame]) fun _ => True := fun frame =>
    (Evaluator.agrees_accounting setup setup.fuel []).runProgram trivial (fun _ => trivial)
      (fun _ _ => trivial) |>.left
  exact ⟨(outcome_of_keeps (fun _ => id) (keeps_report (reachedIn_start setup) (fun _ => trivial)
      fun frame _ _ _ => hrun frame)).1,
    (outcome_of_keeps (fun _ => id) (keeps_evaluation (reachedIn_start setup) (fun _ => trivial)
      fun frame _ _ _ => hrun frame)).1⟩

/-- The report of an analysis that is audited throughout is the report. -/
theorem analyze_accounting (setup : Setup) (globals : Host.Datum) :
    (setup.reportWith (.accounting setup setup.fuel []) globals).outcome setup =
      setup.analyze globals := by
  have h : (Discipline.accounting setup []).AgreeAt .start (setup.report globals)
      (setup.reportWith (.accounting setup setup.fuel []) globals) fun _ => True :=
    agreeAt_reportWith (reachedIn_start setup) (fun _ => trivial) fun _ _ _ _ =>
      (Evaluator.agrees_accounting setup setup.fuel []).runProgram trivial (fun _ => trivial)
        fun _ _ => trivial
  unfold analyze Run.outcome
  rw [h.eq fun _ => id]

/-- A call is skipped if it would nest too deep, or if its function is being called and was entered
again as often as it may be. -/
theorem Reached.skipped (h : setup.Reached m) {fn : Closure} {site : Site} {s' : State}
    (hskip : Evaluator.admits fn site setup m.state = .ok false s') :
    (0 ≤ setup.options.maxCallDepth ∧ setup.options.maxCallDepth ≤ m.state.depth) ∨
    fn.key ∈ m.chain ∧
      ∃ budget, setup.options.budget? = some budget ∧ budget ≤ m.reentries fn.key := by
  rcases Evaluator.admits_eq setup fn site m.state with
    ⟨heq, -⟩ | ⟨skip, log, hreason, hdue, -⟩ | ⟨-, heq⟩
  · cases heq.symm.trans hskip
  · obtain rfl | ⟨budget, rfl⟩ := hreason
    · exact .inl hdue
    · obtain ⟨hbudget, hactive, hspent⟩ := hdue
      rw [h.booked.active] at hactive
      exact .inr ⟨List.count_pos_iff.1 hactive, budget, hbudget, h.booked.reentered _ ▸ hspent⟩
  · cases heq.symm.trans hskip

/-- Calls are accounted for exactly.

Every activity, call, native method and resolution of callbacks, and every analysis, from whatever
state and whether it ends or fails, leaves the depth, the functions being called, the current
program and the calls through which external code is reached as it found them, and a walk with its
scope stack in a store leaves the stack as it found it. Over evaluators that count no calls, a call
that is followed counts itself, once, and nothing else counts.

From every moment that a run can come to, evaluation is what it is with audits at all levels for
going on as a run does, with the function of each call in front of those being called; so is the
report of an analysis, which ends where a run can come to. At every such moment the books are right:
the depth is how many functions are being called, and each is counted as often as it is among them;
every function gives at most one warning for its budget, and there is at most one for the ceiling.
With a positive ceiling no function is entered again more than 1000 times as often, and a call that
is not too deep is skipped only if its function is being called. -/
theorem calls_accounted (setup : Setup) :
    (∀ n, setup.Everywhere setup.Restores n) ∧
    (∀ n fold st, Walk.walk n fold st = Walk.seeing ((Evaluator.ofFuel n).walk fold st)) ∧
    (∀ E : Evaluator, E.Idle setup → E.CountsAbove setup) ∧
    (∀ n chain s, setup.ReachedIn chain s →
      (∀ e stack, (Evaluator.accounting setup n chain).resolve e stack setup s =
        (Evaluator.ofFuel n).resolve e stack setup s) ∧
      (∀ how target init stack,
        (Evaluator.accounting setup n chain).bind how target init stack setup s =
          (Evaluator.ofFuel n).bind how target init stack setup s) ∧
      (∀ fold st stack, (Evaluator.accounting setup n chain).walk fold st stack setup s =
        (Evaluator.ofFuel n).walk fold st stack setup s) ∧
      (∀ v c, (Evaluator.accounting setup n chain).invoke v c setup s =
        (Evaluator.ofFuel n).invoke v c setup s) ∧
      ∀ u frame, (Evaluator.accounting setup n chain).runProgram u [frame] setup s =
        (Evaluator.ofFuel n).runProgram u [frame] setup s) ∧
    (∀ globals,
      (∀ frame s, newGlobals globals setup .start = .ok frame s → setup.ReachedIn [] s) ∧
      (setup.reportWith (.accounting setup setup.fuel []) globals).outcome setup =
        setup.analyze globals ∧
      setup.ReachedIn [] (setup.analyze globals).2 ∧
      setup.ReachedIn [] (setup.evaluate globals).2) ∧
    ∀ m, setup.Reached m →
      m.Booked setup.options ∧
      (0 < setup.options.maxCallDepth → 1000 * setup.options.maxCallDepth < 2 ^ 63 →
        ∀ key, (m.reentries key : Int) ≤ 1000 * setup.options.maxCallDepth) ∧
      ∀ fn site s', Evaluator.admits fn site setup m.state = .ok false s' →
        (0 ≤ setup.options.maxCallDepth ∧ setup.options.maxCallDepth ≤ m.state.depth) ∨
        fn.key ∈ m.chain ∧
          ∃ budget, setup.options.budget? = some budget ∧ budget ≤ m.reentries fn.key := by
  refine ⟨everywhere_restores setup, Walk.walk_eq, fun _ => Evaluator.Idle.countsAbove,
    fun n chain s hs => ?_,
    fun globals => ⟨fun _ _ => reachedIn_newGlobals, analyze_accounting setup globals,
      reachedIn_outcome setup globals⟩,
    fun m hm => ⟨hm.booked, hm.reentries_le, fun fn site s' => hm.skipped⟩⟩
  have hE := Evaluator.agrees_accounting setup n chain
  have heq : ∀ {α : Type} {x x' : Run α} {Q : α → Prop},
      (Discipline.accounting setup chain).Agree s.position x x' Q → x' setup s = x setup s :=
    fun h => (h.run s hs rfl).eq fun _ => id
  exact ⟨fun e stack => heq (hE.resolve trivial trivial),
    fun how target init stack => heq (hE.bind trivial (fun _ _ => trivial) trivial),
    fun fold st stack => heq (hE.walk trivial trivial), fun v c => heq (hE.invoke trivial),
    fun u frame => heq (hE.runProgram trivial (fun _ => trivial) fun _ _ => trivial)⟩

end Setup

/-- The program `function f() { f(); } f();`, with a ceiling of two nested calls. -/
def recursion : Setup where
  options := { Options.standard with maxCallDepth := 2 }
  programs := #[.ofProgram ⟨"script", "function f() \x7b f(); \x7d f();",
    [.declareFunction (.mk ⟨0, 21⟩ false (some ⟨"f", ⟨9, 10⟩⟩) (.mk ⟨10, 12⟩ [] none)
      (.block (.mk ⟨13, 21⟩ [.expression (.call ⟨15, 18⟩ (.identifier ⟨"f", ⟨15, 16⟩⟩) [])]))),
     .expression (.call ⟨22, 25⟩ (.identifier ⟨"f", ⟨22, 23⟩⟩) [])]⟩]
  graph := emptyGlobal
  resolver := none
  canceled := false

/-- The function is followed twice, the second time inside of the first, and a third time it would
nest too deep. -/
theorem calls_accounted_recursion :
    let f : FunctionKey := some (0, ⟨0, 21⟩)
    let s := (recursion.analyze (.container 0)).2
    let inside : Moment := ⟨[⟨f, [f]⟩, ⟨f, []⟩], [f, f], (State.start.called f).called f⟩
    (∃ past, recursion.Reached ⟨past, [], s⟩ ∧ past.length = 2 ∧
      Moment.reentries ⟨past, [], s⟩ f = 1 ∧
      (Moment.reentries ⟨past, [], s⟩ f : Int) ≤ 1000 * recursion.options.maxCallDepth) ∧
    s.warnings.toList = ["call at [15,18) not followed: call depth ceiling 2 reached"] ∧
    inside.Booked recursion.options ∧
    (∃ s', Evaluator.admits ⟨"f", none, [], none⟩ ⟨.call, ⟨15, 18⟩⟩ recursion inside.state =
      .ok false s') ∧
    2 ≤ inside.state.depth := by
  intro f s inside
  obtain ⟨-, -, -, -, hruns, hmoments⟩ := Setup.calls_accounted recursion
  have hbudget : recursion.options.budget? = some 2000 :=
    recursion.options.budget?_of_word (by decide) (by decide)
  obtain ⟨past, hpast⟩ := (hruns (.container 0)).2.2.1
  obtain ⟨hbooked, hreentries, -⟩ := hmoments _ hpast
  have hcalls : s.calls = 2 := by decide +kernel
  have hreentered : s.reentries.count f = 1 := by decide +kernel
  have hafford : ∀ {t : State}, t.reentries.count f = 0 → t.Affords recursion.options f :=
    fun h budget hb _ => by
      cases hbudget.symm.trans hb
      omega
  have hinside : recursion.Reached inside :=
    (ReflTransGen.single (.enter f (by decide) (hafford rfl))).tail
      (.enter f (by decide) (hafford rfl))
  obtain ⟨hinsideBooked, -, hskips⟩ := hmoments _ hinside
  have hskip : Evaluator.admits ⟨"f", none, [], none⟩ ⟨.call, ⟨15, 18⟩⟩ recursion inside.state =
      .ok false (inside.state.skipped recursion.options (.tooDeep ⟨.call, ⟨15, 18⟩⟩)) := rfl
  refine ⟨⟨past, hpast, hbooked.calls.symm.trans hcalls,
    (hbooked.reentered f).symm.trans hreentered, hreentries (by decide) (by decide) f⟩,
    by decide +kernel, hinsideBooked, ⟨_, hskip⟩, ?_⟩
  rcases hskips _ _ _ hskip with ⟨-, hdeep⟩ | ⟨-, budget, hb, hspent⟩
  · exact Int.ofNat_le.1 hdeep
  · cases hbudget.symm.trans hb
    exact absurd hspent (by decide)

end FrozenGlobals
