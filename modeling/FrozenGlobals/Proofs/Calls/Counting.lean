import FrozenGlobals.Proofs.Discipline.Growth

/-!
# What counts as a call

An evaluator is idle if its activities count no calls. What a step counts over idle evaluators is
therefore its own. A call of a function that is followed counts itself, once, and as entered again
if the function is being called already; a call that is not followed calls nothing back. Nothing
else counts a call: no expression, no target, no statement, no native method, no run of a program
(`Evaluator.Idle.countsAbove`). So the calls that a state has on its books are the calls that were
followed on the way to it.
-/

namespace FrozenGlobals

open Run Discipline

/-! ## Counting nothing -/

/-- Between two states no call was counted, and the second one is where the first one was. -/
structure State.Uncounted (s s' : State) : Prop where
  position : s'.position = s.position
  calls : s'.calls = s.calls
  reentries : s'.reentries = s.reentries

namespace State.Uncounted

variable {s s' s'' : State}

theorem refl (s : State) : s.Uncounted s := ⟨rfl, rfl, rfl⟩

theorem trans (h : s.Uncounted s') (h' : s'.Uncounted s'') : s.Uncounted s'' :=
  ⟨h'.position.trans h.position, h'.calls.trans h.calls, h'.reentries.trans h.reentries⟩

/-- No change of the state counts a call, not even a warning about one that is skipped. -/
theorem of_change {setup : Setup} {scope : Stack → Prop} {code : Nat → Script.Function → Prop}
    {place : Nat → Script.Span → Prop} (h : Change setup scope code place s s') :
    s.Uncounted s' := by
  refine ⟨h.position, ?_, ?_⟩ <;> cases h <;> rfl

/-- Programs that are run inside of others count nothing if what they run counts nothing. -/
theorem leave_unit {u : Nat} (h : Uncounted { s with unit := u } s') :
    s.Uncounted { s' with unit := s.unit } where
  position := by
    have hp : s'.position = ⟨u, s.depth, s.anchors⟩ := h.position
    simp only [State.position, Position.mk.injEq] at hp ⊢
    exact ⟨trivial, hp.2⟩
  calls := h.calls
  reentries := h.reentries

/-- Neither does external code. -/
theorem leave_anchors {anchors : List Script.Span} (h : Uncounted { s with anchors } s') :
    s.Uncounted { s' with anchors := s.anchors } where
  position := by
    have hp : s'.position = ⟨s.unit, s.depth, anchors⟩ := h.position
    simp only [State.position, Position.mk.injEq] at hp ⊢
    exact ⟨hp.1, hp.2.1, trivial⟩
  calls := h.calls
  reentries := h.reentries

end State.Uncounted

/-- No call is counted. Calls themselves do not keep this discipline. -/
def Discipline.uncounted (setup : Setup) : Discipline setup :=
  { Discipline.growth setup with
    le := State.Uncounted
    refl := State.Uncounted.refl
    trans := State.Uncounted.trans
    position := fun h => h.position
    change := fun _ h => ⟨trivial, .of_change h⟩
    inUnit := fun _ _ => ⟨trivial, fun _ h => ⟨trivial, h.leave_unit⟩⟩
    stops_le := fun _ h => h
    parted_le := fun _ h => h }

instance (setup : Setup) : (Discipline.uncounted setup).Alone :=
  ⟨rfl, fun _ _ _ => id, fun _ => id⟩

instance (setup : Setup) : (Discipline.uncounted setup).Open where
  scope _ := trivial
  code _ _ := trivial
  place _ _ := trivial
  enters _ _ := trivial
  fails _ := trivial
  anchored _ _ := ⟨trivial, fun _ h => ⟨trivial, h.leave_anchors⟩⟩

/-- Where a computation that keeps the discipline ends, no call was counted. -/
theorem Discipline.Agree.uncounted {setup : Setup} {α : Type} {x : Run α} {Q : α → Prop} {s : State}
    (h : (Discipline.uncounted setup).Keeps s.position x Q) :
    s.Uncounted (setup.stateAfter x s) :=
  Setup.le_of_keeps (fun _ => id) (h.run s trivial rfl)

namespace Evaluator

/-- The activities of an evaluator count no calls, from whatever state. -/
abbrev Idle (setup : Setup) (E : Evaluator) : Prop := E.Throughout setup State.Uncounted

/-- A call of a function is not followed, whatever evaluator there is to run its body. -/
def Passes (setup : Setup) (id : Nat) (c : CallSite) (s : State) : Prop :=
  ∀ E E' : Evaluator, E.callFunction id c setup s = E'.callFunction id c setup s

/-- What the activities of a level count over an idle evaluator. A call of a function counts itself
if it is followed, and the rest counts nothing. -/
structure CountsAbove (setup : Setup) (E : Evaluator) : Prop where
  resolve : ∀ e stack (s : State), s.Uncounted (setup.stateAfter (E.resolveStep e stack) s)
  bind : ∀ how p o stack (s : State), s.Uncounted (setup.stateAfter (E.bindStep how p o stack) s)
  walk : ∀ fold st stack (s : State), s.Uncounted (setup.stateAfter (E.walkStep fold st stack) s)
  native : ∀ {v} c (s : State), (∀ id, v ≠ .function id) →
    s.Uncounted (setup.stateAfter (E.invokeStep v c) s)
  program : ∀ u frame (s : State), s.Uncounted (setup.stateAfter (E.runProgram u [frame]) s)
  call : ∀ id c (s : State),
    Passes setup id c s ∧ s.Uncounted (setup.stateAfter (E.callFunction id c) s) ∨
    ∃ fn log t, s.heap.closure? id = some fn ∧ s.depth < setup.callLevels ∧
      s.Affords setup.options fn.key ∧ (State.called { s with log } fn.key).Uncounted t ∧
      setup.stateAfter (E.callFunction id c) s = t.returned fn.key

variable {setup : Setup}

section
variable {id : Nat} {c : CallSite} {s : State} {fn : Closure}

/-- A call of a known function asks first whether it is followed. -/
theorem callFunction_eq (hcanceled : setup.canceled = false) (hfn : s.heap.closure? id = some fn)
    (E : Evaluator) : E.callFunction id c setup s = (do
      unless ← admits fn c.site do return .empty
      let args ← c.args.mapM deref
      let limit := (← read).options.logLimit
      log .debug fun s =>
        let shown := " ".intercalate (args.map (s.heap.summary limit))
        ("Invoking function with args [" ++ shown ++ "]", callFields fn c.site s)
      match fn.code with
      | none => return .empty
      | some code =>
          let run := counted fn.key (E.runCode (.function id) fn code c.args)
          if (← get).depth % callsPerStack + 1 == callsPerStack then run.onFreshStack else run :
      Run Reference) setup s := by
  have hgo : checkCanceled setup s = .ok () s := by
    rw [checkCanceled_eq, if_neg (by simp [hcanceled])]
  unfold callFunction
  rw [bind_of_ok hgo, get_bind, hfn]
  rfl

/-- A call that is followed runs the body of its function, if it has one, from the state as it is
but for an entry in the log. -/
theorem callFunction_followed (hcanceled : setup.canceled = false)
    (hfn : s.heap.closure? id = some fn) (hadmits : admits fn c.site setup s = .ok true s) :
    ∃ log, ∀ E : Evaluator, E.callFunction id c setup s =
      match fn.code with
      | none => .ok .empty { s with log }
      | some code =>
        counted fn.key (E.runCode (.function id) fn code c.args) setup { s with log } := by
  obtain ⟨entries, hlog⟩ := log_ok setup .debug (fun s' =>
    ("Invoking function with args [" ++ " ".intercalate ((c.args.map (·.now s)).map
      (s'.heap.summary setup.options.logLimit)) ++ "]", callFields fn c.site s')) s
  refine ⟨entries, fun E => ?_⟩
  rw [callFunction_eq hcanceled hfn]
  refine (bind_of_ok hadmits).trans ((bind_of_ok (mapM_deref c.args s)).trans ?_)
  refine (bind_of_ok hlog).trans ?_
  cases fn.code with
  | none => rfl
  | some code =>
    dsimp only
    rw [get_bind]
    -- a stack of its own makes no difference
    split
    · rfl
    · rfl

end

/-- A call of a function runs its body, from the state as it is but for an entry in the log, or it
is skipped, or it fails. -/
theorem callFunction_cases (setup : Setup) (id : Nat) (c : CallSite) (s : State) :
    (∃ fn code log, s.heap.closure? id = some fn ∧ s.depth < setup.callLevels ∧
      s.Affords setup.options fn.key ∧ ∀ E : Evaluator, E.callFunction id c setup s =
        counted fn.key (E.runCode (.function id) fn code c.args) setup { s with log }) ∨
    (∃ t, s.Uncounted t ∧ ∀ E : Evaluator, E.callFunction id c setup s = .ok .empty t) ∨
    ∃ failure, ∀ E : Evaluator, E.callFunction id c setup s = .error failure s := by
  cases hcanceled : setup.canceled with
  | true =>
    refine .inr (.inr ⟨.canceled, fun E => ?_⟩)
    exact bind_of_error (by rw [checkCanceled_eq, if_pos hcanceled])
  | false =>
    cases hfn : s.heap.closure? id with
    | none =>
      refine .inr (.inl ⟨s, .refl s, fun E => ?_⟩)
      have hgo : checkCanceled setup s = .ok () s := by
        rw [checkCanceled_eq, if_neg (by simp [hcanceled])]
      unfold callFunction
      rw [bind_of_ok hgo, get_bind, hfn]
      rfl
    | some fn =>
      rcases admits_eq setup fn c.site s with
        ⟨hadmits, hdepth, hafford⟩ | ⟨skip, log, -, -, hadmits⟩ | ⟨-, hadmits⟩
      · obtain ⟨log, hend⟩ := callFunction_followed hcanceled hfn hadmits
        cases hcode : fn.code with
        | none =>
          rw [hcode] at hend
          exact .inr (.inl ⟨{ s with log }, ⟨rfl, rfl, rfl⟩, hend⟩)
        | some code =>
          rw [hcode] at hend
          exact .inl ⟨fn, code, log, rfl, hdepth, hafford, hend⟩
      · refine .inr (.inl ⟨{ s.skipped setup.options skip with log },
          ⟨rfl, rfl, rfl⟩, fun E => ?_⟩)
        exact (callFunction_eq hcanceled hfn E).trans (bind_of_ok hadmits)
      · exact .inr (.inr ⟨.callDepthExceeded s.depth c.site.span, fun E =>
          (callFunction_eq hcanceled hfn E).trans (bind_of_error hadmits)⟩)

/-- A call that is followed takes back what it counted as going on. -/
theorem stateAfter_counted {α : Type} (key : FunctionKey) (x : Run α) (s : State) :
    setup.stateAfter (counted key x) s = (setup.stateAfter x (s.called key)).returned key := by
  have heq : counted key x setup s = x.restoring (State.returned · key) setup (s.called key) := rfl
  unfold Setup.stateAfter
  rw [heq, Run.restoring]
  cases x setup (s.called key) with
  | ok a t => rfl
  | error f t => rfl

variable {E : Evaluator}

/-- What an idle evaluator does counts no call. -/
theorem Idle.agrees (hE : E.Idle setup) : Agrees (uncounted setup) .all E E :=
  Throughout.agrees (D := uncounted setup) hE (fun _ => trivial) (fun _ => trivial)
    fun _ _ => trivial

/-- A call over an idle evaluator counts itself if it is followed. -/
theorem Idle.callFunction (hE : E.Idle setup) (id : Nat) (c : CallSite) (s : State) :
    Passes setup id c s ∧ s.Uncounted (setup.stateAfter (E.callFunction id c) s) ∨
    ∃ fn log t, s.heap.closure? id = some fn ∧ s.depth < setup.callLevels ∧
      s.Affords setup.options fn.key ∧ (State.called { s with log } fn.key).Uncounted t ∧
      setup.stateAfter (E.callFunction id c) s = t.returned fn.key := by
  rcases callFunction_cases setup id c s with
    ⟨fn, code, log, hfn, hdepth, hafford, heq⟩ | ⟨t, ht, heq⟩ | ⟨failure, heq⟩
  · have hinside : (State.called { s with log } fn.key).Uncounted (setup.stateAfter
        (E.runCode (.function id) fn code c.args) (State.called { s with log } fn.key)) :=
      (hE.agrees.runCode trivial trivial (fun _ _ _ _ => trivial) c.args).uncounted
    refine .inr ⟨fn, log, _, hfn, hdepth, hafford, hinside, ?_⟩
    rw [← stateAfter_counted]
    unfold Setup.stateAfter
    rw [heq E]
  · refine .inl ⟨fun E E' => (heq E).trans (heq E').symm, ?_⟩
    unfold Setup.stateAfter
    rw [heq E]
    exact ht
  · refine .inl ⟨fun E E' => (heq E).trans (heq E').symm, ?_⟩
    unfold Setup.stateAfter
    rw [heq E]
    exact .refl s

/-- What a level counts over an idle evaluator. -/
theorem Idle.countsAbove (hE : E.Idle setup) : E.CountsAbove setup := by
  -- calls are left out, since they do not keep the discipline
  let above : Evaluator := ⟨E.resolveStep, E.bindStep, E.walkStep, fun _ _ => pure .empty⟩
  have habove : Agrees (uncounted setup) .all above above :=
    hE.agrees.stepWith Licence.lifts_all fun _ => .pure trivial
  exact {
    resolve := fun e stack s => (habove.resolve trivial trivial).uncounted
    bind := fun how p o stack s => (habove.bind trivial (fun _ _ => trivial) trivial).uncounted
    walk := fun fold st stack s => (habove.walk trivial trivial).uncounted
    native := fun c s hv =>
      (hE.agrees.invokeNative (.inr trivial) (fun _ _ _ _ _ _ => trivial) hv).uncounted
    program := fun u frame s =>
      (hE.agrees.runProgram trivial (fun _ => trivial) fun _ _ => trivial).uncounted
    call := hE.callFunction }

end Evaluator

end FrozenGlobals
