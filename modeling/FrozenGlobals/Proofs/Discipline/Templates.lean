import FrozenGlobals.Proofs.Discipline.Anchoring
import FrozenGlobals.Proofs.Discipline.Termination
import FrozenGlobals.Proofs.Script.Scopes

/-!
# Blocks have templates

The hoisting pass and the evaluation go through the same syntax in different ways, and an analysis
that is strict never finds that they disagree. `Setup.never_faults` says so in three ways: the pass
opens no scope twice, no analysis fails for a fault of its own, and an evaluation that is guarded
does what an evaluation does. A guarded evaluation breaks off where a node is evaluated that is not
code of the current program, or that enters a block or `switch` for which that program has no
template.

What makes this hold is that functions know the program they were made in (`State.Coded`), and that
their calls switch to it.
-/

namespace FrozenGlobals

open Run Discipline
open Script (Span Node)

/-! ## Guards -/

/-- A node is code of a program, and the blocks and `switch` statements that are entered when it is
run have templates there. -/
def Setup.Templated (setup : Setup) (u : Nat) (n : Node) : Prop :=
  ∃ prepared, setup.programs[u]? = some prepared ∧
    (Node.program prepared.program.body).Reaches setup.options.strict n ∧
    ∀ c start, n.Within c → c.scopeStart? = some start → (prepared.hoisting.find? start).isSome

/-- What a call of a function runs is code of the program that the function was made in. -/
def Setup.TemplatedCall (setup : Setup) (s : State) (v : Value) : Prop :=
  ∀ id fn code, v = .function id → s.heap.closure? id = some fn → fn.code = some code →
    ∀ n ∈ code.literal.runs setup.options.strict, setup.Templated code.unit n

open Classical in
/-- Runs a step where it may be run, and breaks off elsewhere. -/
noncomputable def Run.guarded {α : Type} (ok : Setup → State → Prop) (x : Run α) : Run α :=
  fun setup s => if ok setup s then x setup s else .error (.internal .noProgram) s

namespace Evaluator

/-- An evaluator whose own activities are guarded. -/
noncomputable def guarding (E : Evaluator) : Evaluator where
  resolve e stack :=
    (E.resolve e stack).guarded fun setup s => setup.Templated s.unit (.expr e)
  bind how target init stack :=
    (E.bind how target init stack).guarded fun setup s => setup.Templated s.unit (.ofPattern target)
  walk fold stmt stack :=
    (E.walk fold stmt stack).guarded fun setup s => setup.Templated s.unit (.stmt stmt)
  invoke v c := (E.invoke v c).guarded fun setup s => setup.TemplatedCall s v

/-- An evaluator whose activities, which nest at most `fuel` deep, are guarded at all levels. -/
noncomputable def guarded : Nat → Evaluator
  | 0 => ofFuel 0
  | fuel + 1 =>
      let E := guarded fuel
      guarding ⟨E.resolveStep, E.bindStep, E.walkStep, E.invokeStep⟩

end Evaluator

section
variable {setup : Setup} {D : Discipline setup} {p : Position}

/-- A guard of the second of two computations that agree makes no difference if it follows from the
discipline. -/
theorem Discipline.Agree.guarded {α : Type} {x x' : Run α} {Q : α → Prop}
    {ok : Setup → State → Prop} (h : D.Agree p x x' Q)
    (hok : ∀ s, D.inv s → s.position = p → ok D.twin s) : D.Agree p x (x'.guarded ok) Q := by
  refine ⟨fun s hs hp => ?_⟩
  have heq : x'.guarded ok D.twin s = x' D.twin s := if_pos (hok s hs hp)
  have h := h.run s hs hp
  unfold AgreeAt at h ⊢
  rwa [heq]

/-- Guards make no difference where code has templates. -/
theorem Evaluator.Agrees.guarding [D.Alone] {L : Licence} {E E' : Evaluator}
    (h : Agrees D L E E') (hn : ∀ {p n}, L.node p n → setup.Templated p.unit n)
    (hc : ∀ {p v c s}, L.call p v c → D.inv s → s.position = p → setup.TemplatedCall s v) :
    Agrees D L E E'.guarding := by
  have hnode : ∀ {p : Position} {n : Node} {s : State}, L.node p n → s.position = p →
      D.twin.Templated s.unit n := by
    rintro p n s hl rfl
    rw [Alone.twin (D := D)]
    exact hn hl
  have hcall : ∀ {p : Position} {v : Value} {c : CallSite} {s : State}, L.call p v c → D.inv s →
      s.position = p → D.twin.TemplatedCall s v := by
    intro p v c s hl hs hp
    rw [Alone.twin (D := D)]
    exact hc hl hs hp
  exact ⟨h.opens, fun hs hl => (h.resolve hs hl).guarded fun _ _ => hnode hl,
    fun hs hhow hl => (h.bind hs hhow hl).guarded fun _ _ => hnode hl,
    fun hs hl => (h.walk hs hl).guarded fun _ _ => hnode hl,
    fun hl => (h.invoke hl).guarded fun _ => hcall hl⟩

end

/-! ## Strict analyses -/

/-- The scope of a block is the one that the pass opens there. -/
theorem Script.Node.opens_of_scopeStart? {n : Node} {start : Int}
    (h : n.scopeStart? = some start) : n.hoistStep.opens = some start := by
  unfold scopeStart? at h
  split at h <;> cases h <;> rfl

/-- Code of a program has its templates there, if the analysis is strict. -/
theorem Setup.HasNode.templated {setup : Setup} {u : Nat} {n : Node} (h : setup.HasNode u n)
    (hstrict : setup.options.strict = true) : setup.Templated u n := by
  obtain ⟨prepared, hu, hn⟩ := h
  refine ⟨prepared, hu, hn, fun c start hc hstart => ?_⟩
  have hnode : setup.HasNode u c := HasNode.within ⟨prepared, hu, hn⟩ hc
  exact hnode.find?_isSome hstrict (Node.opens_of_scopeStart? hstart) hu

/-- A failure that is not a fault of the analysis. -/
def Failure.Faultless (f : Failure) : Prop := ∀ fault, f.root ≠ .internal fault

/-- It is no fault of an analysis that it has no program. -/
theorem Failure.faultless_invalidProgram : invalidProgram.Faultless := by
  intro fault h
  cases h

/-- The lack of a program is no fault of the analysis. -/
theorem Failure.faultless_noProgram : noProgram.Faultless := by
  intro fault h
  cases h

/-- Failures with a cause in what is analyzed are no faults of the analysis. -/
theorem Failure.Expected.faultless {setup : Setup} {f : Failure} (h : f.Expected setup) :
    f.Faultless := by
  induction f with
  | inCallbacks path cause ih => exact ih h
  | internal fault => exact h.elim
  | _ => exact fun _ => nofun

/-- Code of the programs runs without faults. -/
def Discipline.faultless {setup : Setup} (hc : setup.Complete) : Discipline setup where
  inv s := setup.programs[s.unit]?.isSome ∧ s.Coded setup
  le := State.Later
  fails := Failure.Faultless
  lost _ := False
  scope stack := 2 ≤ stack.length
  code := setup.HasFunction
  unit u := setup.programs[u]?.isSome
  enters u start := ∀ prepared, setup.programs[u]? = some prepared →
    (prepared.hoisting.find? start).isSome
  refl := State.Later.refl
  trans := State.Later.trans
  position h := h.position
  change {s s'} hs h := by
    have hunit : s'.unit = s.unit := congrArg Position.unit h.position
    refine ⟨⟨?_, hs.2.change h⟩, h.grows, h.reportsUnder, h.position⟩
    rw [hunit]
    exact hs.1
  inUnit hs hu := ⟨⟨hu, hs.2⟩, fun hs' h => ⟨⟨hs.1, hs'.2⟩, h.leave_unit⟩⟩
  closure hs h := hs.2 _ _ h
  push := @Stack.two_le_cons
  framed h := .inl h
  root _ prepared _ := by
    rw [prepared.hoisting_eq]
    exact prepared.program.find?_root_isSome
  opens hu he := .inl (he _ hu)
  hoisted _ hu ht hfn := Setup.hasFunction_of_hoisted hu ht hfn
  runnable h := h.isSome
  external h := hc _ h
  missing {s} hs h := by
    have hunit := hs.1
    rw [h] at hunit
    cases hunit
  expected h := h.faultless
  fails_within {f} path h := by
    rw [Failure.Faultless, Failure.root_within]
    exact h
  lost_within _ h := h

instance {setup : Setup} (hc : setup.Complete) : (Discipline.faultless hc).Alone :=
  ⟨rfl, fun _ _ _ => id, fun _ => id⟩

instance {setup : Setup} (hc : setup.Complete) : (Discipline.faultless hc).Counting :=
  ⟨fun _ hs _ => ⟨hs, fun hs' h => ⟨hs', h.returned⟩⟩⟩

/-- What may be run in a strict analysis asks for what has templates. -/
theorem Licence.lifts_coded {setup : Setup} (hstrict : setup.options.strict = true)
    (hc : setup.Complete) :
    (coded setup).Lifts (coded setup) (Discipline.faultless hc) where
  opens h ho _ hu := h.find?_isSome hstrict ho hu
  part h hmem := covers_coded (h.within (.of_part hmem (.refl _)))
  place _ _ := trivial
  call _ _ := trivial
  site _ := .inr trivial
  function h := h.function
  native _ _ _ _ _ := trivial
  enter _ := fun hcode _ hmem => covers_coded (hcode _ hmem)
  follow {p span callee args} _ h := by
    refine ⟨fun _ _ => Nat.le_refl 2, fun s hs hp => ?_,
      fun _ hprepared hs => covers_coded (Setup.hasNode_stmt hprepared hs), fun _ _ => trivial⟩
    subst hp
    exact ⟨hs, fun {s'} hs' h => ⟨hs', h.leave_anchor⟩⟩

/-- Guards make no difference to a strict analysis. -/
theorem Evaluator.agrees_faultless {setup : Setup} (hstrict : setup.options.strict = true)
    (hc : setup.Complete) (n : Nat) :
    Agrees (Discipline.faultless hc) (Licence.coded setup) (ofFuel n) (guarded n) := by
  induction n with
  | zero =>
    refine ⟨(Licence.lifts_coded hstrict hc).opens, fun _ _ => ?_, fun _ _ _ => ?_, fun _ _ => ?_,
      fun _ => ?_⟩ <;>
      exact .throw fun _ _ _ => nofun
  | succ n ih =>
    refine (ih.step (Licence.lifts_coded hstrict hc)).guarding (fun h => h.templated hstrict) ?_
    rintro p v c s - hs - id fn code rfl hfn hcode n hn
    exact ((hs.2 id fn hfn).2 code hcode n hn).templated hstrict

namespace Setup

variable {setup : Setup}

/-- What an analysis fails with is no fault of its own, if it has a program or says that it has
none. -/
theorem faultless_of_keeps (hc : setup.Complete) {α : Type} {x : Run α} {f : Failure}
    (hnone : setup.programs[0]? = none → ∀ f s, x setup .start = .error f s → f.Faultless)
    (hkeeps : setup.programs[0]?.isSome →
      (Discipline.faultless hc).AgreeAt .start x x fun _ => True)
    (hf : (x.outcome setup).1 = .error f) : f.Faultless := by
  cases hmain : setup.programs[0]? with
  | none =>
    obtain ⟨s, hs⟩ := error_of_outcome hf
    exact hnone hmain f s hs
  | some main => exact (outcome_of_keeps (fun _ => id) (hkeeps (by simp [hmain]))).2 f hf

/-- A strict analysis never finds that the hoisting pass and the evaluation disagree. The pass opens
no scope twice, neither kind of analysis fails for a fault of its own, and what is evaluated always
has its templates in the program that it belongs to. -/
theorem never_faults (hstrict : setup.options.strict = true) (hc : setup.Complete)
    (hd : ∀ (u : Nat) (prepared : Prepared), setup.programs[u]? = some prepared →
      prepared.program.Distinct) :
    (∀ (u : Nat) (prepared : Prepared), setup.programs[u]? = some prepared →
      prepared.hoisting.starts.Nodup) ∧
    (∀ globals f, (setup.analyze globals).1 = .error f → f.Faultless) ∧
    (∀ globals f, (setup.evaluate globals).1 = .error f → f.Faultless) ∧
    ∀ globals frame s, newGlobals globals setup .start = .ok frame s →
      setup.programs[0]?.isSome → ∀ n,
      (Evaluator.guarded n).runProgram 0 [frame] setup s =
        (Evaluator.ofFuel n).runProgram 0 [frame] setup s ∧
      ∀ f s', (Evaluator.ofFuel n).runProgram 0 [frame] setup s = .error f s' → f.Faultless := by
  let D := Discipline.faultless hc
  have hstart : setup.programs[0]?.isSome → D.inv .start := fun hmain =>
    ⟨hmain, State.coded_start setup⟩
  have hrun : setup.programs[0]?.isSome → ∀ frame n, D.Agree ⟨0, 0, []⟩
      ((Evaluator.ofFuel n).runProgram 0 [frame])
      ((Evaluator.guarded n).runProgram 0 [frame]) fun _ => True :=
    fun hmain frame n => (Evaluator.agrees_faultless hstrict hc n).runProgram hmain
      (fun _ => Nat.le_refl 2) fun hprepared hs => hasNode_stmt hprepared hs
  refine ⟨fun u prepared hu => ?_, fun globals f hf => ?_, fun globals f hf => ?_,
    fun globals frame s hs hmain n => ?_⟩
  · rw [prepared.hoisting_eq]
    exact Script.Program.nodup_starts (hd u prepared hu)
  · refine faultless_of_keeps hc (fun hmain e s hs => ?_) (fun hmain => ?_) hf
    · rw [report, hmain] at hs
      cases hs
      exact Failure.faultless_invalidProgram
    · exact keeps_report (hstart hmain) (fun _ => Failure.faultless_invalidProgram)
        fun frame _ _ hmain => (hrun hmain frame _).left
  · refine faultless_of_keeps hc (fun hmain e s hs => ?_) (fun hmain => ?_) hf
    · have hempty : setup.programs.isEmpty := by simpa using hmain
      rw [evaluation, if_pos hempty] at hs
      cases hs
      exact Failure.faultless_noProgram
    · exact keeps_evaluation (hstart hmain) (fun _ => Failure.faultless_noProgram)
        fun frame _ _ hmain => (hrun hmain frame _).left
  · have hglobals := (Agree.newGlobals globals).alone .start (hstart hmain) rfl
    rw [hs] at hglobals
    have h := (hrun hmain frame n).alone s hglobals.2.1 hglobals.2.2.1.position
    cases heq : (Evaluator.ofFuel n).runProgram 0 [frame] setup s with
    | ok a s' =>
      rw [heq] at h
      refine ⟨h.1, fun f t ht => ?_⟩
      cases ht
    | error e s' =>
      rw [heq] at h
      obtain ⟨hsame, _, _, hfails⟩ := h.resolve_left id
      refine ⟨hsame, fun f t ht => ?_⟩
      cases ht
      exact hfails

end Setup

/-- No two scopes of either program stand at the same offset. -/
theorem distinct_writingHandler (u : Nat) (prepared : Prepared)
    (h : writingHandler.programs[u]? = some prepared) : prepared.program.Distinct := by
  match u with
  | 0 =>
    cases h
    exact ⟨by decide +kernel, by decide +kernel⟩
  | 1 =>
    cases h
    exact ⟨by decide +kernel, by decide +kernel⟩
  | _ + 2 => cases h

/-- The body of the registered function is entered in the program it was made in, where its template
is. The analyzed program has no such template. -/
theorem never_faults_writingHandler :
    writingHandler.options.strict = true ∧ writingHandler.Complete ∧
    (∀ (u : Nat) (prepared : Prepared), writingHandler.programs[u]? = some prepared →
      prepared.program.Distinct) ∧
    writingHandler.programs.toList.map (·.hoisting.starts) = [[-1], [-1, 6]] ∧
    (writingHandler.analyze (.container 0)).1.toBool = true ∧
    ∀ globals frame s, newGlobals globals writingHandler .start = .ok frame s → ∀ n,
      (Evaluator.guarded n).runProgram 0 [frame] writingHandler s =
        (Evaluator.ofFuel n).runProgram 0 [frame] writingHandler s := by
  have hc : writingHandler.Complete := Setup.complete_of_only rfl rfl
  have h := Setup.never_faults rfl hc distinct_writingHandler
  exact ⟨rfl, hc, distinct_writingHandler, by decide +kernel, by decide +kernel,
    fun globals frame s hs n => (h.2.2.2 globals frame s hs rfl n).1⟩

end FrozenGlobals
