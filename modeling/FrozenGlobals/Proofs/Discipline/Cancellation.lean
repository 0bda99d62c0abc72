import FrozenGlobals.Proofs.Discipline.Ceilings

/-!
# Canceled analyses

Whether an analysis was canceled is looked at where a block is entered and where a function of a
script is called, before anything else is done there. So a canceled analysis does what a live one
does until it gets to such a place, and fails there.

What gets to such a place is said without looking at what is canceled: `Evaluator.entering` puts
something of its own in place of entering blocks and calling functions, at all levels. An analysis
enters blocks or functions (`Setup.Enters`) if it fails with whatever failure is put there. Nothing
catches failures, and so one that does not come out for every failure that is put there comes out
for none.

Each comparison is that of a live analysis where something is put in these places with another one
(`Discipline.breaking`). Either it gives up with what was put there, or the other analysis was
canceled and fails in the same places.
-/

namespace FrozenGlobals

open Run Discipline
open Script (Expr Pattern Stmt)

/-! ## Entering blocks and functions -/

/-- The value is a function of a script. -/
def Value.isFunction : Value → Bool
  | .function _ => true
  | _ => false

namespace Evaluator

/-- An evaluator that does something else instead of entering blocks and calling functions of
scripts, skipped calls included. -/
def entering (enter : Run Reference → Run Reference) : Nat → Evaluator
  | 0 => ofFuel 0
  | n + 1 =>
      let E := entering enter n
      { resolve := E.resolveStep
        bind := E.bindStep
        walk := fun fold s stack =>
          if s.entersBlocks then enter (E.walkStep fold s stack) else E.walkStep fold s stack
        invoke := fun v c => if v.isFunction then enter (E.invokeStep v c) else E.invokeStep v c }

/-- An evaluator that fails instead of entering blocks and calling functions of scripts. -/
abbrev breakingOff (fault : Failure) (n : Nat) : Evaluator := entering (fun _ => throw fault) n

/-- Nothing else is done. -/
theorem entering_id (n : Nat) : entering id n = ofFuel n := by
  induction n with
  | zero => rfl
  | succ n ih =>
    simp only [entering, id_eq, ite_self, ih]
    rfl

/-- A canceled analysis enters no block. -/
theorem walkStep_canceled {setup : Setup} (hc : setup.canceled = true) (E : Evaluator) (fold : Bool)
    {s : Stmt} (hs : s.entersBlocks = true) (stack : Stack) (t : State) :
    E.walkStep fold s stack setup t = .error .canceled t := by
  have hblock : ∀ b, E.walkBlock fold b stack setup t = .error .canceled t := by
    intro b
    unfold walkBlock
    refine bind_of_error ?_
    rw [checkCanceled_eq, if_pos hc]
  cases s with
  | block b => exact hblock b
  | tryCatch span body handler finalizer => exact bind_of_error (hblock body)
  | _ => cases hs

/-- A canceled analysis calls no function. -/
theorem invokeStep_canceled {setup : Setup} (hc : setup.canceled = true) (E : Evaluator) {v : Value}
    (hv : v.isFunction = true) (c : CallSite) (t : State) :
    E.invokeStep v c setup t = .error .canceled t := by
  cases v with
  | function id =>
    refine bind_of_error ?_
    rw [checkCanceled_eq, if_pos hc]
  | _ => cases hv

end Evaluator

/-! ## A live analysis and another one -/

/-- A live analysis, next to one that is canceled or not, and failures with which the first one may
give up. -/
def Discipline.breaking (setup : Setup) (canceled : Bool) (lost : Failure → Prop)
    (hlost : ∀ {f} (path), lost f → lost (f.within path)) :
    Discipline (setup.canceling false) :=
  { Discipline.growth (setup.canceling false) with
    canceled := canceled
    lost := lost
    lost_within := hlost
    stops_le := fun _ h => h
    parted_le := fun _ h => h }

section
variable {setup : Setup} {canceled : Bool} {lost : Failure → Prop}
  {hlost : ∀ {f} (path), lost f → lost (f.within path)}
    {enter enter' : Run Reference → Run Reference}
  {globals : Host.Datum}

instance : (Discipline.breaking setup canceled lost hlost).Open :=
  { (inferInstance : (Discipline.growth (setup.canceling false)).Open) with }

/-- Evaluators agree if they do where blocks and functions are entered. -/
theorem Evaluator.agrees_entering
    (hwalk : ∀ {p} (E E' : Evaluator) (fold : Bool) {s : Stmt} (stack : Stack),
      s.entersBlocks = true →
      (breaking setup canceled lost hlost).Agree p (enter (E.walkStep fold s stack))
        (enter' (E'.walkStep fold s stack)) fun _ => True)
    (hinvoke : ∀ {p} (E E' : Evaluator) {v : Value} (c : CallSite), v.isFunction = true →
      (breaking setup canceled lost hlost).Agree p (enter (E.invokeStep v c))
        (enter' (E'.invokeStep v c)) fun _ => True) (n : Nat) :
    Agrees (breaking setup canceled lost hlost) .all (entering enter n) (entering enter' n) := by
  induction n with
  | zero =>
    exact ⟨fun _ _ => trivial, fun _ _ => .throw fun _ _ _ => trivial,
      fun _ _ _ => .throw fun _ _ _ => trivial, fun _ _ => .throw fun _ _ _ => trivial,
      fun _ => .throw fun _ _ _ => trivial⟩
  | succ n ih =>
    refine ih.stepBy Licence.lifts_all (fun {p fold s stack} hs hn => ?_) fun {p v c} hv => ?_
    · by_cases h : s.entersBlocks = true
      · rw [if_pos h, if_pos h]
        exact hwalk _ _ fold stack h
      · rw [if_neg h, if_neg h]
        exact ih.walkStep hs fold (Licence.lifts_all.allows hn) (fun _ => trivial)
          fun h' => absurd h' h
    · by_cases h : v.isFunction = true
      · rw [if_pos h, if_pos h]
        exact hinvoke _ _ c h
      · rw [if_neg h, if_neg h]
        exact ih.invokeNative (.inr trivial) (fun _ _ _ _ _ _ => trivial) fun id hid =>
          h (by rw [hid]; rfl)

variable (hlost) (enter enter') (globals) in
/-- What a live analysis ends with where something is put in place of entering blocks and functions,
and what another one ends with. -/
theorem Setup.outcome_entering
    (hwalk : ∀ {p} (E E' : Evaluator) (fold : Bool) {s : Stmt} (stack : Stack),
      s.entersBlocks = true →
      (breaking setup canceled lost hlost).Agree p (enter (E.walkStep fold s stack))
        (enter' (E'.walkStep fold s stack)) fun _ => True)
    (hinvoke : ∀ {p} (E E' : Evaluator) {v : Value} (c : CallSite), v.isFunction = true →
      (breaking setup canceled lost hlost).Agree p (enter (E.invokeStep v c))
        (enter' (E'.invokeStep v c)) fun _ => True) :
    (∃ f, ((setup.reportWith (.entering enter setup.fuel) globals).outcome
        (setup.canceling false)).1 = .error f ∧ lost f) ∨
      (setup.reportWith (.entering enter' setup.fuel) globals).outcome (setup.canceling canceled) =
        (setup.reportWith (.entering enter setup.fuel) globals).outcome
          (setup.canceling false) := by
  have hE := Evaluator.agrees_entering hwalk hinvoke setup.fuel
  have h : (breaking setup canceled lost hlost).AgreeAt .start
      ((setup.canceling false).reportWith (.entering enter setup.fuel) globals)
      ((setup.canceling false).reportWith (.entering enter' setup.fuel) globals) fun _ => True :=
    agreeAt_reportWith trivial (fun _ => trivial) fun frame _ _ _ =>
      hE.runProgram trivial (fun _ => trivial) fun _ _ => trivial
  have hend : ∀ {r : EStateM.Result Failure State Report} {s : State},
      (breaking setup canceled lost hlost).Mirrors r
        (setup.reportWith (.entering enter' setup.fuel) globals
          (setup.canceling canceled) .start) s →
      setup.reportWith (.entering enter' setup.fuel) globals (setup.canceling canceled) .start =
        r := by
    rintro r s (heq | ⟨_, _, _, h⟩ | h)
    · exact heq
    · exact h.elim
    · exact h.elim
  unfold AgreeAt at h
  unfold Run.outcome
  cases hx : setup.reportWith (.entering enter setup.fuel) globals
    (setup.canceling false) .start with
  | ok report s =>
    rw [show (setup.canceling false).reportWith _ globals (setup.canceling false) .start = _
      from hx] at h
    exact .inr (by rw [hend h.1])
  | error f s =>
    rw [show (setup.canceling false).reportWith _ globals (setup.canceling false) .start = _
      from hx] at h
    rcases h with h | h
    · exact .inl ⟨f, rfl, h⟩
    · exact .inr (by rw [hend h.1])

end

/-! ## Analyses -/

namespace Setup

/-- The outcome of a live analysis that fails instead of entering blocks and calling functions. -/
def analyzeBreakingOff (setup : Setup) (fault : Failure) (globals : Host.Datum) :
    Except Failure Report × State :=
  (setup.reportWith (.breakingOff fault setup.fuel) globals).outcome (setup.canceling false)

/-- A live analysis enters a block or calls a function before it ends: it fails with whatever
failure is put there. -/
def Enters (setup : Setup) (globals : Host.Datum) : Prop :=
  ∀ fault : Failure, ∃ f, (setup.analyzeBreakingOff fault globals).1 = .error f ∧
    f.root = fault.root

variable {setup : Setup} {globals : Host.Datum}

/-- A failure that does not come out does not matter: the analysis ends in the same way whatever is
done at blocks and functions, and whether it was canceled or not. -/
theorem eq_of_not_breaking {fault : Failure} (canceled : Bool)
    (enter : Run Reference → Run Reference)
    (h : ¬ ∃ f, (setup.analyzeBreakingOff fault globals).1 = .error f ∧ f.root = fault.root) :
    (setup.reportWith (.entering enter setup.fuel) globals).outcome (setup.canceling canceled) =
      setup.analyzeBreakingOff fault globals := by
  have hlost : ∀ {f : Failure} (path : String), f.root = fault.root →
      (f.within path).root = fault.root :=
    fun path hf => (Failure.root_within _ path).trans hf
  have hgiven : ∀ {p} (x : Run Reference),
      (breaking setup canceled (·.root = fault.root) hlost).Agree p (throw fault) x fun _ => True :=
    fun x => ⟨fun _ _ _ => .inl rfl⟩
  have hends := outcome_entering hlost (fun _ => throw fault) enter globals
    (fun _ _ _ _ _ _ => hgiven _) fun _ _ _ _ _ => hgiven _
  exact hends.resolve_left h

/-- A canceled analysis ends as the live one that fails with the cancellation instead of entering
blocks and calling functions. -/
theorem analyze_canceled_eq (setup : Setup) (globals : Host.Datum) :
    (setup.canceling true).analyze globals = setup.analyzeBreakingOff .canceled globals := by
  have hthrows : ∀ {p} {x : Run Reference}, (∀ s, x (setup.canceling true) s = .error .canceled s) →
      (breaking setup true (fun _ => False) fun _ h => h).Agree p (throw .canceled) x
        fun _ => True := by
    refine fun hx => ⟨fun s _ _ => .inr ⟨.inl (hx s), trivial, .refl s, trivial⟩⟩
  have h := outcome_entering (fun _ h => h) (fun _ => throw .canceled) id globals
    (fun _ E' fold s stack hs => hthrows (E'.walkStep_canceled rfl fold hs stack))
    (fun _ E' v c hv => hthrows (E'.invokeStep_canceled rfl hv c))
  rw [Evaluator.entering_id] at h
  rcases h with ⟨_, _, h⟩ | h
  · exact h.elim
  · exact h

/-- An analysis that was canceled before it began fails with the cancellation if the live one enters
a block or calls a function before it ends, however the call came about and whether or not it is
followed. Otherwise both end in the same way. -/
theorem analyze_canceled (setup : Setup) (globals : Host.Datum) :
    (setup.Enters globals → ∃ f, ((setup.canceling true).analyze globals).1 = .error f ∧
      f.root = .canceled) ∧
    (¬ setup.Enters globals →
      (setup.canceling true).analyze globals = (setup.canceling false).analyze globals) := by
  refine ⟨fun h => ?_, fun h => ?_⟩
  · rw [analyze_canceled_eq]
    exact h .canceled
  · obtain ⟨fault, hfault⟩ := not_forall.1 h
    have hlive := eq_of_not_breaking false id hfault
    have hcanceled := eq_of_not_breaking true id hfault
    rw [Evaluator.entering_id] at hlive hcanceled
    exact hcanceled.trans hlive.symm

/-- Two failures tell whether an analysis enters blocks or functions. -/
theorem enters_of_two {fault fault' f f' : Failure}
    (h : (setup.analyzeBreakingOff fault globals).1 = .error f) (hf : f.root = fault.root)
    (h' : (setup.analyzeBreakingOff fault' globals).1 = .error f') (hf' : f'.root = fault'.root)
    (hne : fault.root ≠ fault'.root) : setup.Enters globals := by
  intro other
  by_contra hother
  have heq : setup.analyzeBreakingOff fault globals = _ := eq_of_not_breaking false _ hother
  have heq' : setup.analyzeBreakingOff fault' globals = _ := eq_of_not_breaking false _ hother
  rw [heq, ← heq', h'] at h
  cases h
  exact hne (hf.symm.trans hf')

end Setup

/-- The program `g.x = 1;`, which has no blocks and calls nothing. -/
def plainWrite : Setup where
  options := Options.standard
  programs := #[.ofProgram ⟨"script", "g.x = 1;", [
    .expression (.assign ⟨0, 7⟩ .plain (.leaf (.dot ⟨0, 3⟩ (.identifier ⟨"g", ⟨0, 1⟩⟩) "x"))
      (.number ⟨6, 7⟩ (some (.ofNat 1))))]⟩]
  graph := emptyGlobal
  resolver := none
  canceled := false

/-- A call that is skipped is enough for the cancellation to come out; a write alone is not. -/
theorem Setup.analyze_canceled_skippedWrite :
    (∃ f, ((skippedWrite.canceling true).analyze (.container 0)).1 = .error f ∧
      f.root = .canceled) ∧
    (skippedWrite.analyze (.container 0)).1.toBool = true ∧
    (plainWrite.canceling true).analyze (.container 0) = plainWrite.analyze (.container 0) := by
  have hskipped : ∀ {fault : Failure}, fault = .canceled ∨ fault = .invalidProgram →
      (skippedWrite.analyzeBreakingOff fault (.container 0)).1 = .error fault := by
    rintro _ (rfl | rfl) <;> decide +kernel
  have henters : skippedWrite.Enters (.container 0) :=
    enters_of_two (hskipped (.inl rfl)) rfl (hskipped (.inr rfl)) rfl (by decide)
  have hplain : ¬ plainWrite.Enters (.container 0) := by
    intro h
    obtain ⟨f, hf, -⟩ := h .canceled
    have hends : (plainWrite.analyzeBreakingOff .canceled (.container 0)).1.toBool = true := by
      decide +kernel
    rw [hf] at hends
    cases hends
  exact ⟨(analyze_canceled skippedWrite _).1 henters, by decide +kernel,
    (analyze_canceled plainWrite _).2 hplain⟩

end FrozenGlobals
