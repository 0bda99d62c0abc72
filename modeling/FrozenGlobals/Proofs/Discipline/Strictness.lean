import FrozenGlobals.Proofs.Discipline.Growth

/-!
# Strict and lenient analyses

An analysis that is not strict warns about each construct that cannot be modelled, and passes over
it. A strict one fails there. Up to there both do the same, step by step, and nothing on the way out
turns the failure into something else. So a strict analysis that ends with a report ends as a
lenient one, and one that fails at a construct names one that the lenient analysis warns about.

Both analyses start from the same state, and the lenient one is followed to its end
(`Discipline.lenient`). Warnings stay once they are given, so what it warned about where the other
one failed is still there.
-/

namespace FrozenGlobals

open Run Discipline

namespace Setup

/-- A failure at a construct that cannot be modelled, which there are warnings about if any are
kept. -/
def Overruled (setup : Setup) (f : Failure) (warnings : Array String) : Prop :=
  ∃ u : Unsupported, f.root = .unsupported u ∧
    (setup.options.warnings = true → u.message ∈ warnings)

variable {setup : Setup}

theorem Overruled.within {f : Failure} {warnings : Array String} (h : setup.Overruled f warnings)
    (path : String) : setup.Overruled (f.within path) warnings := by
  unfold Overruled
  rw [Failure.root_within]
  exact h

/-- Warnings stay. -/
theorem Overruled.grows {f : Failure} {s s' : State} (h : setup.Overruled f s.warnings)
    (hs : s.Grows s') : setup.Overruled f s'.warnings := by
  obtain ⟨u, hu, hmem⟩ := h
  refine ⟨u, hu, fun hw => ?_⟩
  have hmem := Array.mem_toList_iff.2 (hmem hw)
  exact Array.mem_toList_iff.1 (hs.warnings.subset hmem)

/-- A construct is warned about where it is passed over. -/
theorem overruled_of_warn {u : Unsupported} {strict : Bool} {s s' : State}
    (h : warn u.message (setup.treating strict) s = .ok () s') :
    setup.Overruled (.unsupported u) s'.warnings := by
  obtain ⟨entries, heq⟩ := warn_eq (setup.treating strict) u.message s
  cases heq.symm.trans h
  refine ⟨u, rfl, fun hw => ?_⟩
  have hw : (setup.treating strict).options.warnings = true := hw
  dsimp only
  rw [if_pos hw]
  exact Array.mem_push_self

end Setup

/-- A lenient analysis, next to a strict one that may fail where the lenient one warns. -/
def Discipline.lenient (setup : Setup) : Discipline (setup.treating false) :=
  { Discipline.growth (setup.treating false) with
    strict := true
    stops := fun f _ r => setup.Overruled f r.warnings
    stricter := fun _ => rfl
    overruled := fun _ _ _ _ h => Setup.overruled_of_warn h
    stops_le := fun hle h => h.grows hle.grows
    stops_within := fun path h => h.within path }

instance (setup : Setup) : (Discipline.lenient setup).Open :=
  { (inferInstance : (Discipline.growth (setup.treating false)).Open) with }

instance (setup : Setup) : (Discipline.lenient setup).Level where
  canceled := rfl
  ceiling := rfl

instance (setup : Setup) : (Discipline.lenient setup).Counting :=
  ⟨(inferInstance : (Discipline.growth (setup.treating false)).Counting).counted⟩

namespace Setup

variable {setup : Setup}

/-- A report of a lenient analysis, next to one of a strict analysis. -/
theorem agreeAt_report (setup : Setup) (globals : Host.Datum) :
    (Discipline.lenient setup).AgreeAt .start ((setup.treating false).report globals)
      ((setup.treating true).report globals) fun _ => True :=
  keeps_report (D := Discipline.lenient setup) trivial (fun _ => trivial) fun _ _ _ _ =>
    (Evaluator.agrees_all _).runProgram trivial (fun _ => trivial) fun _ _ => trivial

/-- Strict and lenient analyses agree: what a strict one ends with, a lenient one ends with too, and
what a strict one fails at, however deep, a lenient one that ends with a report warns about. -/
theorem lenient_of_strict (setup : Setup) (globals : Host.Datum) :
    (∀ report s, (setup.treating true).analyze globals = (.ok report, s) →
      (setup.treating false).analyze globals = (.ok report, s)) ∧
    ∀ f u report, ((setup.treating true).analyze globals).1 = .error f → f.root = .unsupported u →
      ((setup.treating false).analyze globals).1 = .ok report → setup.options.warnings = true →
      u.message ∈ report.warnings := by
  have h := agreeAt_report setup globals
  unfold Discipline.AgreeAt at h
  unfold analyze Run.outcome
  cases hlenient : (setup.treating false).report globals (setup.treating false) .start with
  | ok report s =>
    rw [hlenient] at h
    rcases h.1 with heq | ⟨f, t, heq, hoverruled⟩ | hparted
    · rw [show (setup.treating true).report globals (setup.treating true) .start = _ from heq]
      exact ⟨fun _ _ h => h, fun _ _ _ => nofun⟩
    · rw [show (setup.treating true).report globals (setup.treating true) .start = _ from heq]
      refine ⟨fun _ _ => nofun, ?_⟩
      rintro _ u _ ⟨⟩ hu ⟨⟩ hwarnings
      obtain ⟨u', hu', hmem⟩ := hoverruled
      cases hu.symm.trans hu'
      rw [eq_of_report hlenient]
      exact Array.mem_toList_iff.2 (hmem hwarnings)
    · exact hparted.elim
  | error f s =>
    rw [hlenient] at h
    obtain ⟨hm, -⟩ := h.resolve_left id
    have hfails : ∃ g t, (setup.treating true).report globals (setup.treating true) .start =
        .error g t := by
      rcases hm with heq | ⟨g, t, heq, -⟩ | hparted
      · exact ⟨f, s, heq⟩
      · exact ⟨g, t, heq⟩
      · exact hparted.elim
    obtain ⟨g, t, hstrict⟩ := hfails
    rw [hstrict]
    exact ⟨fun _ _ => nofun, fun _ _ _ _ _ => nofun⟩

end Setup

/-- The program `g.f();`. The program `([a]) => a;`, whose parameter cannot be modelled, is
registered for `g.f`, and runs against the same globals. -/
def patternHandler : Setup where
  options := { Options.standard with maxCallDepth := 1 }
  programs := #[
    .ofProgram ⟨"script", "g.f();", [.expression (.call ⟨0, 5⟩
      (.dot ⟨0, 3⟩ (.identifier ⟨"g", ⟨0, 1⟩⟩) "f") [])]⟩,
    .ofProgram ⟨"handler", "([a]) => a;", [.expression (.function (.mk ⟨0, 10⟩ true none
      (.mk ⟨0, 5⟩ [.mk (.array ⟨1, 4⟩ [some (.mk (.leaf (.identifier ⟨"a", ⟨2, 3⟩⟩)) none)] none)
        none] none)
      (.expression (.identifier ⟨"a", ⟨9, 10⟩⟩))))]⟩]
  graph := emptyGlobal
  resolver := some (.only [.key "g", .key "f"] 1)
  canceled := false

/-- The strict analysis of `patternHandler` fails at the parameter, inside the registered function,
and the lenient one warns about it. Nothing in `handledCall` is passed over. -/
theorem lenient_of_strict_patternHandler :
    (∃ report s, (handledCall.treating true).analyze (.container 0) = (.ok report, s) ∧
      (handledCall.treating false).analyze (.container 0) = (.ok report, s)) ∧
    ∃ f u report, ((patternHandler.treating true).analyze (.container 0)).1 = .error f ∧
      f.root = .unsupported u ∧ u.span = ⟨1, 4⟩ ∧
      ((patternHandler.treating false).analyze (.container 0)).1 = .ok report ∧
      patternHandler.options.warnings = true ∧ u.message ∈ report.warnings := by
  have hends : ((handledCall.treating true).analyze (.container 0)).1.toBool = true := by
    decide +kernel
  have hpasses : ((patternHandler.treating false).analyze (.container 0)).1.toBool = true := by
    decide +kernel
  have hfails : (match ((patternHandler.treating true).analyze (.container 0)).1 with
      | .ok _ => none
      | .error f => some f) =
      some (.inCallbacks "g.f" (.unsupported ⟨.paramBinding, .pattern, ⟨1, 4⟩⟩)) := by
    decide +kernel
  constructor
  · cases h : (handledCall.treating true).analyze (.container 0) with
    | mk result s =>
      rw [h] at hends
      cases result with
      | ok report => exact ⟨report, s, rfl, (handledCall.lenient_of_strict _).1 report s h⟩
      | error f => cases hends
  · cases hstrict : ((patternHandler.treating true).analyze (.container 0)).1 with
    | ok report =>
      rw [hstrict] at hfails
      cases hfails
    | error f =>
      rw [hstrict] at hfails
      cases hfails
      cases hlenient : ((patternHandler.treating false).analyze (.container 0)).1 with
      | ok report =>
        exact ⟨_, _, report, rfl, rfl, rfl, rfl, rfl,
          (patternHandler.lenient_of_strict _).2 _ _ report hstrict rfl hlenient rfl⟩
      | error g =>
        rw [hlenient] at hpasses
        cases hpasses

end FrozenGlobals
