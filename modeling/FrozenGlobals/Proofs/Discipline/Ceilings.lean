import FrozenGlobals.Proofs.Discipline.Audit

/-!
# The ceiling of nested calls

A call is skipped where calls nest too deep or a function was entered again too often. Until the
first call is skipped, the ceiling makes no difference: an analysis does the same, step by step,
under every higher one. So what it has reported by then is reported under every higher ceiling, too,
and if it skips no call at all, nothing changes (`Setup.analyze_raised`).

What an analysis does until then is what its audited version does that gives up once a call was
skipped (`Evaluator.unskipping`). Both the analysis itself and the one with the higher ceiling are
compared to it (`Discipline.raising`).

From the first skipped call on, a higher ceiling may lose reports. All functions that may be called
are called once, in the order in which they came up, and calls that are followed may change that
order (`reorderedCalls`).
-/

namespace FrozenGlobals

open Run Discipline
open Script (Span)

/-! ## Skipped calls -/

/-- Calls were skipped. -/
def State.Record.Skipped (r : State.Record) : Prop := r.ceilingWarned = true ∨ r.budgetWarned ≠ []

instance : DecidablePred State.Record.Skipped := fun r =>
  inferInstanceAs (Decidable (r.ceilingWarned = true ∨ r.budgetWarned ≠ []))

/-- Runs a step, and gives up if calls were skipped by its end. -/
abbrev Run.unskipping {α : Type} (x : Run α) : Run α :=
  x.audited (fun _ s' => ¬ s'.record.Skipped) .outOfFuel

section
variable {α : Type} {x : Run α} {setup : Setup} {s : State}

/-- A step that skips a call gives up. -/
theorem Run.unskipping_of_skipped (h : (setup.stateAfter x s).record.Skipped) :
    x.unskipping setup s = .error .outOfFuel (setup.stateAfter x s) := by
  unfold Setup.stateAfter at h ⊢
  unfold unskipping audited
  cases hx : x setup s with
  | ok a s' =>
    rw [hx] at h
    exact if_neg (not_not.2 h)
  | error f s' =>
    rw [hx] at h
    exact if_neg (not_not.2 h)

/-- A step that skips no call is not changed. -/
theorem Run.unskipping_of_not_skipped (h : ¬ (setup.stateAfter x s).record.Skipped) :
    x.unskipping setup s = x setup s := by
  unfold Setup.stateAfter at h
  unfold unskipping audited
  cases hx : x setup s with
  | ok a s' =>
    rw [hx] at h
    exact if_pos h
  | error f s' =>
    rw [hx] at h
    exact if_pos h

end

/-- An evaluator that gives up once a call was skipped. -/
abbrev Evaluator.unskipping (n : Nat) : Evaluator := audited (fun _ s' => ¬ s'.record.Skipped) n

/-- The outcome of an analysis that gives up once a call was skipped. -/
def Setup.analyzeUnskipped (setup : Setup) (globals : Host.Datum) : Except Failure Report × State :=
  (setup.reportWith (.unskipping setup.fuel) globals).outcome setup

/-- What a skipped call was skipped for was noted. -/
theorem Skip.mem_budgetWarned (s : State) (fn : Closure) (budget : Nat) :
    fn.key ∈ budgetWarned s (.spent fn budget) := by
  simp only [budgetWarned]
  split
  · next hnoted => exact List.contains_iff_mem.1 hnoted
  · exact List.mem_cons_self

/-- Under a ceiling, a call is followed from the state as it is, or it is skipped and that is
noted. -/
theorem Evaluator.admits_cases {setup : Setup} (h : 0 ≤ setup.options.maxCallDepth) (fn : Closure)
    (site : Site) (s : State) :
    (admits fn site setup s = .ok true s ∧ s.depth < setup.options.maxCallDepth) ∨
    ∃ s', admits fn site setup s = .ok false s' ∧ s'.diagnostics = s.diagnostics ∧
      s'.record.Skipped ∧ (s.depth < setup.options.maxCallDepth → s'.budgetWarned ≠ []) := by
  have hlevels : setup.callLevels = setup.options.maxCallDepth.toNat := if_pos h
  rcases admits_eq setup fn site s with
    ⟨heq, hdepth, -⟩ | ⟨skip, log, hskip, hdue, heq⟩ | ⟨hmax, -⟩
  · exact .inl ⟨heq, by omega⟩
  · refine .inr ⟨_, heq, rfl, ?_⟩
    obtain rfl | ⟨budget, rfl⟩ := hskip
    · exact ⟨.inl rfl, fun hlt => absurd hdue.2 (by omega)⟩
    · have hnoted := List.ne_nil_of_mem (Skip.mem_budgetWarned s fn budget)
      exact ⟨.inr hnoted, fun _ => hnoted⟩
  · omega

/-- A call that is skipped yields nothing. -/
theorem Evaluator.callFunction_skipped {setup : Setup} (hcanceled : setup.canceled = false)
    (E : Evaluator) {id : Nat} {c : CallSite} {fn : Closure} {s t : State}
    (hfn : s.heap.closure? id = some fn) (h : admits fn c.site setup s = .ok false t) :
    E.callFunction id c setup s = .ok .empty t := by
  have hgo : checkCanceled setup s = .ok () s := by
    rw [checkCanceled_eq, hcanceled]
    rfl
  unfold callFunction
  rw [bind_of_ok hgo, get_bind, hfn]
  dsimp only
  rw [bind_of_ok h]
  rfl

/-! ## Two ceilings -/

/-- States grow, and what was noted about skipped calls stays. -/
structure State.Heeds (s s' : State) : Prop where
  later : s.Later s'
  ceiling : s.ceilingWarned = true → s'.ceilingWarned = true
  budget : s.budgetWarned ⊆ s'.budgetWarned

namespace State.Heeds

variable {s s' s'' : State}

/-- A state heeds itself. -/
theorem refl (s : State) : s.Heeds s := ⟨.refl s, id, List.Subset.refl _⟩

/-- Heeding is transitive. -/
theorem trans (h : s.Heeds s') (h' : s'.Heeds s'') : s.Heeds s'' :=
  ⟨h.later.trans h'.later, h'.ceiling ∘ h.ceiling, List.Subset.trans h.budget h'.budget⟩

/-- What was found to be spent stays spent. -/
theorem exhausted (h : s.Heeds s') (hs : s.budgetWarned ≠ []) : s'.budgetWarned ≠ [] := by
  obtain ⟨key, hkey⟩ := List.exists_mem_of_ne_nil _ hs
  exact List.ne_nil_of_mem (h.budget hkey)

/-- What was skipped stays skipped. -/
theorem skipped (h : s.Heeds s') (hs : s.record.Skipped) : s'.record.Skipped :=
  hs.imp h.ceiling h.exhausted

end State.Heeds

/-- Every single change heeds what was noted about skipped calls. -/
theorem State.Change.heeds {setup : Setup} {scope : Stack → Prop}
    {code : Nat → Script.Function → Prop} {place : Nat → Span → Prop} {s s' : State}
    (h : Change setup scope code place s s') : s.Heeds s' := by
  have hlater : s.Later s' := ⟨h.grows, h.reportsUnder, h.position⟩
  cases h with
  | @skip skip _ => exact ⟨hlater, skip.ceilingWarned_of, skip.subset_budgetWarned⟩
  | _ => exact ⟨hlater, id, List.Subset.refl _⟩

/-- Everything may be evaluated everywhere, as long as the levels of recursion last, and what is
noted about skipped calls stays. -/
def Discipline.heeding (setup : Setup) : Discipline setup :=
  { Discipline.growth setup with
    le := State.Heeds
    lost := (· = .outOfFuel)
    refl := State.Heeds.refl
    trans := State.Heeds.trans
    position := fun h => h.later.position
    change := fun _ h => ⟨trivial, h.heeds⟩
    inUnit := fun _ _ => ⟨trivial, fun _ h => ⟨trivial, h.later.leave_unit, h.ceiling, h.budget⟩⟩
    lost_within := Failure.outOfFuel_within
    stops_le := fun _ h => h
    parted_le := fun _ h => h }

instance (setup : Setup) : (Discipline.heeding setup).Alone := ⟨rfl, fun _ _ _ => id, fun _ => id⟩

instance (setup : Setup) : (Discipline.heeding setup).Counting :=
  ⟨fun _ _ _ => ⟨trivial, fun _ h => ⟨trivial, h.later.returned, h.ceiling, h.budget⟩⟩⟩

instance (setup : Setup) : (Discipline.heeding setup).Open where
  scope _ := trivial
  code _ _ := trivial
  place _ _ := trivial
  enters _ _ := trivial
  fails _ := trivial
  anchored _ _ :=
    ⟨trivial, fun _ h => ⟨trivial, h.later.leave_anchor, h.ceiling, h.budget⟩⟩

/-- An analysis, next to one with another ceiling that gives up once it skipped a call. Where that
one gave up, the first one goes on; if they are alike, both have skipped the call. They part where
only the first one finds that a function was entered again too often. -/
def Discipline.raising (setup : Setup) (ceiling : Int) (alike : Prop) : Discipline setup :=
  { Discipline.heeding setup with
    ceiling := ceiling
    stops := fun f r r' => f = .outOfFuel ∧ r.diagnostics.toList <+: r'.diagnostics.toList ∧
      (alike → r.Skipped ∧ r'.Skipped)
    parted := fun r => ¬ alike ∧ r.budgetWarned ≠ []
    overruled := fun h => absurd rfl h
    stops_le := fun hle h =>
      ⟨h.1, h.2.1.trans hle.later.grows.diagnostics, fun ha => (h.2.2 ha).imp_right hle.skipped⟩
    stops_within := fun path h => ⟨Failure.outOfFuel_within path h.1, h.2⟩
    parted_le := fun hle h => ⟨h.1, hle.exhausted h.2⟩ }

instance (setup : Setup) (ceiling : Int) (alike : Prop) :
    (Discipline.raising setup ceiling alike).Counting :=
  ⟨(inferInstance : (Discipline.heeding setup).Counting).counted⟩

instance (setup : Setup) (ceiling : Int) (alike : Prop) :
    (Discipline.raising setup ceiling alike).Open :=
  { (inferInstance : (Discipline.heeding setup).Open) with }

instance (setup : Setup) (ceiling : Int) (alike : Prop) :
    (Discipline.raising setup ceiling alike).Abreast := ⟨rfl⟩

section
variable {setup : Setup} {ceiling : Int} {alike : Prop} {α : Type} {x x' : Run α} {Q : α → Prop}
  {s : State} {p : Position}

namespace Discipline

/-- Giving up where a call was skipped does not matter to the first of two computations. -/
theorem Mirrors.unskipping (h : (raising setup ceiling alike).Mirrors (x setup s)
      (x' (raising setup ceiling alike).twin s) (setup.stateAfter x s)) :
    (raising setup ceiling alike).Mirrors (x setup s)
      (x'.unskipping (raising setup ceiling alike).twin s) (setup.stateAfter x s) := by
  rcases h with heq | ⟨g, t, heq, rfl, hlead⟩ | hparted
  · have hafter : (raising setup ceiling alike).twin.stateAfter x' s = setup.stateAfter x s := by
      unfold Setup.stateAfter
      rw [heq]
    by_cases hskip : (setup.stateAfter x s).record.Skipped
    · rw [Run.unskipping_of_skipped (hafter ▸ hskip), hafter]
      exact .inr (.inl ⟨_, _, rfl, rfl, List.prefix_refl _, fun _ => ⟨hskip, hskip⟩⟩)
    · rw [Run.unskipping_of_not_skipped (hafter ▸ hskip)]
      exact .inl heq
  · have hafter : (raising setup ceiling alike).twin.stateAfter x' s = t := by
      unfold Setup.stateAfter
      rw [heq]
    refine .inr (.inl ⟨_, t, ?_, rfl, hlead⟩)
    by_cases hskip : t.record.Skipped
    · rw [Run.unskipping_of_skipped (hafter ▸ hskip), hafter]
    · rw [Run.unskipping_of_not_skipped (hafter ▸ hskip), heq]
  · exact .inr (.inr hparted)

/-- Agreement at a state lasts if the second computation gives up where it skips a call. -/
theorem AgreeAt.unskipping (h : (raising setup ceiling alike).AgreeAt s x x' Q) :
    (raising setup ceiling alike).AgreeAt s x x'.unskipping Q := by
  have hmirrors : (raising setup ceiling alike).Mirrors (x setup s)
        (x' (raising setup ceiling alike).twin s) (setup.stateAfter x s) →
      (raising setup ceiling alike).Mirrors (x setup s)
        (x'.unskipping (raising setup ceiling alike).twin s) (setup.stateAfter x s) :=
    Mirrors.unskipping
  unfold AgreeAt at h ⊢
  unfold Setup.stateAfter at hmirrors
  cases hxs : x setup s with
  | ok a u =>
    rw [hxs] at h hmirrors
    exact ⟨hmirrors h.1, h.2⟩
  | error f u =>
    rw [hxs] at h hmirrors
    exact h.imp_right fun h => ⟨hmirrors h.1, h.2⟩

/-- Agreement lasts if the second computation gives up where it skips a call. -/
theorem Agree.unskipping (h : (raising setup ceiling alike).Agree p x x' Q) :
    (raising setup ceiling alike).Agree p x x'.unskipping Q :=
  ⟨fun s hs hp => (h.run s hs hp).unskipping⟩

/-- Where the second of two computations gave up, the first one may do what it likes. If they are
alike, it is to give up or to skip a call. -/
theorem AgreeAt.stopped {t : State} (hx : (heeding setup).AgreeAt s x x Q)
    (hx' : x' (raising setup ceiling alike).twin s = .error .outOfFuel t)
    (ht : t.diagnostics = s.diagnostics)
    (halike : alike → (∃ u, x setup s = .error .outOfFuel u) ∨
      t.record.Skipped ∧ (setup.stateAfter x s).record.Skipped) :
    (raising setup ceiling alike).AgreeAt s x x' Q := by
  have hlead : ∀ {u : State}, s.Heeds u →
      t.record.diagnostics.toList <+: u.record.diagnostics.toList := fun {u} hle => by
    have := hle.later.grows.diagnostics
    rwa [← ht] at this
  unfold AgreeAt at hx ⊢
  unfold Setup.stateAfter at halike
  rw [hx']
  cases hxs : x setup s with
  | ok a u =>
    rw [hxs] at hx halike
    have hskip : alike → t.record.Skipped ∧ u.record.Skipped := fun ha =>
      (halike ha).resolve_left (by simp)
    exact ⟨.inr (.inl ⟨_, t, rfl, rfl, hlead hx.2.2.1, hskip⟩), hx.2⟩
  | error f u =>
    rw [hxs] at hx halike
    by_cases hf : f = .outOfFuel
    · exact .inl hf
    · obtain ⟨-, hinv, hle, hfails⟩ := hx.resolve_left hf
      have hskip : alike → t.record.Skipped ∧ u.record.Skipped := fun ha =>
        (halike ha).resolve_left (by simpa using hf)
      exact .inr ⟨.inr (.inl ⟨_, t, rfl, rfl, hlead hle, hskip⟩), hinv, hle, hfails⟩

/-- A computation next to one that has no levels of recursion left. -/
theorem Agree.exhausted (hx : (heeding setup).Agree p x x Q)
    (hx' : ∀ setup s, x' setup s = .error .outOfFuel s) (halike : alike → x = x') :
    (raising setup ceiling alike).Agree p x x' Q := by
  refine ⟨fun s _ hp => (hx.run s trivial hp).stopped (hx' _ s) rfl fun ha => .inl ⟨s, ?_⟩⟩
  rw [halike ha]
  exact hx' setup s

end Discipline

/-- Computations with the same ceiling belong to one analysis. -/
theorem Discipline.twin_of_alike (heq : alike → ceiling = setup.options.maxCallDepth)
    (halike : alike) : (raising setup ceiling alike).twin = setup := by
  show setup.varied (setup.options.strict, ceiling, setup.canceled) = setup
  rw [heq halike]
  rfl

/-- A call that the second of two computations follows, the first one follows, too, or they part. -/
theorem Evaluator.Agrees.admits_followed (hle : ceiling ≤ setup.options.maxCallDepth)
    (h0 : 0 ≤ ceiling) (heq : alike → ceiling = setup.options.maxCallDepth) {fn : Closure}
    {site : Site}
    (h : Evaluator.admits fn site (raising setup ceiling alike).twin s = .ok true s)
    (hdepth : s.depth < ceiling) :
    (raising setup ceiling alike).AgreeAt s (Evaluator.admits fn site) (Evaluator.admits fn site)
      fun _ => True := by
  have hkeep : (heeding setup).AgreeAt s (Evaluator.admits fn site) (Evaluator.admits fn site)
      fun _ => True := (admits fn site).run s trivial rfl
  unfold AgreeAt at hkeep ⊢
  have hmax : 0 ≤ setup.options.maxCallDepth := h0.trans hle
  rcases Evaluator.admits_cases hmax fn site s with
    ⟨hfollowed, -⟩ | ⟨t, hskipped, -, -, hbudget⟩
  · rw [hfollowed] at hkeep ⊢
    exact ⟨.inl h, hkeep.2⟩
  · rw [hskipped] at hkeep ⊢
    refine ⟨.inr (.inr ⟨fun ha => ?_, hbudget (by omega)⟩), hkeep.2⟩
    rw [twin_of_alike heq ha, hskipped] at h
    cases h

/-- A call that the second of two computations skips ends there. -/
theorem Evaluator.Agrees.callFunction_unskipping {E E' : Evaluator}
    (hE : Agrees (raising setup ceiling alike) .all E E') (hkeeps : Agrees (heeding setup) .all E E)
    (hle : ceiling ≤ setup.options.maxCallDepth) (h0 : 0 ≤ ceiling)
    (heq : alike → ceiling = setup.options.maxCallDepth) (id : Nat) (c : CallSite) :
    (raising setup ceiling alike).Agree p (E.callFunction id c)
      (E'.callFunction id c).unskipping fun _ => True := by
  refine ⟨fun s hs hp => ?_⟩
  by_cases hskips : setup.canceled = false ∧ ∃ fn t, s.heap.closure? id = some fn ∧
      Evaluator.admits fn c.site (raising setup ceiling alike).twin s = .ok false t ∧
      t.diagnostics = s.diagnostics ∧ t.record.Skipped
  · obtain ⟨hcanceled, fn, t, hfn, hadmits, ht, hskip⟩ := hskips
    have hkeep := (hkeeps.callFunction (fun _ _ _ => fun _ _ => trivial) id c).run s trivial hp
    have hcanceled' : (raising setup ceiling alike).twin.canceled = false := hcanceled
    have hcall := callFunction_skipped hcanceled' E' hfn hadmits
    have hafter : (raising setup ceiling alike).twin.stateAfter (E'.callFunction id c) s = t := by
      unfold Setup.stateAfter
      rw [hcall]
    have hstop := Run.unskipping_of_skipped (hafter ▸ hskip)
    rw [hafter] at hstop
    refine .stopped hkeep hstop ht fun ha => .inr ⟨hskip, ?_⟩
    rw [twin_of_alike heq ha] at hadmits
    unfold Setup.stateAfter
    rw [callFunction_skipped hcanceled E hfn hadmits]
    exact hskip
  · refine (hE.callFunctionAt (fun _ _ _ => fun _ _ => trivial) id c hs hp
      fun hcanceled fn hfn => ?_).unskipping
    have hmax : 0 ≤ (raising setup ceiling alike).twin.options.maxCallDepth := h0
    rcases Evaluator.admits_cases hmax fn c.site s with
      ⟨hfollowed, hdepth⟩ | ⟨t, hskipped, ht, hskip, -⟩
    · exact admits_followed hle h0 heq hfollowed hdepth
    · exact absurd ⟨hcanceled, fn, t, hfn, hskipped, ht, hskip⟩ hskips

/-- An evaluator goes on where one gave up that has a lower ceiling, fewer levels and skips no
call. -/
theorem Evaluator.agrees_raising (hle : ceiling ≤ setup.options.maxCallDepth) (h0 : 0 ≤ ceiling)
    (heq : alike → ceiling = setup.options.maxCallDepth) {n m : Nat} (hnm : n ≤ m)
    (hlevels : alike → n = m) :
    Agrees (raising setup ceiling alike) .all (ofFuel m) (unskipping n) := by
  -- by induction on the levels of the second evaluator, which runs out of them first
  induction n generalizing m with
  | zero =>
    have hkeeps : Agrees (heeding setup) .all (ofFuel m) (ofFuel m) := agrees_all m
    have hsame : alike → ofFuel m = ofFuel 0 := fun ha => by rw [← hlevels ha]
    exact {
      opens := fun _ _ => trivial
      resolve := fun hs hn => (hkeeps.resolve hs hn).exhausted (fun _ _ => rfl) fun ha => by
        rw [hsame ha]
        rfl
      bind := fun hs hhow hn => (hkeeps.bind hs hhow hn).exhausted (fun _ _ => rfl) fun ha => by
        rw [hsame ha]
        rfl
      walk := fun hs hn => (hkeeps.walk hs hn).exhausted (fun _ _ => rfl) fun ha => by
        rw [hsame ha]
        rfl
      invoke := fun hn => (hkeeps.invoke hn).exhausted (fun _ _ => rfl) fun ha => by
        rw [hsame ha]
        rfl }
  | succ n ih =>
    obtain ⟨m, rfl⟩ : ∃ k, m = k + 1 := ⟨m - 1, by omega⟩
    have hE := ih (Nat.le_of_succ_le_succ hnm) fun ha => Nat.succ.inj (hlevels ha)
    have hstep : Agrees (raising setup ceiling alike) .all
        ⟨(ofFuel m).resolveStep, (ofFuel m).bindStep, (ofFuel m).walkStep, (ofFuel m).invokeStep⟩
        ⟨(unskipping n).resolveStep, (unskipping n).bindStep, (unskipping n).walkStep, fun v c =>
          ((unskipping n).invokeStep v c).unskipping⟩ := by
      refine hE.stepWith Licence.lifts_all fun {p v c} _ => ?_
      -- only functions of scripts are skipped; all else is called whatever the ceiling
      by_cases hv : ∃ id, v = .function id
      · obtain ⟨id, rfl⟩ := hv
        exact hE.callFunction_unskipping (agrees_all m) hle h0 heq id c
      · have hnative := hE.invokeNative (v := v) (c := c) (p := p) (.inr trivial)
          (fun _ _ _ _ _ _ => trivial) fun id hid => hv ⟨id, hid⟩
        exact hnative.unskipping
    exact {
      opens := hstep.opens
      resolve := fun hs hn => (hstep.resolve hs hn).unskipping
      bind := fun hs hhow hn => (hstep.bind hs hhow hn).unskipping
      walk := fun hs hn => (hstep.walk hs hn).unskipping
      invoke := hstep.invoke }

end

/-! ## Analyses -/

namespace Setup

variable {setup : Setup}

/-- A higher ceiling means at least as many levels. -/
theorem fuel_le_of_callLevels {setup' : Setup} (hp : setup'.programs = setup.programs)
    (hr : setup'.resolver = setup.resolver) (h : setup.callLevels ≤ setup'.callLevels) :
    setup.fuel ≤ setup'.fuel := by
  unfold fuel height callbackLevels
  rw [hp, hr]
  refine Nat.mul_le_mul_right _ ?_
  split <;> omega

/-- An analysis under a ceiling, and the same one until it skips a call. -/
theorem agreeAt_unskipped {ceiling : Int} (globals : Host.Datum) (h0 : 0 ≤ ceiling)
    (hle : ceiling ≤ setup.options.maxCallDepth) {alike : Prop} {n : Nat} (hn : n ≤ setup.fuel)
    (halike : alike → ceiling = setup.options.maxCallDepth ∧ n = setup.fuel) :
    (raising setup ceiling alike).AgreeAt .start (setup.report globals)
      (setup.reportWith (.unskipping n) globals) fun _ => True := by
  have hE := Evaluator.agrees_raising hle h0 (fun ha => (halike ha).1) hn fun ha => (halike ha).2
  refine agreeAt_reportWith trivial (fun _ => trivial) fun frame _ _ _ => ?_
  exact hE.runProgram trivial (fun _ => trivial) fun _ _ => trivial

/-- Until it skips a call, an analysis does what one with fewer levels and a lower ceiling does. -/
theorem unskipped_of_analyze {globals : Host.Datum} {report : Report} {s : State} {ceiling : Int}
    (h : setup.analyze globals = (.ok report, s)) (h0 : 0 ≤ ceiling)
    (hle : ceiling ≤ setup.options.maxCallDepth) {alike : Prop} {n : Nat} (hn : n ≤ setup.fuel)
    (halike : alike → ceiling = setup.options.maxCallDepth ∧ n = setup.fuel)
    (hbudget : ¬ alike → s.budgetWarned = []) :
    (setup.reportWith (.unskipping n) globals).outcome (setup.limited ceiling) = (.ok report, s) ∨
    ∃ t, (setup.reportWith (.unskipping n) globals).outcome (setup.limited ceiling) =
        (.error .outOfFuel, t) ∧
      t.diagnostics.toList <+: s.diagnostics.toList ∧
      (alike → t.record.Skipped ∧ s.record.Skipped) := by
  have hagree := agreeAt_unskipped globals h0 hle hn halike
  have hrun : setup.report globals setup .start = .ok report s := by
    unfold analyze Run.outcome at h
    split at h
    · cases h
      assumption
    · cases h
  unfold AgreeAt at hagree
  rw [hrun] at hagree
  unfold Run.outcome
  rcases hagree.1 with heq | ⟨f, t, heq, rfl, hstops⟩ | ⟨hne, hspent⟩
  · left
    rw [show setup.limited ceiling = (raising setup ceiling alike).twin from rfl, heq]
  · right
    refine ⟨t, ?_, hstops⟩
    rw [show setup.limited ceiling = (raising setup ceiling alike).twin from rfl, heq]
  · exact absurd (hbudget hne) hspent

/-- Raising the ceiling of nested calls does not lose what an analysis records before it skips a
call, if no function is entered again too often under the higher one. If it skips no call, all of it
is recorded before, and raising the ceiling changes nothing. -/
theorem analyze_raised {globals : Host.Datum} {ceiling : Int} {report report' : Report}
    {s s' : State} (h0 : 0 ≤ setup.options.maxCallDepth)
    (hle : setup.options.maxCallDepth ≤ ceiling)
    (h : setup.analyze globals = (.ok report, s))
    (h' : (setup.limited ceiling).analyze globals = (.ok report', s'))
    (hbudget : s'.budgetWarned = []) :
    (setup.analyzeUnskipped globals).2.diagnostics.toList <+: s.diagnostics.toList ∧
    (setup.analyzeUnskipped globals).2.diagnostics.toList <+: s'.diagnostics.toList ∧
    ((setup.analyzeUnskipped globals).2.record.Skipped ∧ s.record.Skipped ∨
      report' = report ∧ s' = s) := by
  have hlevels : setup.callLevels ≤ (setup.limited ceiling).callLevels := by
    unfold callLevels
    rw [if_pos h0, if_pos (show 0 ≤ (setup.limited ceiling).options.maxCallDepth from h0.trans hle)]
    exact Int.toNat_le_toNat hle
  have hlow : setup.analyzeUnskipped globals = (.ok report, s) ∨
      ∃ t, setup.analyzeUnskipped globals = (.error .outOfFuel, t) ∧
        t.diagnostics.toList <+: s.diagnostics.toList ∧
        (True → t.record.Skipped ∧ s.record.Skipped) :=
    unskipped_of_analyze h h0 le_rfl le_rfl (fun _ => ⟨rfl, rfl⟩) (absurd trivial)
  have hhigh : setup.analyzeUnskipped globals = (.ok report', s') ∨
      ∃ t, setup.analyzeUnskipped globals = (.error .outOfFuel, t) ∧
        t.diagnostics.toList <+: s'.diagnostics.toList ∧
        (False → t.record.Skipped ∧ s'.record.Skipped) :=
    unskipped_of_analyze h' h0 hle (fuel_le_of_callLevels rfl rfl hlevels) False.elim
      fun _ => hbudget
  rcases hlow with hlow | ⟨t, hlow, hlead, hskip⟩ <;>
    rcases hhigh with hhigh | ⟨t', hhigh, hlead', -⟩ <;> rw [hlow] at hhigh ⊢ <;> cases hhigh
  · exact ⟨List.prefix_refl _, List.prefix_refl _, .inr ⟨rfl, rfl⟩⟩
  · exact ⟨hlead, hlead', .inl (hskip trivial)⟩

/-- An analysis that succeeds ends with a report. -/
theorem exists_of_toBool (setup : Setup) {globals : Host.Datum}
    (h : (setup.analyze globals).1.toBool = true) :
    ∃ report, setup.analyze globals = (.ok report, (setup.analyze globals).2) := by
  cases hr : (setup.analyze globals).1 with
  | ok report => exact ⟨report, Prod.ext hr rfl⟩
  | error f =>
    rw [hr] at h
    cases h

end Setup

/-- The program `g.x = 1; (() => g.y = 1)();`, whose call is skipped. -/
def skippedWrite : Setup where
  options := { Options.standard with maxCallDepth := 0 }
  programs := #[.ofProgram ⟨"script", "g.x = 1; (() => g.y = 1)();", [
    .expression (.assign ⟨0, 7⟩ .plain (.leaf (.dot ⟨0, 3⟩ (.identifier ⟨"g", ⟨0, 1⟩⟩) "x"))
      (.number ⟨6, 7⟩ (some (.ofNat 1)))),
    .expression (.call ⟨10, 26⟩ (.function (.mk ⟨10, 23⟩ true none (.mk ⟨10, 12⟩ [] none)
      (.expression (.assign ⟨16, 23⟩ .plain
        (.leaf (.dot ⟨16, 19⟩ (.identifier ⟨"g", ⟨16, 17⟩⟩) "y"))
        (.number ⟨22, 23⟩ (some (.ofNat 1))))))) [])]⟩]
  graph := emptyGlobal
  resolver := none
  canceled := false

/-- The write in front of the skipped call is reported whatever the ceiling. -/
theorem Setup.analyze_raised_skippedWrite : ∃ report report' s s',
    skippedWrite.analyze (.container 0) = (.ok report, s) ∧
    (skippedWrite.limited 1).analyze (.container 0) = (.ok report', s') ∧
    s'.budgetWarned = [] ∧
    (skippedWrite.analyzeUnskipped (.container 0)).2.diagnostics.toList.map (·.span) = [⟨0, 7⟩] ∧
    (skippedWrite.analyzeUnskipped (.container 0)).2.diagnostics.toList <+: s'.diagnostics.toList ∧
    s'.diagnostics.toList.map (·.span) = [⟨0, 7⟩, ⟨16, 23⟩] := by
  have hends : (skippedWrite.analyze (.container 0)).1.toBool = true := by decide +kernel
  have hends' : ((skippedWrite.limited 1).analyze (.container 0)).1.toBool = true := by
    decide +kernel
  obtain ⟨report, h⟩ := skippedWrite.exists_of_toBool hends
  obtain ⟨report', h'⟩ := (skippedWrite.limited 1).exists_of_toBool hends'
  have hbudget : ((skippedWrite.limited 1).analyze (.container 0)).2.budgetWarned = [] := by
    decide +kernel
  exact ⟨report, report', _, _, h, h', hbudget, by decide +kernel,
    (analyze_raised (by decide) (by decide) h h' hbudget).2.1, by decide +kernel⟩

/-- The program
`const s = {}, x = {}, f = () => x.p = g, h = () => x.p.q = 1; (() => (() => s.m = h)())();
for (s.m of [f, h]) s.m();`, where `h` writes to the global that `f` has stored. -/
def reorderedCalls : Setup where
  options := { Options.standard with maxCallDepth := 1 }
  programs := #[.ofProgram ⟨"script",
    "const s = \x7b\x7d, x = \x7b\x7d, f = () => x.p = g, h = () => x.p.q = 1; "
      ++ "(() => (() => s.m = h)())(); for (s.m of [f, h]) s.m();", [
    .declareLexical ⟨0, 60⟩ [
      .mk (.leaf (.identifier ⟨"s", ⟨6, 7⟩⟩)) (some (.object ⟨10, 12⟩ [])),
      .mk (.leaf (.identifier ⟨"x", ⟨14, 15⟩⟩)) (some (.object ⟨18, 20⟩ [])),
      .mk (.leaf (.identifier ⟨"f", ⟨22, 23⟩⟩)) (some (.function (.mk ⟨26, 39⟩ true none
        (.mk ⟨26, 28⟩ [] none) (.expression (.assign ⟨32, 39⟩ .plain
          (.leaf (.dot ⟨32, 35⟩ (.identifier ⟨"x", ⟨32, 33⟩⟩) "p"))
          (.identifier ⟨"g", ⟨38, 39⟩⟩)))))),
      .mk (.leaf (.identifier ⟨"h", ⟨41, 42⟩⟩)) (some (.function (.mk ⟨45, 60⟩ true none
        (.mk ⟨45, 47⟩ [] none) (.expression (.assign ⟨51, 60⟩ .plain
          (.leaf (.dot ⟨51, 56⟩ (.dot ⟨51, 54⟩ (.identifier ⟨"x", ⟨51, 52⟩⟩) "p") "q"))
          (.number ⟨59, 60⟩ (some (.ofNat 1))))))))],
    .expression (.call ⟨63, 89⟩ (.function (.mk ⟨63, 86⟩ true none (.mk ⟨63, 65⟩ [] none)
      (.expression (.call ⟨70, 86⟩ (.function (.mk ⟨70, 83⟩ true none (.mk ⟨70, 72⟩ [] none)
        (.expression (.assign ⟨76, 83⟩ .plain
          (.leaf (.dot ⟨76, 79⟩ (.identifier ⟨"s", ⟨76, 77⟩⟩) "m"))
          (.identifier ⟨"h", ⟨82, 83⟩⟩))))) [])))) []),
    .forEach ⟨91, 116⟩ .forOf (.assign (.leaf (.dot ⟨96, 99⟩ (.identifier ⟨"s", ⟨96, 97⟩⟩) "m")))
      (.array ⟨103, 109⟩ [some (.identifier ⟨"f", ⟨104, 105⟩⟩),
        some (.identifier ⟨"h", ⟨107, 108⟩⟩)])
      (.expression (.call ⟨111, 116⟩
        (.dot ⟨111, 114⟩ (.identifier ⟨"s", ⟨111, 112⟩⟩) "m") []))]⟩]
  graph := emptyGlobal
  resolver := none
  canceled := false

/-- Calls nest once: `f` is called before `h`, and the write in `h` is reported. Calls nest twice:
`h` came up first and is called before `f`, and nothing is reported. -/
theorem reorderedCalls_unreported :
    (reorderedCalls.analyze (.container 0)).1.toBool = true ∧
    (reorderedCalls.analyze (.container 0)).2.diagnostics.toList.map (·.span) = [⟨51, 60⟩] ∧
    ((reorderedCalls.limited 2).analyze (.container 0)).1.toBool = true ∧
    ((reorderedCalls.limited 2).analyze (.container 0)).2.budgetWarned = [] ∧
    ((reorderedCalls.limited 2).analyze (.container 0)).2.diagnostics = #[] := by
  decide +kernel

end FrozenGlobals
