import FrozenGlobals.Proofs.Coupling.Lockstep
import FrozenGlobals.Proofs.Discipline.Growth

/-!
# Reports of matching analyses

What matching analyses report. The levels of recursion that two analyses are given may differ, so
`Setup.analyzeWith` is the report with a given number of levels; once they are enough, more of them
make no difference.
-/

namespace FrozenGlobals

open Run Discipline

/-! ## Levels of recursion -/

/-- Everything may be evaluated everywhere, as long as the levels of recursion last. -/
def Discipline.lasting (setup : Setup) : Discipline setup :=
  { Discipline.growth setup with
    lost := (· = .outOfFuel)
    lost_within := Failure.outOfFuel_within }

instance (setup : Setup) : (Discipline.lasting setup).Alone := ⟨rfl, fun _ _ _ => id, fun _ => id⟩

instance (setup : Setup) : (Discipline.lasting setup).Counting :=
  ⟨(inferInstance : (Discipline.growth setup).Counting).counted⟩

instance (setup : Setup) : (Discipline.lasting setup).Open :=
  { (inferInstance : (Discipline.growth setup).Open) with }

/-- With levels enough, more of them make no difference. -/
theorem Evaluator.agrees_lasting (setup : Setup) {n m : Nat} (h : n ≤ m) :
    Agrees (Discipline.lasting setup) .all (ofFuel n) (ofFuel m) := by
  induction n generalizing m with
  | zero =>
    exact ⟨fun _ _ => trivial, fun _ _ => ⟨fun _ _ _ => .inl rfl⟩,
      fun _ _ _ => ⟨fun _ _ _ => .inl rfl⟩, fun _ _ => ⟨fun _ _ _ => .inl rfl⟩,
      fun _ => ⟨fun _ _ _ => .inl rfl⟩⟩
  | succ n ih =>
    obtain ⟨m, rfl⟩ : ∃ k, m = k + 1 := ⟨m - 1, by omega⟩
    exact (ih (Nat.le_of_succ_le_succ h)).step Licence.lifts_all

/-! ## Globals -/

/-- Globals are converted into what was converted before. -/
theorem Run.newGlobals_eq (root : Host.Datum) (setup : Setup) (s : State) :
    newGlobals root setup s =
      match setup.graph.globals root with
      | .error fault => .error (.invalidGlobals fault) s
      | .ok entries => .ok (Host.Conversion.frame setup.graph s.conversion entries).1
          (s.withConversion (Host.Conversion.frame setup.graph s.conversion entries).2) := by
  unfold newGlobals
  rw [read_bind]
  cases setup.graph.globals root <;> rfl

/-! ## Reports -/

namespace Setup

/-- The outcome of an analysis with a given number of levels. -/
def analyzeWith (setup : Setup) (n : Nat) (globals : Host.Datum) : Except Failure Report :=
  ((setup.reportWith (.ofFuel n) globals).outcome setup).1

theorem analyze_eq (setup : Setup) (globals : Host.Datum) :
    (setup.analyze globals).1 = setup.analyzeWith setup.fuel globals := rfl

/-- An analysis that does not run out of levels does the same with more of them. -/
theorem analyzeWith_of_le {setup : Setup} {n m : Nat} (h : n ≤ m) {globals : Host.Datum}
    (hn : setup.analyzeWith n globals ≠ .error .outOfFuel) :
    setup.analyzeWith m globals = setup.analyzeWith n globals := by
  have hagree : (Discipline.lasting setup).AgreeAt .start (setup.reportWith (.ofFuel n) globals)
      (setup.reportWith (.ofFuel m) globals) fun _ => True :=
    agreeAt_reportWith trivial (fun _ => trivial) fun _ _ _ _ =>
      (Evaluator.agrees_lasting setup h).runProgram trivial (fun _ => trivial) fun _ _ => trivial
  have halone := hagree.alone
  unfold analyzeWith Run.outcome at hn ⊢
  cases hr : setup.reportWith (.ofFuel n) globals setup .start with
  | ok r s =>
    rw [hr] at halone
    rw [halone.1]
  | error f s =>
    rw [hr] at halone hn
    rcases halone with rfl | halone
    · exact absurd rfl hn
    · rw [halone.1]

end Setup

/-- What is reported of a content. -/
def Content.report (c : Content) : Report :=
  ⟨Diagnostic.dedupe c.diagnostics.toList, c.warnings.toList⟩

namespace Matching.Lawful

variable {A B : Setup} {M : Matching A B} (hM : M.Lawful)
include hM

/-- Matching analyses end with the same failure, or report what matching contents hold. -/
theorem ends {n : Nat} {root root' : Host.Datum}
    (hroot : M.coupling.Ends 0 () (fun _ f f' => f' = f) (newGlobals root A .start)
      (newGlobals root' B .start))
    (hclear : ∀ p, A.programs[0]? = some p → M.clear 0 (.program p.program.body)) :
    (∃ f, A.analyzeWith n root = .error f ∧ B.analyzeWith n root' = .error f) ∨
    ∃ c c', M.content c c' ∧ A.analyzeWith n root = .ok c.report ∧
      B.analyzeWith n root' = .ok c'.report := by
  have hE : (Evaluator.ofFuel n).Couples M.coupling (.ofFuel n) :=
    .ofFuel hM.laws (fun _ => trivial) (fun _ => trivial) n
  have hrun : M.coupling.Ends 0 ()
      (fun _ r r' => ∃ c c', M.content c c' ∧ r = c.report ∧ r' = c'.report)
      (A.reportWith (.ofFuel n) root A .start) (B.reportWith (.ofFuel n) root' B .start) := by
    unfold Setup.reportWith
    have hprograms := hM.programs 0
    revert hprograms
    cases hp : A.programs[0]? <;> cases B.programs[0]? <;> intro hprograms <;> cases hprograms
    · exact rfl
    · refine hroot.bind fun w₁ f f' _ hf => (couples_log ..).seq ?_
      subst hf
      refine (hE.runProgram hM.laws fun p heq => ?_).seq (.get fun w₂ _ s t hst => ?_)
      · exact ⟨rfl, hclear p heq⟩
      · exact (couples_log ..).seq (.pure fun _ _ => ⟨s.content, t.content, hst.1, rfl, rfl⟩)
  unfold Setup.analyzeWith Run.outcome
  revert hrun
  cases A.reportWith (.ofFuel n) root A .start <;>
    cases B.reportWith (.ofFuel n) root' B .start <;> intro hrun
  · obtain ⟨_, _, _, _, c, c', hc, rfl, rfl⟩ := hrun
    exact .inr ⟨c, c', hc, rfl, rfl⟩
  · exact hrun.elim
  · exact hrun.elim
  · obtain rfl := (hrun : _ = _)
    exact .inl ⟨_, rfl, rfl⟩

end Matching.Lawful

end FrozenGlobals
