import FrozenGlobals.Proofs.Chaining.Statements

/-!
# Optional chaining is transparent

Two trees that become the same without marks are evaluated alike: to the same possibilities, with
the same reports, warnings and log, in the same order (`Setup.analyze_alike`). That covers the marks
in what is read, called and constructed, in the objects of what is written to or deleted, and
wherever else expressions are evaluated.

The marks directly around an operand of `delete` stay (`Place.reads`), and they have to: the operand
is then no member but an expression with a value, and the deletion is not reported.
-/

namespace FrozenGlobals

open Script (Expr Program Place)

/-! ## Outcomes -/

namespace Setup

/-- Two outcomes differ in marks only, unless one of them ran out of levels. -/
def EndsAlike {α : Type} :
    EStateM.Result Failure State α → EStateM.Result Failure State α → Prop
  | .ok a s, .ok b t => b = a ∧ t.unchained = s.unchained
  | .error e s, .error f t => e = .outOfFuel ∨ f = .outOfFuel ∨ f = e ∧ t.unchained = s.unchained
  | .error e _, .ok _ _ => e = .outOfFuel
  | .ok _ _, .error f _ => f = .outOfFuel

/-- Outcomes that become the same without marks are alike. -/
theorem EndsUnchained.alike {α : Type} {r r' q : EStateM.Result Failure State α}
    (h : EndsUnchained r q) (h' : EndsUnchained r' q) : EndsAlike r r' := by
  cases r with
  | ok a s =>
    obtain rfl : q = .ok a s.unchained := h
    cases r' with
    | ok b t =>
      injection h' with hab hst
      exact ⟨hab.symm, hst.symm⟩
    | error f t => exact h'.resolve_right nofun
  | error e s =>
    rcases h with rfl | rfl
    · cases r' with
      | ok b t => rfl
      | error f t => exact .inl rfl
    · cases r' with
      | ok b t => cases h'
      | error f t =>
        refine .inr (h'.imp_right fun h' => ?_)
        injection h' with hef hst
        exact ⟨hef.symm, hst.symm⟩

/-- An outcome with enough levels is the one with more of them. -/
theorem EndsAlike.of_outlasts {α : Type} {A B : Setup} {x x₁ y y₁ : Run α} {s t : State}
    (hx : A.Outlasts x x₁) (hy : B.Outlasts y y₁) (h : EndsAlike (x₁ A s) (y₁ B t)) :
    EndsAlike (x A s) (y B t) := by
  rcases hx s with ⟨s', hxs⟩ | hxs
  · rw [hxs]
    cases y B t with
    | ok b t' => rfl
    | error f t' => exact .inl rfl
  · rcases hy t with ⟨t', hyt⟩ | hyt
    · rw [hyt]
      cases x A s with
      | ok a s' => rfl
      | error e s' => exact .inr (.inl rfl)
    · rwa [hxs, hyt] at h

/-! ## Reports -/

variable {setup : Setup} {globals : Host.Datum}

theorem Follows.reportWith {E E' : Evaluator} (hE : Evaluator.Follows setup E E')
    (globals : Host.Datum) :
    setup.Follows (setup.reportWith E globals) (setup.unchained.reportWith E' globals) := by
  unfold Setup.reportWith
  rw [show setup.unchained.programs[0]? =
    (setup.programs[0]?).map fun p => .ofProgram p.program.unchained from Array.getElem?_map ..]
  cases setup.programs[0]? with
  | none => exact .throw _
  | some main =>
    refine (newGlobals globals).bind fun frame => Follows.seq (.log .info fun s => ?_) ?_
    · have hlength : (Prepared.ofProgram main.program.unchained).program.body.length =
          main.program.body.length := List.length_map ..
      dsimp only
      rw [hlength]
      rfl
    · exact (hE.runProgram 0 [frame]).seq (.get fun s =>
        Follows.seq (.log .info fun s => by rfl) (.pure _))

theorem unchained_start : State.start.unchained = State.start := by
  simp [State.unchained, Heap.unchained, State.start, Heap.empty]

/-- With any number of levels, an analysis without marks reports what the analysis reports, unless
that one runs out of levels. -/
theorem analyzeWith_unchained (setup : Setup) (n : Nat) (globals : Host.Datum) :
    setup.analyzeWith n globals = .error .outOfFuel ∨
      setup.unchained.analyzeWith n globals = setup.analyzeWith n globals := by
  have h := (Follows.reportWith (Evaluator.follows_ofFuel setup n) globals).run .start
  rw [unchained_start] at h
  unfold analyzeWith Run.outcome
  cases hr : setup.reportWith (.ofFuel n) globals setup .start with
  | ok r s =>
    rw [hr] at h
    rw [show setup.unchained.reportWith (.ofFuel n) globals setup.unchained .start = _ from h]
    exact .inr rfl
  | error e s =>
    rw [hr] at h
    rcases h with rfl | h
    · exact .inl rfl
    · rw [h]
      exact .inr rfl

/-- Optional chaining is transparent. Let two setups differ in marks only. Then expressions that
differ in marks only, evaluated in states that differ in marks only, end alike: with the same
failure, or with the same possibilities, reports, warnings and log. The analyses end with the same
failure or report, as far as levels last; and without external code, they always do. -/
theorem analyze_alike {setup setup' : Setup} (h : setup'.unchained = setup.unchained)
    (globals : Host.Datum) :
    (∀ (n m : Nat) (e e' : Expr) (place : Place) (stack : Stack) (s s' : State),
      e'.unchained place = e.unchained place → s'.unchained = s.unchained →
      EndsAlike ((Evaluator.ofFuel n).resolve e stack setup s)
        ((Evaluator.ofFuel m).resolve e' stack setup' s')) ∧
    ((setup.analyze globals).1 ≠ .error .outOfFuel →
      (setup'.analyze globals).1 ≠ .error .outOfFuel →
      (setup'.analyze globals).1 = (setup.analyze globals).1) ∧
    (setup.graph.Grounded → setup.resolver = none →
      (setup'.analyze globals).1 = (setup.analyze globals).1) := by
  have hreports : (setup.analyze globals).1 ≠ .error .outOfFuel →
      (setup'.analyze globals).1 ≠ .error .outOfFuel →
      (setup'.analyze globals).1 = (setup.analyze globals).1 := by
    intro hn hn'
    rw [analyze_eq] at hn hn' ⊢
    rw [analyze_eq]
    have hmax := analyzeWith_of_le (Nat.le_max_left setup.fuel setup'.fuel) hn
    have hmax' := analyzeWith_of_le (Nat.le_max_right setup.fuel setup'.fuel) hn'
    rw [← hmax] at hn ⊢
    rw [← hmax'] at hn' ⊢
    rw [← (setup.analyzeWith_unchained _ globals).resolve_left hn,
      ← (setup'.analyzeWith_unchained _ globals).resolve_left hn', h]
  refine ⟨fun n m e e' place stack s s' he hs => ?_, hreports, fun hg hr => ?_⟩
  · refine EndsAlike.of_outlasts (Evaluator.outlasts_ofFuel setup (Nat.le_max_left n m) e stack)
      (Evaluator.outlasts_ofFuel setup' (Nat.le_max_right n m) e' stack) ?_
    have hx := ((Evaluator.follows_ofFuel setup (max n m)).resolve e place stack).run s
    have hx' := ((Evaluator.follows_ofFuel setup' (max n m)).resolve e' place stack).run s'
    rw [h, he, hs] at hx'
    exact hx.alike hx'
  · have hgraph : setup'.graph = setup.graph := congrArg (·.graph) h
    have hresolver : setup'.resolver = setup.resolver := congrArg (·.resolver) h
    exact hreports (analyze_ne_outOfFuel hg hr globals)
      (analyze_ne_outOfFuel (hgraph ▸ hg) (hresolver.trans hr) globals)

end Setup

/-- The program `function f(o) { return o?.a; } delete (f?.({ a: g })).b;`, with the marks of
optional chaining or with what else stands in their place. -/
def chainedProgram (optional chain : Expr → Expr) : Program :=
  ⟨"script", "function f(o) \x7b return o?.a; \x7d delete (f?.(\x7b a: g \x7d)).b;",
    [.declareFunction (.mk ⟨0, 30⟩ false (some ⟨"f", ⟨9, 10⟩⟩)
        (.mk ⟨10, 13⟩ [.mk (.leaf (.identifier ⟨"o", ⟨11, 12⟩⟩)) none] none)
        (.block (.mk ⟨14, 30⟩ [.returnWith ⟨16, 27⟩
          (some (chain (.dot ⟨23, 27⟩ (optional (.identifier ⟨"o", ⟨23, 24⟩⟩)) "a")))]))),
      .expression (.unary ⟨31, 55⟩ .delete (.dot ⟨39, 55⟩ (chain (.call ⟨39, 52⟩
        (optional (.identifier ⟨"f", ⟨39, 40⟩⟩)) [.object ⟨43, 51⟩ [.keyed (.string ⟨45, 46⟩ "a")
          false .value (.identifier ⟨"g", ⟨48, 49⟩⟩)]])) "b"))]⟩

/-- The analysis of the program. The global `g` is an empty object. -/
def chainedCall (optional chain : Expr → Expr) : Setup where
  options := Options.standard
  programs := #[.ofProgram (chainedProgram optional chain)]
  graph := emptyGlobal
  resolver := none
  canceled := false

/-- With marks and without, the deletion is reported. -/
theorem chainedCall_alike :
    (chainedCall id id).unchained = (chainedCall .optional .optionalChain).unchained ∧
    (chainedCall .optional .optionalChain).graph.Grounded ∧
    ((chainedCall id id).analyze (.container 0)).1 =
      ((chainedCall .optional .optionalChain).analyze (.container 0)).1 ∧
    ((chainedCall id id).analyze (.container 0)).1.toOption =
      some ⟨[⟨"Cannot delete property of global value g", ⟨31, 55⟩, "g"⟩], []⟩ := by
  have hprogram : (chainedProgram id id).unchained =
      (chainedProgram .optional .optionalChain).unchained := rfl
  have h : (chainedCall id id).unchained = (chainedCall .optional .optionalChain).unchained := by
    unfold Setup.unchained chainedCall
    rw [List.map_toArray, List.map_toArray]
    exact congrArg (fun p => Setup.mk .standard #[.ofProgram p] emptyGlobal none false) hprogram
  exact ⟨h, grounded_emptyGlobal,
    (Setup.analyze_alike h (.container 0)).2.2 grounded_emptyGlobal rfl,
    by decide +kernel⟩

/-- The program `delete g?.p;`, with the marks of optional chaining or with what else stands in
their place. The global `g` is an empty object. -/
def chainedDelete (optional chain : Expr → Expr) : Setup where
  options := Options.standard
  programs := #[.ofProgram ⟨"script", "delete g?.p;",
    [.expression (.unary ⟨0, 11⟩ .delete (chain (.dot ⟨7, 11⟩
      (optional (.identifier ⟨"g", ⟨7, 8⟩⟩)) "p")))]⟩]
  graph := emptyGlobal
  resolver := none
  canceled := false

/-- A deletion is reported unless the operand is an optional chain. -/
theorem chainedDelete_unreported :
    ((chainedDelete id id).analyze (.container 0)).1.toOption =
        some ⟨[⟨"Cannot delete property of global value g", ⟨0, 11⟩, "g"⟩], []⟩ ∧
    ((chainedDelete .optional .optionalChain).analyze (.container 0)).1.toOption =
        some ⟨[], []⟩ := by
  decide +kernel

end FrozenGlobals
