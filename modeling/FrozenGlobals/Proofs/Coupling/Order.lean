import FrozenGlobals.Proofs.Coupling.Notes

/-!
# The order of an assignment

An assignment to a member evaluates the value first, then the object and the key of the member, and
writes. `Setup.assign_records` says what that means for the diagnostics: all that evaluating these
three in this order records is recorded, and so is what evaluating the value after the target
records if the target changes nothing. In `aliasedTarget` the target changes what the value reads,
and a write to a global is missed.
-/

namespace FrozenGlobals

open Run
open Script (Span Expr)

/-! ## Evaluations one after another -/

namespace Setup

/-- Expressions end in a state if they are evaluated one after another, with levels enough. -/
inductive Evaluates (setup : Setup) (stack : Stack) : List Expr → State → State → Prop
  | nil {s : State} : Evaluates setup stack [] s s
  | cons {n : Nat} {e : Expr} {es : List Expr} {o : Operand} {s t s' : State} :
      (Evaluator.ofFuel n).resolve e stack setup s = .ok o t → Evaluates setup stack es t s' →
      Evaluates setup stack (e :: es) s s'

variable {setup : Setup} {stack : Stack} {s s' t : State}

/-- An expression that was evaluated is evaluated in the same way with more levels. -/
theorem resolve_of_le {n m : Nat} (hle : n ≤ m) {e : Expr} {o : Operand}
    (h : (Evaluator.ofFuel n).resolve e stack setup s = .ok o s') :
    (Evaluator.ofFuel m).resolve e stack setup s = .ok o s' := by
  have hagrees : (Discipline.lasting setup).Agree s.position
      ((Evaluator.ofFuel n).resolve e stack) ((Evaluator.ofFuel m).resolve e stack) fun _ => True :=
    (Evaluator.agrees_lasting setup hle).resolve trivial trivial
  have hagree := hagrees.alone s trivial rfl
  rw [h] at hagree
  exact hagree.1

namespace Evaluates

theorem single {n : Nat} {e : Expr} {o : Operand}
    (h : (Evaluator.ofFuel n).resolve e stack setup s = .ok o s') :
    setup.Evaluates stack [e] s s' := .cons h .nil

theorem append {es es' : List Expr} (h : setup.Evaluates stack es s t)
    (h' : setup.Evaluates stack es' t s') : setup.Evaluates stack (es ++ es') s s' := by
  induction h with
  | nil => exact h'
  | cons he _ ih => exact .cons he (ih h')

/-- Evaluations end in one state. -/
theorem unique {es : List Expr} (h : setup.Evaluates stack es s s')
    (h' : setup.Evaluates stack es s t) : t = s' := by
  induction h generalizing t with
  | nil =>
    cases h'
    rfl
  | @cons n e es o s s₁ s' he _ ih =>
    cases h' with
    | @cons m _ _ o' _ t₁ _ he' hrest =>
      have heq := resolve_of_le (Nat.le_max_left n m) he
      rw [resolve_of_le (Nat.le_max_right n m) he'] at heq
      cases heq
      exact ih hrest

end Evaluates

/-- The items of a sequence are evaluated one after another. -/
theorem evaluates_of_sequence {n : Nat} {span : Span} {items : List Expr} {o : Operand}
    (h : (Evaluator.ofFuel n).resolve (.sequence span items) stack setup s = .ok o s') :
    setup.Evaluates stack items s s' := by
  cases n with
  | zero => cases h
  | succ n =>
    have hfold : ∀ (items : List Expr) (s : State) (last : Operand),
        items.foldlM (fun _ item => (Evaluator.ofFuel n).resolve item stack) last setup s =
          .ok o s' →
        setup.Evaluates stack items s s' := by
      intro items
      induction items with
      | nil =>
        intro s last h
        cases h
        exact .nil
      | cons e items ih =>
        intro s last h
        rw [List.foldlM_cons] at h
        obtain ⟨o', t, he, hrest⟩ := ok_of_bind h
        exact .cons he (ih t o' hrest)
    exact hfold items s _ h

/-- A key is evaluated, or it is a literal and nothing happens. -/
theorem evaluates_of_memberKey {n : Nat} {key : Expr} {k : Key}
    (h : (Evaluator.ofFuel n).memberKey key stack setup s = .ok k s') :
    setup.Evaluates stack [key] s s' := by
  unfold Evaluator.memberKey at h
  cases hk : Key.ofLiteral? key with
  | none =>
    rw [hk] at h
    obtain ⟨_, t, hvisit, hend⟩ := ok_of_bind h
    obtain ⟨o, t', hkey, hvisit⟩ := ok_of_bind hvisit
    cases hvisit
    cases hend
    exact .single hkey
  | some k' =>
    rw [hk] at h
    cases h
    cases key with
    | string span text => exact .single (n := 1) rfl
    | number span value => cases value <;> exact .single (n := 1) rfl
    | _ => cases hk

/-- What ends has let the state grow. -/
theorem grows_of_ok {α : Type} {x : Run α} {a : α} {Q : α → Prop} (hx : x setup s = .ok a s')
    (h : ∀ p, (Discipline.growth setup).Keeps p x Q) : s.Grows s' := by
  have hgrown := grows_of_keeps h s
  rwa [stateAfter, hx] at hgrown

/-- An assignment to a member evaluates the value, the object and the key, and then it writes. -/
theorem evaluates_of_assign {n : Nat} {span member : Span} {op : Script.AssignOp}
    {object key value : Expr} {o : Operand}
    (h : (Evaluator.ofFuel n).resolve
      (.assign span op (.leaf (.bracket member object key)) value) stack setup s = .ok o s') :
    ∃ t t', setup.Evaluates stack [value] s t ∧ setup.Evaluates stack [object, key] t t' ∧
      t.Grows t' ∧ t'.Grows s' := by
  cases n with
  | zero => cases h
  | succ n =>
    obtain ⟨right, t, hvalue, h⟩ := ok_of_bind h
    obtain ⟨_, t₁, hbind, h⟩ := ok_of_bind h
    cases h
    cases n with
    | zero => cases hbind
    | succ n =>
      obtain ⟨member, t', hmember, hwrite⟩ := ok_of_bind hbind
      obtain ⟨base, t₂, hobject, htarget⟩ := ok_of_bind hmember
      obtain ⟨k, t₃, hkey, hend⟩ := ok_of_bind htarget
      cases hend
      have hE := Evaluator.agrees_growth setup n
      exact ⟨t, t', .single hvalue, .cons hobject (evaluates_of_memberKey hkey),
        grows_of_ok hmember fun p => hE.memberBracket trivial trivial trivial,
        grows_of_ok hwrite fun p =>
          Evaluator.Agrees.writeMember hE (fun _ => trivial) (base, k) _ trivial⟩

end Setup

/-! ## Evaluations of states that differ in their notes -/

/-- Another state that differs in what was noted only. -/
def State.Noted (s s' : State) : Prop :=
  s' = { s with diagnostics := s'.diagnostics, warnings := s'.warnings, log := s'.log }

namespace Setup

variable {setup : Setup} {stack : Stack} {s t s' t' : State}

/-- Two evaluations that add the same diagnostics to those of two states. -/
def adding (setup : Setup) (s t : State) : Notes setup setup where
  diagnostics ds ds' := ∃ own, ds.toList = s.diagnostics.toList ++ own ∧
    ds'.toList = t.diagnostics.toList ++ own
  warnings _ _ := True
  report {ds ds'} d h := by
    obtain ⟨own, h, h'⟩ := h
    exact ⟨own ++ [d], by simp [h], by simp [h']⟩
  warn _ _ := trivial

/-- In states that differ in what was noted only, the same diagnostics are recorded. -/
theorem recorded_of_noted {n m : Nat} {e : Expr} {o o' : Operand} (hnoted : s.Noted t)
    (h : (Evaluator.ofFuel n).resolve e stack setup s = .ok o s')
    (h' : (Evaluator.ofFuel m).resolve e stack setup t = .ok o' t') :
    ∃ own, s'.diagnostics.toList = s.diagnostics.toList ++ own ∧
      t'.diagnostics.toList = t.diagnostics.toList ++ own := by
  have hlaws : (setup.adding s t).matching.coupling.Laws :=
    (Notes.lawful ⟨rfl, rfl, rfl, rfl, rfl, rfl⟩).laws
  have hE := Evaluator.Couples.ofFuel hlaws (fun _ => trivial) (fun _ => trivial) (max n m)
  have hstates : (setup.adding s t).matching.coupling.states () s t := by
    rw [State.Noted] at hnoted
    generalize t.diagnostics = ds, t.warnings = ws, t.log = log at hnoted
    subst hnoted
    exact ⟨⟨rfl, rfl, rfl, rfl, ⟨[], (List.append_nil _).symm, (List.append_nil _).symm⟩, trivial⟩,
      { State.Parallel.rfl with }⟩
  have hruns : (setup.adding s t).matching.coupling.runs s.unit () (.expr e) stack stack :=
    ⟨rfl, trivial⟩
  have hrun := (hE.resolve hruns).run () trivial s t hstates rfl
  have hempty : e.emptied ((setup.adding s t).matching.coupling.empties s.unit) = e :=
    e.pruned_full Script.Pruning.full_emptying
  rw [resolve_of_le (Nat.le_max_left n m) h, hempty,
    resolve_of_le (Nat.le_max_right n m) h'] at hrun
  obtain ⟨_, _, ⟨hdiffer, _⟩, _⟩ := hrun
  exact hdiffer.diagnostics

/-- A member assignment records what its parts record if the value is evaluated first. What the
value records after the target is recorded, too, if the target changes nothing but what was noted;
so if the target records nothing, what the parts record from left to right is recorded. -/
theorem assign_records {n m : Nat} {span span' member : Span} {op : Script.AssignOp}
    {object key value : Expr} {o o' : Operand}
    (hsequence : (Evaluator.ofFuel n).resolve (.sequence span [object, key, value]) stack setup s =
      .ok o s')
    (hassign : (Evaluator.ofFuel m).resolve
      (.assign span' op (.leaf (.bracket member object key)) value) stack setup s = .ok o' t') :
    (∀ {k span'' o₁ s₁}, (Evaluator.ofFuel k).resolve (.sequence span'' [value, object, key]) stack
      setup s = .ok o₁ s₁ → s₁.diagnostics.toList <+: t'.diagnostics.toList) ∧
    ∀ {k span'' o₁ s₁}, (Evaluator.ofFuel k).resolve (.sequence span'' [object, key]) stack
      setup s = .ok o₁ s₁ → s.Noted s₁ →
      (∃ own, s'.diagnostics.toList = s₁.diagnostics.toList ++ own ∧
        s.diagnostics.toList ++ own <+: t'.diagnostics.toList) ∧
      (s₁.diagnostics = s.diagnostics → s'.diagnostics.toList <+: t'.diagnostics.toList) := by
  obtain ⟨a, b, hvalue, htarget, hab, hb⟩ := evaluates_of_assign hassign
  constructor
  · intro k span'' o₁ s₁ h
    obtain rfl := (evaluates_of_sequence h).unique (hvalue.append htarget)
    exact hb.diagnostics
  · intro k span'' o₁ s₁ h hnoted
    -- the value is evaluated after the target in one case and before it in the other
    obtain ⟨own, hs', ha⟩ : ∃ own, s'.diagnostics.toList = s₁.diagnostics.toList ++ own ∧
        a.diagnostics.toList = s.diagnostics.toList ++ own := by
      cases hvalue with
      | cons hvalue hend =>
        cases hend
        cases evaluates_of_sequence hsequence with
        | cons hobject hrest =>
          cases hrest with
          | cons hkey hrest =>
            cases hrest with
            | cons hvalue' hend =>
              cases hend
              obtain rfl := (evaluates_of_sequence h).unique (.cons hobject (.single hkey))
              obtain ⟨own, ha, hs'⟩ := recorded_of_noted hnoted hvalue hvalue'
              exact ⟨own, hs', ha⟩
    have hown : s.diagnostics.toList ++ own <+: t'.diagnostics.toList :=
      ha ▸ hab.diagnostics.trans hb.diagnostics
    refine ⟨⟨own, hs', hown⟩, fun hquiet => ?_⟩
    rwa [hs', hquiet]

end Setup

/-- The program `let a = {};`, behind which comes an expression. The global `g` is an empty
object. -/
def aliasing (e : Expr) : Setup where
  options := Options.standard
  programs := #[.ofProgram ⟨"script", "let a = \x7b\x7d; (a = g, \x7b\x7d)[0] = (a.x = 1);",
    [.declareLexical ⟨0, 10⟩ [.mk (.leaf (.identifier ⟨"a", ⟨4, 5⟩⟩)) (some (.object ⟨8, 10⟩ []))],
      .expression e]⟩]
  graph := emptyGlobal
  resolver := none
  canceled := false

/-- The object `(a = g, {})`. -/
def aliasedTarget : Expr :=
  .sequence ⟨13, 23⟩ [.assign ⟨13, 18⟩ .plain (.leaf (.identifier ⟨"a", ⟨13, 14⟩⟩))
    (.identifier ⟨"g", ⟨17, 18⟩⟩), .object ⟨20, 22⟩ []]

/-- The value `a.x = 1`. -/
def aliasedValue : Expr :=
  .assign ⟨30, 37⟩ .plain (.leaf (.dot ⟨30, 33⟩ (.identifier ⟨"a", ⟨30, 31⟩⟩) "x"))
    (.number ⟨36, 37⟩ (some (.ofNat 1)))

/-- Reading a name and a literal key changes nothing. -/
theorem Setup.resolve_named (setup : Setup) (stack : Stack) (s : State) (span span' : Span)
    (id : Script.Identifier) (text : String) :
    ∃ o, (Evaluator.ofFuel 2).resolve (.sequence span [.identifier id, .string span' text]) stack
      setup s = .ok o s :=
  ⟨_, bind_of_ok (f := fun _ => _) (lookup_eq setup id.name stack s)⟩

/-- What a computation that ended has recorded. -/
theorem Setup.exists_of_recorded {α : Type} (setup : Setup) (s : State) (x : Run α)
    (spans : List Span)
    (h : (match x setup s with
      | .ok _ s' => some (s'.diagnostics.toList.map (·.span))
      | .error _ _ => none) = some spans) :
    ∃ o s', x setup s = .ok o s' ∧ s'.diagnostics.toList.map (·.span) = spans := by
  cases hx : x setup s with
  | ok o s' =>
    rw [hx] at h
    exact ⟨o, s', rfl, Option.some.inj h⟩
  | error e s' =>
    rw [hx] at h
    cases h

/-- The target `g["y"]` changes nothing, and the value `g.x = 1` writes to the global in both
orders. -/
theorem Setup.assign_records_named :
    let object : Expr := .identifier ⟨"g", ⟨0, 1⟩⟩
    let key : Expr := .string ⟨2, 5⟩ "y"
    let value : Expr := .assign ⟨10, 17⟩ .plain
      (.leaf (.dot ⟨10, 13⟩ (.identifier ⟨"g", ⟨10, 11⟩⟩) "x")) (.number ⟨16, 17⟩ (some (.ofNat 1)))
    let setup := aliasing object
    let s := setup.stateAfter (newGlobals (.container 0)) .start
    ∃ o s' o' t' o₁,
      (Evaluator.ofFuel 8).resolve (.sequence ⟨0, 18⟩ [object, key, value]) [0] setup s = .ok o s' ∧
      (Evaluator.ofFuel 8).resolve
        (.assign ⟨0, 18⟩ .plain (.leaf (.bracket ⟨0, 6⟩ object key)) value)
        [0] setup s = .ok o' t' ∧
      (Evaluator.ofFuel 2).resolve (.sequence ⟨0, 5⟩ [object, key]) [0] setup s = .ok o₁ s ∧
      s.Noted s ∧ s'.diagnostics.toList.map (·.span) = [⟨10, 17⟩] ∧
      s'.diagnostics.toList <+: t'.diagnostics.toList := by
  intro object key value setup s
  obtain ⟨o, s', h, hspans⟩ := setup.exists_of_recorded s
    ((Evaluator.ofFuel 8).resolve (.sequence ⟨0, 18⟩ [object, key, value]) [0]) [⟨10, 17⟩]
    (by decide +kernel)
  obtain ⟨o', t', h', -⟩ := setup.exists_of_recorded s ((Evaluator.ofFuel 8).resolve
      (.assign ⟨0, 18⟩ .plain (.leaf (.bracket ⟨0, 6⟩ object key)) value) [0])
    [⟨10, 17⟩, ⟨0, 18⟩] (by decide +kernel)
  obtain ⟨o₁, h₁⟩ := setup.resolve_named [0] s ⟨0, 5⟩ ⟨2, 5⟩ ⟨"g", ⟨0, 1⟩⟩ "y"
  exact ⟨o, s', o', t', o₁, h, h', h₁, rfl, hspans, ((Setup.assign_records h h').2 h₁ rfl).2 rfl⟩

/-- From left to right, the value writes to the global; as an assignment the same parts report
nothing. -/
theorem aliasedTarget_unreported :
    ((aliasing (.sequence ⟨12, 38⟩ [aliasedTarget, .number ⟨24, 25⟩ (some (.ofNat 0)),
      aliasedValue])).analyze (.container 0)).1.toOption =
        some ⟨[⟨"Cannot assign to property of global value g", ⟨30, 37⟩, "g"⟩], []⟩ ∧
    ((aliasing (.assign ⟨12, 38⟩ .plain (.leaf (.bracket ⟨12, 26⟩ aliasedTarget
      (.number ⟨24, 25⟩ (some (.ofNat 0))))) aliasedValue)).analyze (.container 0)).1.toOption =
        some ⟨[], []⟩ := by
  decide +kernel

end FrozenGlobals
