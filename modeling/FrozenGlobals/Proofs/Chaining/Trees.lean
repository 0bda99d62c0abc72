import FrozenGlobals.Proofs.Discipline.Evaluation
import FrozenGlobals.Proofs.Script.Pruned

/-!
# Trees without the marks of optional chaining

A syntax tree in which the marks of optional chaining are gone: `o?.p` has become `o.p`. What stands
where the shape of an expression is looked at (`Place.reads`) keeps the marks directly around it:
the operands of `delete` and of updates, the targets of assignments, literal keys, and spreads.
Nothing else changes, and neither do the ranges and kinds of nodes.
-/

namespace FrozenGlobals.Script

/-- Where an expression stands, as far as its shape matters there. -/
inductive Place where
  /-- It is evaluated, unless it is a spread. -/
  | value
  /-- It is a key, which a literal or a name is by itself. -/
  | key
  /-- It is deleted, updated or written to. -/
  | target

/-- The shape of an expression matters where it stands. -/
def Place.reads : Place → Expr → Bool
  | .target, _ => true
  | _, .spread _ => true
  | .key, .identifier _ | .key, .string .. | .key, .number .. => true
  | _, _ => false

/-! ## Trees -/

/-- Marks of optional chaining stay where the shape of what they stand around matters, and all
classes keep their elements. -/
abbrev Pruning.unchaining : Pruning where
  Place := Script.Place
  value := .value
  key := .key
  target := .target
  keeps place inner := place.reads (unwrapOptional inner)
  keeps_target _ := rfl
  empties _ := false

/-- The expression at a place, without marks of optional chaining. -/
abbrev Expr.unchained (e : Expr) (place : Place) : Expr := e.pruned .unchaining place

abbrev Pattern.unchained (p : Pattern) : Pattern := p.pruned .unchaining

abbrev PatternItem.unchained (i : PatternItem) : PatternItem := i.pruned .unchaining

abbrev PatternProperty.unchained (p : PatternProperty) : PatternProperty := p.pruned .unchaining

abbrev Property.unchained (p : Property) : Property := p.pruned .unchaining

abbrev Function.unchained (fn : Function) : Function := fn.pruned .unchaining

abbrev Params.unchained (ps : Params) : Params := ps.pruned .unchaining

abbrev Body.unchained (b : Body) : Body := b.pruned .unchaining

abbrev Binding.unchained (b : Binding) : Binding := b.pruned .unchaining

abbrev Class.unchained (cls : Class) : Class := cls.pruned .unchaining

abbrev ClassElement.unchained (e : ClassElement) : ClassElement := e.pruned .unchaining

abbrev Stmt.unchained (s : Stmt) : Stmt := s.pruned .unchaining

abbrev Block.unchained (b : Block) : Block := b.pruned .unchaining

abbrev ForInit.unchained (i : ForInit) : ForInit := i.pruned .unchaining

abbrev ForTarget.unchained (t : ForTarget) : ForTarget := t.pruned .unchaining

abbrev Case.unchained (c : Case) : Case := c.pruned .unchaining

abbrev Catch.unchained (c : Catch) : Catch := c.pruned .unchaining

abbrev ScopeTemplate.unchained (t : ScopeTemplate) : ScopeTemplate := t.pruned .unchaining

/-! ## Marks -/

namespace Expr

/-- The expression is no mark of optional chaining. -/
def Unmarked : Expr → Prop
  | .optional _ | .optionalChain _ => False
  | _ => True

/-- What a mark wraps is no mark. -/
theorem unmarked_unwrapOptional (e : Expr) : (unwrapOptional e).Unmarked := by
  fun_induction unwrapOptional e with
  | case1 inner ih => exact ih
  | case2 inner ih => exact ih
  | case3 e h₁ h₂ =>
    cases e with
    | optional inner => exact absurd rfl (h₁ inner)
    | optionalChain inner => exact absurd rfl (h₂ inner)
    | _ => trivial

/-- What a mark wraps is no larger than the mark. -/
theorem sizeOf_unwrapOptional_le (e : Expr) : sizeOf (unwrapOptional e) ≤ sizeOf e := by
  fun_induction unwrapOptional e with
  | case1 inner ih => simp only [Expr.optional.sizeOf_spec]; omega
  | case2 inner ih => simp only [Expr.optionalChain.sizeOf_spec]; omega
  | case3 e => exact Nat.le_refl _

/-- A mark is larger than what it wraps. -/
theorem sizeOf_unwrapOptional_lt {e : Expr} (h : ¬ e.Unmarked) :
    sizeOf (unwrapOptional e) < sizeOf e := by
  cases e with
  | optional inner =>
    have := sizeOf_unwrapOptional_le inner
    simp only [unwrapOptional, Expr.optional.sizeOf_spec]
    omega
  | optionalChain inner =>
    have := sizeOf_unwrapOptional_le inner
    simp only [unwrapOptional, Expr.optionalChain.sizeOf_spec]
    omega
  | _ => exact absurd trivial h

/-- An expression that is no mark wraps nothing. -/
theorem Unmarked.unwrapOptional_eq {e : Expr} (h : e.Unmarked) : unwrapOptional e = e := by
  cases e <;> first | rfl | exact h.elim

/-- Removing marks makes no new ones. -/
theorem Unmarked.unchained {e : Expr} (h : e.Unmarked) (place : Place) :
    (e.unchained place).Unmarked := by
  cases e <;> trivial

/-- Under the marks around it, an expression is what it was. -/
theorem unwrapOptional_unchained (e : Expr) (place : Place) :
    unwrapOptional (e.unchained place) = (unwrapOptional e).unchained place := by
  fun_induction unwrapOptional e with
  | case1 inner ih =>
    rw [unchained, pruned]
    split
    · exact ih
    · exact ih
  | case2 inner ih =>
    rw [unchained, pruned]
    split
    · exact ih
    · exact ih
  | case3 e h₁ h₂ =>
    refine Unmarked.unwrapOptional_eq (Unmarked.unchained ?_ place)
    cases e with
    | optional inner => exact absurd rfl (h₁ inner)
    | optionalChain inner => exact absurd rfl (h₂ inner)
    | _ => trivial

/-- Marks around an expression are gone where its shape does not matter. -/
theorem unchained_eq {e : Expr} {place : Place} (h : place.reads (unwrapOptional e) = false) :
    e.unchained place = (unwrapOptional e).unchained place := by
  fun_induction unwrapOptional e with
  | case1 inner ih =>
    rw [unchained, pruned, if_neg (Bool.eq_false_iff.1 h)]
    exact ih h
  | case2 inner ih =>
    rw [unchained, pruned, if_neg (Bool.eq_false_iff.1 h)]
    exact ih h
  | case3 e h₁ h₂ => rfl

/-- A mark stays a mark where the shape of what it stands around matters, and is gone elsewhere. -/
theorem unchained_of_marked {e : Expr} (h : ¬ e.Unmarked) (place : Place) :
    (place.reads (unwrapOptional e) = true ∧ ¬ (e.unchained place).Unmarked) ∨
    (place.reads (unwrapOptional e) = false ∧
      e.unchained place = (unwrapOptional e).unchained place) := by
  cases hreads : place.reads (unwrapOptional e) with
  | false => exact .inr ⟨rfl, unchained_eq hreads⟩
  | true =>
    refine .inl ⟨rfl, ?_⟩
    cases e with
    | optional inner =>
      rw [unchained, pruned, if_pos (show place.reads (unwrapOptional inner) = true from hreads)]
      exact h
    | optionalChain inner =>
      rw [unchained, pruned, if_pos (show place.reads (unwrapOptional inner) = true from hreads)]
      exact h
    | _ => exact absurd trivial h

/-! ## Shapes -/

/-- Nothing becomes a spread when marks are gone. -/
theorem unchained_ne_spread {e : Expr} (h : ∀ inner, e ≠ .spread inner) (place : Place)
    (inner : Expr) : e.unchained place ≠ .spread inner := by
  by_cases hmarked : e.Unmarked
  · cases e <;> first | exact absurd rfl (h _) | exact hmarked.elim | exact nofun
  · rcases unchained_of_marked hmarked place with ⟨-, hkept⟩ | ⟨hreads, heq⟩
    · intro hspread
      rw [hspread] at hkept
      exact hkept trivial
    · rw [heq]
      have hunmarked := unmarked_unwrapOptional e
      generalize unwrapOptional e = e at hreads hunmarked
      cases e with
      | optional inner => exact hunmarked.elim
      | optionalChain inner => exact hunmarked.elim
      | spread inner => cases place <;> cases hreads
      | _ => exact nofun

/-- A mark is no literal key. -/
theorem ofLiteral?_of_marked {e : Expr} (h : ¬ e.Unmarked) : Key.ofLiteral? e = none := by
  cases e <;> first | rfl | exact absurd trivial h

/-- A key is the same literal without marks. -/
theorem ofLiteral?_unchained (e : Expr) :
    Key.ofLiteral? (e.unchained .key) = Key.ofLiteral? e := by
  by_cases hmarked : e.Unmarked
  · cases e <;> first | rfl | exact hmarked.elim
  · rw [ofLiteral?_of_marked hmarked]
    rcases unchained_of_marked hmarked .key with ⟨-, hkept⟩ | ⟨hreads, heq⟩
    · exact ofLiteral?_of_marked hkept
    · rw [heq]
      have hunmarked := unmarked_unwrapOptional e
      generalize unwrapOptional e = e at hreads hunmarked
      cases e <;> first | rfl | exact hunmarked.elim | cases hreads

/-- Where all marks stay, an expression stays of its kind. -/
@[simp] theorem kind_unchained (e : Expr) : (e.unchained .target).kind = e.kind :=
  e.kind_pruned .unchaining

end Expr

end FrozenGlobals.Script
