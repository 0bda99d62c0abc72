import FrozenGlobals.Proofs.Script.Pruned

/-!
# Emptied classes

A syntax tree in which some classes have lost the elements of their bodies: methods, fields and
static blocks. Everything else stays where it stands, offsets included. `σ` says which classes are
emptied.
-/

namespace FrozenGlobals.Script

/-- Some classes lose their elements, and all marks of optional chaining stay. -/
abbrev Pruning.emptying (σ : Class → Bool) : Pruning where
  Place := Unit
  value := ()
  key := ()
  target := ()
  keeps _ _ := true
  keeps_target _ := rfl
  empties := σ

/-- No class is emptied. -/
theorem Pruning.full_emptying : (emptying fun _ => false).Full := ⟨fun _ _ => rfl, fun _ => rfl⟩

section
variable (σ : Class → Bool)

/-- The expression with the classes in it emptied. -/
abbrev Expr.emptied (e : Expr) : Expr := e.pruned (.emptying σ) ()

abbrev Pattern.emptied (p : Pattern) : Pattern := p.pruned (.emptying σ)

abbrev PatternItem.emptied (i : PatternItem) : PatternItem := i.pruned (.emptying σ)

abbrev PatternProperty.emptied (p : PatternProperty) : PatternProperty := p.pruned (.emptying σ)

abbrev Property.emptied (p : Property) : Property := p.pruned (.emptying σ)

abbrev Function.emptied (fn : Function) : Function := fn.pruned (.emptying σ)

abbrev Params.emptied (ps : Params) : Params := ps.pruned (.emptying σ)

abbrev Body.emptied (b : Body) : Body := b.pruned (.emptying σ)

abbrev Binding.emptied (b : Binding) : Binding := b.pruned (.emptying σ)

abbrev Class.emptied (cls : Class) : Class := cls.pruned (.emptying σ)

abbrev ClassElement.emptied (e : ClassElement) : ClassElement := e.pruned (.emptying σ)

abbrev Stmt.emptied (s : Stmt) : Stmt := s.pruned (.emptying σ)

abbrev Block.emptied (b : Block) : Block := b.pruned (.emptying σ)

abbrev ForInit.emptied (i : ForInit) : ForInit := i.pruned (.emptying σ)

abbrev ForTarget.emptied (t : ForTarget) : ForTarget := t.pruned (.emptying σ)

abbrev Case.emptied (c : Case) : Case := c.pruned (.emptying σ)

abbrev Catch.emptied (c : Catch) : Catch := c.pruned (.emptying σ)

abbrev ScopeTemplate.emptied (t : ScopeTemplate) : ScopeTemplate := t.pruned (.emptying σ)

/-- All expressions stay of their kinds. -/
@[simp] theorem Expr.kind_emptied (e : Expr) : (e.emptied σ).kind = e.kind :=
  e.kind_pruned (.emptying σ)

/-- A class keeps its elements if it is not emptied. -/
theorem Class.elements_emptied (cls : Class) : (cls.emptied σ).elements =
    if σ cls then [] else cls.elements.map (ClassElement.emptied σ) := by
  cases cls
  simp [Class.pruned, Class.elements]

end

end FrozenGlobals.Script
