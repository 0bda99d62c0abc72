import FrozenGlobals.Script.Node.Size

/-!
# Height

How deep a syntax tree is nested.
-/

namespace FrozenGlobals.Script

/-- One more than the greatest height of the children. -/
def Node.height (n : Node) : Nat :=
  1 + (n.children.attach.map fun ⟨c, _⟩ => height c).foldl max 0
termination_by sizeOf n
decreasing_by exact Node.sizeOf_lt_of_mem_children ‹_›

end FrozenGlobals.Script
