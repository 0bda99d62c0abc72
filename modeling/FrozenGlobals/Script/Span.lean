/-!
# Source ranges

A `Span` is a half-open range of byte offsets into the source of a script. Offsets are integers:
a few syntax nodes have no recorded start, and their range begins at `-1`.
-/

namespace FrozenGlobals.Script

/-- The half-open byte range `[start, stop)` of a source text. -/
structure Span where
  start : Int
  stop : Int
deriving DecidableEq, Repr, Inhabited

namespace Span

/-- `o` lies wholly inside `s`. -/
def contains (s o : Span) : Bool :=
  s.start ≤ o.start && o.stop ≤ s.stop

/-- `s` and `o` share at least one byte. An empty range overlaps nothing. -/
def overlaps (s o : Span) : Bool :=
  s.start < s.stop && o.start < o.stop && o.start < s.stop && s.start < o.stop

/-- The range from the start of `s` to the end of `o`. -/
def through (s o : Span) : Span := ⟨s.start, o.stop⟩

/-- A range is written `[start,stop)`. -/
def render (s : Span) : String :=
  "[" ++ toString s.start ++ "," ++ toString s.stop ++ ")"

end Span

end FrozenGlobals.Script
