import FrozenGlobals.Script.Span

/-!
# Diagnostics

A diagnostic is one possible mutation of a global value: a message, the source range it is about and
the path of the value. Of diagnostics whose ranges meet, only the first is kept.
-/

namespace FrozenGlobals

open Script (Span)

/-- A possible mutation of a global value. The path is empty when it is not known. -/
structure Diagnostic where
  message : String
  span : Span
  path : String
deriving DecidableEq, Repr, Inhabited

namespace Diagnostic

def render (d : Diagnostic) : String :=
  toString d.span.start ++ "-" ++ toString d.span.stop ++ ": " ++ d.message

/-- The ranges overlap, or one lies within the other. -/
def conflicts (d e : Diagnostic) : Bool :=
  d.span.overlaps e.span || d.span.contains e.span || e.span.contains d.span

/-- The diagnostics that conflict with none kept before them. -/
def keepFirst (kept : List Diagnostic) : List Diagnostic → List Diagnostic
  | [] => kept
  | d :: rest => keepFirst (if kept.any d.conflicts then kept else kept ++ [d]) rest

/-- Order by start, then by end. -/
def before (d e : Diagnostic) : Bool :=
  d.span.start < e.span.start || (d.span.start == e.span.start && d.span.stop ≤ e.span.stop)

/-- The first of diagnostics that meet, in order of position. -/
def dedupe (ds : List Diagnostic) : List Diagnostic := (keepFirst [] ds).mergeSort before

end Diagnostic

/-- The outcome of an analysis. -/
structure Report where
  diagnostics : List Diagnostic
  warnings : List String
deriving DecidableEq, Repr, Inhabited

/-- A report in one line. -/
def Report.summary (r : Report) : String :=
  let warnings :=
    if r.warnings.isEmpty then "" else " (warnings: " ++ toString r.warnings.length ++ ")"
  "Result\x7bDiagnostics: " ++ toString r.diagnostics.length ++ warnings ++ "\x7d"

end FrozenGlobals
