import FrozenGlobals.Script.Grammar.Statement
import FrozenGlobals.Script.Node.Size
import FrozenGlobals.Text.Utf8

/-!
# Programs

A `Program` is a named source with the statements read from it. Source ranges are turned into text
and into lines and columns here, both counted in bytes.
-/

namespace FrozenGlobals.Script

/-- The line and column of a byte offset, counted from one. An offset outside the source stands for
its nearer end. -/
def linePosition (source : String) (offset : Int) : Nat × Nat :=
  (source.toUTF8.extract 0 offset.toNat).toList.foldl
    (fun (line, column) b => if b == '\n'.toUInt8 then (line + 1, 1) else (line, column + 1)) (1, 1)

/-- The text of a source range, as the pieces that it cuts out. A range that is not inside the
source has no text. -/
def spanText (source : String) (span : Span) : List Text.Piece :=
  if span.start < 0 || (source.utf8ByteSize : Int) < span.stop || span.stop < span.start then []
  else Text.slice source span.start.toNat span.stop.toNat

/-- A script: its name, its source and its statements. -/
structure Program where
  name : String
  source : String
  body : List Stmt
deriving Inhabited

namespace Program

/-- Reads a script. -/
def parse (name source : String) : Except ParseError Program :=
  match parseStatements source with
  | .ok body => .ok { name, source, body }
  | .error e =>
      let (line, column) := linePosition source e.offset
      .error { name, line, column, fault := e.fault }

/-- The text of a source range of a program. -/
def text (p : Program) (span : Span) : List Text.Piece := spanText p.source span

/-- The line and column of a byte offset. -/
def position (p : Program) (offset : Int) : Nat × Nat := linePosition p.source offset

end Program

/-! ## Outlines -/

/-- A node of a program in an outline; some nodes have no range. -/
structure OutlineEntry where
  depth : Nat
  kind : NodeKind
  span? : Option Span
deriving DecidableEq, Repr, Inhabited

/-- A node and its descendants in preorder. The descendants of nodes that `skip` names are left
out. -/
def Node.outline (skip : NodeKind → Bool) (depth : Nat) (n : Node) : List OutlineEntry :=
  let entry : OutlineEntry := { depth, kind := n.kind, span? := n.span? }
  if skip n.kind then [entry]
  else entry :: (n.children.attach.map fun ⟨c, _⟩ => outline skip (depth + 1) c).flatten
termination_by sizeOf n
decreasing_by exact Node.sizeOf_lt_of_mem_children ‹_›

/-- The statements of a program with their descendants. -/
def Program.outline (p : Program) (skip : NodeKind → Bool) : List OutlineEntry :=
  (p.body.map fun s => (Node.stmt s).outline skip 0).flatten

end FrozenGlobals.Script
