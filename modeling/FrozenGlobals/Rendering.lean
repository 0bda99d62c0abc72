import FrozenGlobals.Diagnostic
import FrozenGlobals.Script.Program
import FrozenGlobals.Text.Blank
import FrozenGlobals.Text.Quoted
import FrozenGlobals.Text.Width

/-!
# Diagnostics for readers

A diagnostic is shown as a headline, the place it is about, an excerpt of the source with carets
under the range, and the path of the global value. A `Layout` says which of these sections are shown
and how. Columns count what a terminal shows, so tabs are expanded and wide characters take two.
-/

namespace FrozenGlobals.Rendering

open Script (linePosition)

/-! ## Layouts -/

/-- A part of what is shown of a diagnostic. -/
inductive Section where
  | message | location | excerpt | path
deriving DecidableEq, Repr, Inhabited

namespace Section

def all : List Section := [.message, .location, .excerpt, .path]

def name : Section → String
  | .message => "message"
  | .location => "location"
  | .excerpt => "excerpt"
  | .path => "path"

/-- The section a text names, in any case. -/
def ofName? (text : String) : Option Section := all.find? fun s => Text.eqFold text s.name

end Section

/-- How diagnostics are to be shown, as it is asked for. -/
structure LayoutRequest where
  /-- Names of sections; none means all of them. -/
  sections : List String
  /-- Lines shown before and after the range. -/
  context : Int
  /-- Columns between tab stops; zero means four. -/
  tabWidth : Int
  /-- Whether headline and carets are coloured. -/
  color : Bool
deriving DecidableEq, Repr, Inhabited

/-- How diagnostics are shown. -/
structure Layout where
  sections : List Section
  context : Nat
  tabWidth : Nat
  color : Bool
deriving DecidableEq, Repr, Inhabited

/-- Why a layout cannot be had. -/
inductive LayoutFault where
  | unknownSection (name : String)
  | negativeContext (context : Int)
  | tabWidthRange (width : Int)
deriving DecidableEq, Repr, Inhabited

def LayoutFault.message : LayoutFault → String
  | .unknownSection name =>
      "invalid section " ++ Text.quote name ++ "; valid sections: "
        ++ ", ".intercalate (Section.all.map Section.name)
  | .negativeContext context => "context must not be negative, got " ++ toString context
  | .tabWidthRange width => "tab width must be between 1 and 16, got " ++ toString width

namespace LayoutRequest

/-- The sections asked for. -/
def chosen : List String → Except LayoutFault (List Section)
  | [] => .ok []
  | name :: rest => do
      match Section.ofName? name with
      | none => throw (.unknownSection name)
      | some s => return s :: (← chosen rest)

/-- The layout asked for. -/
def layout (r : LayoutRequest) : Except LayoutFault Layout := do
  let sections ← chosen r.sections
  if r.context < 0 then throw (.negativeContext r.context)
  let tabWidth := if r.tabWidth = 0 then 4 else r.tabWidth
  if tabWidth < 0 ∨ 16 < tabWidth then throw (.tabWidthRange tabWidth)
  return {
    sections := if sections.isEmpty then Section.all else sections
    context := r.context.toNat
    tabWidth := tabWidth.toNat
    color := r.color }

end LayoutRequest

/-! ## Columns -/

/-- `count` blanks. -/
def blanks (count : Nat) : String := String.ofList (List.replicate count ' ')

/-- A text with tabs replaced by blanks up to the next tab stop; `column` is the column it starts
in. -/
def expandTabs (tabWidth : Nat) (column : Nat) : List Char → List Char
  | [] => []
  | '\t' :: rest =>
      let count := tabWidth - column % tabWidth
      List.replicate count ' ' ++ expandTabs tabWidth (column + count) rest
  | c :: rest => c :: expandTabs tabWidth (column + Text.charWidth c) rest

/-- The columns taken by the first bytes of a line. -/
def leadWidth (tabWidth : Nat) (line : String) (bytes : Nat) : Nat :=
  Text.displayWidth (expandTabs tabWidth 0 ((Text.slice line 0 bytes).map Text.Piece.toChar))

/-! ## Sections -/

/-- Text in a colour. -/
def paint (layout : Layout) (codes text : String) : String :=
  if layout.color then codes ++ text ++ "\x1b[0m" else text

def red : String := "\x1b[31m"
def bold : String := "\x1b[1m"

/-- Why diagnostics cannot be shown. -/
inductive RenderFault where
  | layout (fault : LayoutFault)
  | noProgram
  /-- The end of a range is shown left of its start. -/
  | negativeWidth
deriving DecidableEq, Repr, Inhabited

def RenderFault.message : RenderFault → String
  | .layout fault => "invalid format config: " ++ fault.message
  | .noProgram => "program cannot be nil"
  | .negativeWidth => "negative width"

/-- A named source and its lines. -/
structure Source where
  name : String
  text : String
  lines : Array String

def Source.ofText (name text : String) : Source := ⟨name, text, (text.splitOn "\n").toArray⟩

/-- A range given by lines and columns, with the width of the line numbers beside it. -/
structure Placement where
  line : Nat
  column : Nat
  endLine : Nat
  endColumn : Nat
  /-- The last line shown. -/
  last : Int
  gutter : Nat

namespace Placement

/-- Where a diagnostic is shown. Line numbers are words of 64 bits. -/
def of (layout : Layout) (source : Source) (d : Diagnostic) : Placement :=
  let (line, column) := linePosition source.text d.span.start
  let (endLine, endColumn) := linePosition source.text d.span.stop
  let last := min (Int.bmod (endLine + layout.context) (Nat.pow 2 64)) source.lines.size
  { line, column, endLine, endColumn, last, gutter := (toString last).length }

/-- The row of carets under a line. -/
def carets (p : Placement) (layout : Layout) (n : Nat) (text : String) :
    Except RenderFault String :=
  let start := if n = p.line then p.column else 1
  let stop := if n = p.endLine then p.endColumn else text.utf8ByteSize + 1
  let stop := if stop ≤ start then start + 1 else stop
  let lead := leadWidth layout.tabWidth text (start - 1)
  let reach := leadWidth layout.tabWidth text (stop - 1)
  if reach < lead then .error .negativeWidth
  else
    let width := if reach = lead then 1 else reach - lead
    .ok (blanks p.gutter ++ " | " ++ blanks lead
      ++ paint layout red (String.ofList (List.replicate width '^')) ++ "\n")

/-- A line of the source, and the carets under it if it is part of the range. -/
def row (p : Placement) (layout : Layout) (source : Source) (n : Nat) :
    Except RenderFault String := do
  let text := source.lines[n - 1]?.getD ""
  let number := toString n
  let shown := blanks (p.gutter - number.length) ++ number ++ " | "
    ++ String.ofList (expandTabs layout.tabWidth 0 text.toList) ++ "\n"
  if n < p.line ∨ p.endLine < n then return shown
  return shown ++ (← p.carets layout n text)

/-- The lines of the excerpt. -/
def rows (p : Placement) (layout : Layout) (source : Source) : Except RenderFault String := do
  let first := max 1 (p.line - layout.context)
  let numbers := (List.range (p.last + 1 - first).toNat).map (first + ·)
  return String.join (← numbers.mapM (p.row layout source))

end Placement

/-- One section of a diagnostic. -/
def sectionText (layout : Layout) (source : Source) (d : Diagnostic) (p : Placement) :
    Section → Except RenderFault String
  | .message => .ok (paint layout (bold ++ red) "error" ++ ": " ++ d.message ++ "\n")
  | .location =>
      let name := if source.name.isEmpty then "<script>" else source.name
      .ok (blanks p.gutter ++ "--> " ++ name ++ ":" ++ toString p.line ++ ":" ++ toString p.column
        ++ "\n")
  | .excerpt => do return blanks p.gutter ++ " |\n" ++ (← p.rows layout source)
  | .path =>
      .ok (if d.path.isEmpty then "" else blanks p.gutter ++ " = global: " ++ d.path ++ "\n")

/-- A diagnostic with the sections of a layout, in their fixed order. -/
def diagnosticText (layout : Layout) (source : Source) (d : Diagnostic) :
    Except RenderFault String := do
  let p := Placement.of layout source d
  let shown := Section.all.filter layout.sections.contains
  return String.join (← shown.mapM (sectionText layout source d p))

/-- Diagnostics about a source, separated by blank lines. -/
def render (source : Option Source) (diagnostics : List Diagnostic) (request : LayoutRequest) :
    Except RenderFault String := do
  let layout ← request.layout.mapError .layout
  let some source := source | throw .noProgram
  return "\n".intercalate (← diagnostics.mapM (diagnosticText layout source))

end FrozenGlobals.Rendering
