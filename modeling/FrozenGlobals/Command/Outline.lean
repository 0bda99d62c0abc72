import FrozenGlobals.Command.Flags
import FrozenGlobals.Command.World
import FrozenGlobals.Script.Hoisting

/-!
# Outlines of scripts

The command `inspect-ast` prints the syntax tree of a script, one node on a line with its range and
the start of its text, and what is declared in each block.
-/

namespace FrozenGlobals.Command.Outline

open Script (Program Node Span)
open Text (Piece)

def flags : List Flag :=
  [⟨"e", "script source; read from the file argument when empty", .text ""⟩,
   ⟨"scopes", "print hoisted scopes", .switch true⟩]

/-- The mark of a text that was cut. -/
def ellipsis : Piece := .char '…'

/-- The first line of a text, at most forty characters of it, in quotes. -/
def snippet (text : List Piece) : String :=
  let line := text.takeWhile (· != .char '\n')
  let line := if line.length < text.length then line ++ [ellipsis] else line
  Text.quotePieces (
    if 40 < line.length then (line.take 40).map (fun p => .char p.toChar) ++ [ellipsis] else line)

/-- The line of a node; some nodes have no range. -/
def row (p : Program) (e : Script.OutlineEntry) : Option String := do
  let span ← e.span?
  return String.ofList (List.replicate (2 * e.depth) ' ') ++ e.kind.name ++ " " ++ span.render
    ++ " " ++ snippet (p.text span) ++ "\n"

/-- The lines of the syntax tree. -/
def rows (p : Program) : Option String := do
  let entries := (Node.program p.body).outline (fun _ => false) 0
  return String.join (← entries.mapM (row p))

/-- The line about what a block declares. -/
def scopeRow (p : Program) (t : Script.ScopeTemplate) : String :=
  let (line, column) := p.position t.start
  let place := if t.start < 0 then "program" else toString line ++ ":" ++ toString column
  "  " ++ place ++ " vars=[" ++ " ".intercalate t.vars ++ "] functions=["
    ++ " ".intercalate t.functionNames ++ "]\n"

/-- The lines about what is declared in each block. -/
def scopes (p : Program) : String :=
  "scopes:\n" ++ String.join (p.hoisting.sorted.map (scopeRow p))

/-- The outline of a named source. -/
def outline (withScopes : Bool) (name source : String) : Outcome :=
  match Program.parse name source with
  | .error e => if e.fault.isFatal then .crash e.message else .exit 1 "" (e.message ++ "\n")
  | .ok p =>
      match rows p with
      | none => .crash "a node has no range"
      | some text => .exit 0 (text ++ if withScopes then scopes p else "") ""

/-- Runs the command. -/
def run {m : Type → Type} [Monad m] (world : World m) (args : List String) : m Outcome := do
  match parse flags [] args with
  | .error fault => return .exit 2 "" (explain "inspect-ast" flags fault)
  | .ok a =>
      let withScopes := (a.switch? "scopes").getD true
      let source := (a.text? "e").getD ""
      if !source.isEmpty then return outline withScopes "<script>" source
      match a.rest with
      | [path] =>
          match ← world.file path with
          | .error fault => return .exit 2 "" (fault.message ++ "\n")
          | .ok source => return outline withScopes path source
      | _ => return .exit 2 "" "usage: inspect-ast [-e source | file.js]\n"

end FrozenGlobals.Command.Outline
