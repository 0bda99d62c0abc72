import FrozenGlobals.Analysis
import FrozenGlobals.Command.Settings
import FrozenGlobals.Document.Block

/-!
# Checking scripts

The command `nomut` analyzes scripts against the globals of a file and reports where they could
mutate one: as text for readers, or as one report on all scripts in JSON or YAML. It exits with one
if there is anything to report and with two if it fails.
-/

namespace FrozenGlobals.Command

/-- A diagnostic in a report. -/
def diagnosticJson (d : Diagnostic) : Json :=
  .object ([("message", .string d.message), ("start", .int d.span.start), ("end", .int d.span.stop)]
    ++ if d.path.isEmpty then [] else [("path", .string d.path)])

/-- Warnings in a report; none are left out. -/
def warningsJson (warnings : List String) : List (String × Json) :=
  if warnings.isEmpty then [] else [("warnings", .array (warnings.map .string))]

namespace Check

open Script (Program)

/-- The forms of a report. -/
inductive Format where
  | text | json | yaml
deriving DecidableEq, Repr, Inhabited

/-- The form a name stands for; text is the standard. -/
def Format.ofName? (name : String) : Option Format :=
  match name with
  | "" | "text" => some .text
  | "json" => some .json
  | "yaml" => some .yaml
  | _ => none

/-- What is the same for all scripts of a check. -/
structure Task where
  options : Options
  globals : List (String × Host.Tree)
  format : Format
  layout : Rendering.LayoutRequest
  labels : Log.Labels

/-- What a check has written and found so far. -/
structure Progress where
  output : String
  errors : String
  reports : List Json
  violations : Nat
deriving Inhabited

/-- How a check stops early. -/
inductive Stop where
  | failed (errors : String)
  | crashed (reason : String)

/-- The report on a script. -/
def fileReport (path : String) (r : Report) : Json :=
  .object ([("file", .string path), ("diagnostics", .array (r.diagnostics.map diagnosticJson))]
    ++ warningsJson r.warnings)

/-- Adds the outcome of a script to what was written so far. -/
def Task.record (task : Task) (path : String) (p : Program) (r : Report) (done : Progress) :
    Except Stop Progress :=
  let done := { done with violations := done.violations + r.diagnostics.length }
  if task.format == .text then
    match Rendering.render (some (.ofText p.name p.source)) r.diagnostics task.layout with
    | .error .negativeWidth => .error (.crashed (Rendering.RenderFault.message .negativeWidth))
    | .error fault => .error (.failed (fault.message ++ "\n"))
    | .ok text =>
        .ok { done with
          output := done.output ++ if text.isEmpty then "" else text ++ "\n"
          errors := done.errors ++
            if task.options.warnings then
              String.join (r.warnings.map fun w => path ++ ": warning: " ++ w ++ "\n")
            else "" }
  else .ok { done with reports := done.reports ++ [fileReport path r] }

/-- Analyzes the source of a script. What is logged is written before anything else. -/
def Task.analyze (task : Task) (path source : String) (done : Progress) :
    Except Stop Progress := do
  let p ← (Program.parse path source).mapError fun e =>
    if e.fault.isFatal then .crashed e.message else .failed (e.message ++ "\n")
  let (root, graph) := (Host.Tree.record task.globals).install .empty
  let setup : Setup :=
    { options := task.options, programs := #[.ofProgram p], graph, resolver := none
      canceled := false }
  let (result, s) := setup.analyze root
  let log := String.join (s.log.toList.map (·.render task.labels))
  match result with
  | .ok r => task.record path p r { done with errors := done.errors ++ log }
  | .error (.internal fault) => throw (.crashed fault.message)
  | .error .outOfFuel => throw (.crashed Failure.outOfFuel.message)
  | .error f => throw (.failed (log ++ path ++ ": " ++ f.message ++ "\n"))

/-- Reads and analyzes scripts in order. -/
def Task.runAll {m : Type → Type} [Monad m] (task : Task) (world : World m) :
    List String → Progress → m (Progress × Option Stop)
  | [], done => return (done, none)
  | path :: rest, done => do
      match ← world.file path with
      | .error fault => return (done, some (.failed (fault.message ++ "\n")))
      | .ok source =>
          match task.analyze path source done with
          | .ok done => task.runAll world rest done
          | .error stop => return (done, some stop)

/-- How a check ends: an early stop leaves what was written before it. -/
def Task.finish (task : Task) : Progress × Option Stop → Outcome
  | (_, some (.crashed reason)) => .crash reason
  | (done, some (.failed errors)) => .exit 2 done.output (done.errors ++ errors)
  | (done, none) =>
      let report := Json.array done.reports
      let output := match task.format with
        | .text => done.output
        | .json => report.pretty 0 ++ "\n"
        | .yaml => Document.blockText report
      .exit (if done.violations = 0 then 0 else 1) output done.errors

/-- Sets up the task that settings describe. -/
def task {m : Type → Type} [Monad m] (world : World m) (s : Settings) (paths : List String) :
    m (Except String Task) := do
  let some format := Format.ofName? s.format
    | return .error ("unknown format " ++ Text.quote s.format)
  if paths.isEmpty then return .error "usage: nomut [flags] script.js..."
  match ← s.loadGlobals world with
  | .error text => return .error text
  | .ok globals =>
      let layout := s.layoutRequest world
      match layout.layout with
      | .error fault => return .error fault.message
      | .ok _ =>
          return .ok { options := s.options, globals, format, layout, labels := world.labels }

/-- Runs the command. -/
def run {m : Type → Type} [Monad m] (world : World m) (args : List String) : m Outcome := do
  match parse Settings.flags [] args with
  | .error fault => return .exit 2 "" (explain "nomut" Settings.flags fault)
  | .ok a =>
      match ← Settings.load world a with
      | .error text => return .exit 2 "" (text ++ "\n")
      | .ok s =>
          match ← task world (s.override a) a.rest with
          | .error text => return .exit 2 "" (text ++ "\n")
          | .ok t => return t.finish (← t.runAll world a.rest ⟨"", "", [], 0⟩)

end Check

end FrozenGlobals.Command
