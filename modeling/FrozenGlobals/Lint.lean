import FrozenGlobals.Analysis
import FrozenGlobals.Document.Json
import FrozenGlobals.Document.Reader
import FrozenGlobals.Lint.Advice
import FrozenGlobals.Lint.Extension
import FrozenGlobals.OpenApi
import FrozenGlobals.Rendering
import FrozenGlobals.Schema.Globals

/-!
# Checking interface descriptions

Every schema of an OpenAPI description that carries a script is checked: the script is analyzed
against the globals the schema stands for, with its handlers as the implementations of the members
they are registered for. What is found is reported, and written into the description beside the
script.

In strict mode a script that cannot be analyzed fails the whole check; otherwise it is a warning.
-/

namespace FrozenGlobals.Lint

open Script (Program)
open Document (Pointer)

/-- The key under which the outcome is written beside a script. -/
def resultKey : String := "x-no-global-mutation-result"

/-- Why a script cannot be checked. -/
inductive ScriptFault where
  | extension (fault : ExtensionFault)
  | globals (fault : SchemaFault)
  | analysis (failure : Failure)
  | rendering (fault : Rendering.RenderFault)
deriving DecidableEq, Repr, Inhabited

namespace ScriptFault

def message : ScriptFault → String
  | .extension fault => fault.message
  | .globals fault => fault.message
  | .analysis failure => "analysis failed: " ++ failure.message
  | .rendering fault => fault.message

/-- The fault lies in the analyzer and ends the whole check. -/
def isFatal : ScriptFault → Bool
  | .analysis (.internal _) | .analysis .outOfFuel | .rendering .negativeWidth => true
  | .extension (.invalid _ cause) => cause.fault.isFatal
  | _ => false

end ScriptFault

/-- The outcome of one script, and where its schema stands. -/
structure Finding where
  location : String
  diagnostics : List Diagnostic
  warnings : List String
  /-- The diagnostics as a reader sees them. -/
  rendered : String
deriving DecidableEq, Repr, Inhabited

/-! ## One script -/

/-- What the analysis of a script is given, and its globals. -/
def Extension.setup (e : Extension) (options : Options) (globals : List (String × Host.Tree)) :
    Setup × Host.Datum :=
  let (root, graph) := (Host.Tree.record globals).install .empty
  let handlers := (e.handlers.map fun (path, ps) => ps.map (path, ·)).flatten
  let numbered := (List.range handlers.length).zip (handlers.map (·.1))
  let resolver : Resolver := fun path =>
    .ok ((numbered.filter fun (_, p) => p == path.render).map fun (i, _) => ⟨some (i + 1), root⟩)
  ({ options, graph
     programs := ((e.program :: handlers.map (·.2)).map Prepared.ofProgram).toArray
     resolver := if handlers.isEmpty then none else some resolver
     canceled := false }, root)

/-- Diagnostics as they are shown when nothing else is asked for. -/
def render (p : Program) (diagnostics : List Diagnostic) : Except Rendering.RenderFault String :=
  if diagnostics.isEmpty then .ok ""
  else
    Rendering.render (some (.ofText p.name p.source)) diagnostics
      { sections := [], context := 0, tabWidth := 0, color := false }

/-- Checks the script a schema carries. -/
def checkSchema (options : Options) (pointer : Pointer) (d : Document) :
    Except ScriptFault (Program × Finding) := do
  let e ← (Extension.read (d.field? extensionKey)).mapError .extension
  let globals ← ((Schema.ofDocument d).globals options.maxSchemaDepth).mapError .globals
  let (setup, root) := e.setup options globals
  let report ← (setup.analyze root).1.mapError .analysis
  let rendered ← (render e.program report.diagnostics).mapError .rendering
  return (e.program,
    { location := pointer.render, diagnostics := report.diagnostics, warnings := report.warnings
      rendered })

/-- A diagnostic as it is written into a description. -/
def remark (p : Program) (d : Diagnostic) : Document :=
  let (line, column) := p.position d.span.start
  let text (s : String) : Document := .scalar 0 s true
  let number (n : Nat) : Document := .scalar 0 (toString n) false
  .mapping 0 ([("message", text d.message)]
    ++ (if d.path.isEmpty then [] else [("path", text d.path)])
    ++ [("line", number line), ("column", number column)])

/-- Writes the diagnostics of a script into the schema that carries it. -/
def annotate (p : Program) (diagnostics : List Diagnostic) (pointer : Pointer) (d : Document) :
    Document :=
  d.modifyAt (Document.setField resultKey (.sequence 0 (diagnostics.map (remark p)))) pointer

/-! ## A description -/

/-- What a check has found. -/
structure LintReport where
  /-- The description with the outcomes written into it. -/
  document : Document
  findings : List Finding
  /-- Messages about scripts that could not be checked. -/
  warnings : List String
deriving Inhabited

/-- The number of diagnostics. -/
def LintReport.violations (r : LintReport) : Nat :=
  r.findings.foldl (fun n f => n + f.diagnostics.length) 0

/-- The text of the description. -/
def LintReport.text (r : LintReport) : String := r.document.toJson.pretty 0 ++ "\n"

/-- Why a check fails. -/
inductive Fault where
  | malformed
  | invalid (defect : OpenApi.Defect)
  /-- Scripts could not be checked. -/
  | unchecked (messages : List String)
  | fatal (fault : ScriptFault)
deriving DecidableEq, Repr, Inhabited

def Fault.message : Fault → String
  | .malformed => "failed to parse OpenAPI document: the text is not well-formed"
  | .invalid defect => "OpenAPI validation failed: " ++ defect.message
  | .unchecked messages => advise messages
  | .fatal fault => fault.message

/-- Adds the outcome of one schema to a report. -/
def addOutcome (options : Options) (r : LintReport) (pointer : Pointer) (d : Document) :
    Except ScriptFault LintReport :=
  match checkSchema options pointer d with
  | .ok (p, finding) =>
      .ok { r with
        document := annotate p finding.diagnostics pointer r.document
        findings := r.findings ++ [finding] }
  | .error fault =>
      if fault.isFatal then .error fault
      else .ok { r with warnings := r.warnings ++ [pointer.render ++ ": " ++ fault.message] }

/-- Checks every script in a description. -/
def lintDocument (options : Options) (d : Document) : Except ScriptFault LintReport :=
  let carriers := (OpenApi.schemas .description d).filter fun (_, s) =>
    (s.field? extensionKey).isSome
  carriers.foldlM (fun r (pointer, s) => addOutcome options r pointer s) ⟨d, [], []⟩

/-- Checks every script in the text of a description. -/
def lint (text : String) (strict : Bool) : Except Fault LintReport :=
  match Document.read text with
  | .nothing | .malformed => .error .malformed
  | .node d =>
      match OpenApi.defect? d with
      | some defect => .error (.invalid defect)
      | none =>
          match lintDocument { Options.standard with strict } d with
          | .error fault => .error (.fatal fault)
          | .ok r =>
              if strict && !r.warnings.isEmpty then .error (.unchecked r.warnings) else .ok r

end FrozenGlobals.Lint
