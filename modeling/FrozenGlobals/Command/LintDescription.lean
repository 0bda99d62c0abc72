import FrozenGlobals.Command.Check
import FrozenGlobals.Lint

/-!
# Checking the scripts of a description

The command `lint-openapi` checks the scripts in an OpenAPI description. It prints the description
with the outcomes written into it, and what was found as text for readers; or the findings as JSON.
-/

namespace FrozenGlobals.Command.LintDescription

open Lint (Finding LintReport)

def flags : List Flag :=
  [⟨"strict", "fail when a script cannot be analyzed", .switch true⟩,
   ⟨"json", "print the findings as JSON instead of the annotated document", .switch false⟩]

/-- A finding in a report. -/
def findingJson (f : Finding) : Json :=
  .object ([("location", .string f.location),
      ("diagnostics", .array (f.diagnostics.map diagnosticJson))]
    ++ warningsJson f.warnings
    ++ if f.rendered.isEmpty then [] else [("rendered", .string f.rendered)])

/-- What is found in a script, for readers. -/
def findingText (f : Finding) : String :=
  if f.rendered.isEmpty then "" else f.location ++ ":\n" ++ f.rendered ++ "\n"

/-- A text without the line breaks at its end. -/
def trimBreaks (text : String) : String :=
  String.ofList (text.toList.reverse.dropWhile (· == '\n')).reverse

/-- Writes a report. -/
def write (asJson : Bool) (r : LintReport) : Outcome :=
  let warnings := String.join (r.warnings.map fun w => "warning: " ++ w ++ "\n")
  let code := if r.violations = 0 then 0 else 1
  if asJson then
    .exit code ((Json.array (r.findings.map findingJson)).pretty 0 ++ "\n") warnings
  else .exit code r.text (String.join (r.findings.map findingText) ++ warnings)

/-- Checks the text of a description. -/
def check (strict asJson : Bool) (text : String) : Outcome :=
  match Lint.lint text strict with
  | .ok r => write asJson r
  | .error (.fatal fault) => .crash fault.message
  | .error fault => .exit 2 "" (trimBreaks fault.message ++ "\n")

/-- Runs the command. The description is read from a file, or from the input if none is named. -/
def run {m : Type → Type} [Monad m] (world : World m) (args : List String) : m Outcome := do
  match parse flags [] args with
  | .error fault => return .exit 2 "" (explain "lint-openapi" flags fault)
  | .ok a =>
      let strict := (a.switch? "strict").getD true
      let asJson := (a.switch? "json").getD false
      let path := a.rest.head?.getD "-"
      if path == "-" then return check strict asJson (← world.input)
      match ← world.file path with
      | .error fault => return .exit 2 "" (fault.message ++ "\n")
      | .ok text => return check strict asJson text

end FrozenGlobals.Command.LintDescription
