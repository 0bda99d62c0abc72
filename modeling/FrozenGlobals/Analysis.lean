import FrozenGlobals.Analysis.Expression
import FrozenGlobals.Analysis.Statement
import FrozenGlobals.Script.Node.Height

/-!
# Analyses

An analysis runs a script abstractly against its globals and collects every place where the script
could mutate one of them. `Setup.evaluate` gives what the script evaluates to and the final state,
and `Setup.analyze` the report.

Evaluation recurses into parts of the syntax and, through calls, into other functions. The nesting
of calls is limited, so the levels of recursion are too: `Setup.fuel` bounds them.
-/

namespace FrozenGlobals

open Script (Node)

/-- An evaluator whose activities nest at most `fuel` deep. -/
def Evaluator.ofFuel : Nat → Evaluator
  | 0 =>
      { resolve := fun _ _ => throw .outOfFuel
        bind := fun _ _ _ _ => throw .outOfFuel
        walk := fun _ _ _ => throw .outOfFuel
        invoke := fun _ _ => throw .outOfFuel }
  | fuel + 1 =>
      { resolve := fun e stack => (ofFuel fuel).resolveStep e stack
        bind := fun how target init stack => (ofFuel fuel).bindStep how target init stack
        walk := fun fold s stack => (ofFuel fuel).walkStep fold s stack
        invoke := fun v c => (ofFuel fuel).invokeStep v c }

namespace Setup

/-- How many calls may nest. -/
def callLevels (setup : Setup) : Nat :=
  if 0 ≤ setup.options.maxCallDepth then setup.options.maxCallDepth.toNat else hardCallDepth

/-- How many runs of external code may nest. -/
def callbackLevels (setup : Setup) : Nat :=
  if setup.resolver.isSome then setup.callLevels + Nat.pow 2 40 else 0

/-- The height of the highest program. -/
def height (setup : Setup) : Nat :=
  (setup.programs.toList.map fun p => (Node.program p.program.body).height).foldl max 0

/-- Levels of recursion enough for an evaluation: each function body and each program needs no more
than its height and a few steps for the call itself. -/
def fuel (setup : Setup) : Nat :=
  (setup.callLevels + setup.callbackLevels + 2) * (setup.height + 16)

/-- The evaluator of an analysis. -/
def evaluator (setup : Setup) : Evaluator := .ofFuel setup.fuel

end Setup

/-- The outcome of a computation, with the state it ended in. -/
def Run.outcome {α : Type} (x : Run α) (setup : Setup) : Except Failure α × State :=
  match x setup .start with
  | .ok a s => (.ok a, s)
  | .error e s => (.error e, s)

/-- What a program evaluates to: the frame of its globals and its value. -/
structure Evaluation where
  frame : Nat
  value : Reference
deriving Inhabited

namespace Setup

open Run

/-- Runs the program against its globals. -/
def evaluation (setup : Setup) (globals : Host.Datum) : Run Evaluation := do
  if setup.programs.isEmpty then throw .noProgram
  let frame ← newGlobals globals
  return ⟨frame, ← setup.evaluator.runProgram 0 [frame]⟩

/-- Runs the program against its globals, and reports the mutations. -/
def report (setup : Setup) (globals : Host.Datum) : Run Report := do
  match setup.programs[0]? with
  | none => throw .invalidProgram
  | some main =>
      let frame ← newGlobals globals
      log .info fun s => ("Starting analysis",
        [("globals", .ofNat (s.heap.frame frame).bindings.length),
         ("containers", .ofNat s.provenance.size),
         ("statements", .ofNat main.program.body.length)])
      let _ ← setup.evaluator.runProgram 0 [frame]
      let s ← get
      let diagnostics := Diagnostic.dedupe s.diagnostics.toList
      log .info fun s => ("Analysis complete",
        [("raw", .ofNat s.diagnostics.size), ("diagnostics", .ofNat diagnostics.length),
         ("warnings", .ofNat s.warnings.size), ("calls", .ofNat s.calls), ("elapsed", .elapsed)])
      return ⟨diagnostics, s.warnings.toList⟩

/-- What the program evaluates to, and the state afterwards. -/
def evaluate (setup : Setup) (globals : Host.Datum) : Except Failure Evaluation × State :=
  (setup.evaluation globals).outcome setup

/-- The report on the program, and the state afterwards. -/
def analyze (setup : Setup) (globals : Host.Datum) : Except Failure Report × State :=
  (setup.report globals).outcome setup

end Setup

end FrozenGlobals
