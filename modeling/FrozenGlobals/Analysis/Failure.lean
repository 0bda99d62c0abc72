import FrozenGlobals.Host
import FrozenGlobals.Script.Node

/-!
# Failures of an analysis

Why an analysis ends without a result. The wording of each cause stands in `Failure.message`.
-/

namespace FrozenGlobals

open Script (Span NodeKind)

/-- The kinds of constructs that cannot be modelled. -/
inductive UnsupportedCode where
  | restBinding | assignBinding | spreadArgument | paramBinding | assignTarget
  /-- A code with no explanation. -/
  | unlisted (name : String)
deriving DecidableEq, Repr, Inhabited

namespace UnsupportedCode

def name : UnsupportedCode → String
  | .restBinding => "REST_BINDING_ERR"
  | .assignBinding => "ASSIGN_BINDING_ERR"
  | .spreadArgument => "SPREAD_ARGUMENT_ERR"
  | .paramBinding => "PARAM_BINDING_ERR"
  | .assignTarget => "ASSIGN_TARGET_ERR"
  | .unlisted name => name

/-- The code with a given name. -/
def ofName (name : String) : UnsupportedCode :=
  ([.restBinding, .assignBinding, .spreadArgument, .paramBinding, .assignTarget].find?
    fun c => UnsupportedCode.name c == name).getD (.unlisted name)

def explanation : UnsupportedCode → String
  | .restBinding => "Unknown rest format, expected Identifier"
  | .assignBinding => "Unknown assignment format, expected Identifier"
  | .spreadArgument => "Spread arguments are not supported"
  | .paramBinding => "Unknown parameter format, expected Identifier"
  | .assignTarget => "Unknown assignment target, expected Identifier or member expression"
  | .unlisted _ => "unsupported construct"

end UnsupportedCode

/-- A construct that cannot be modelled, and where it stands. -/
structure Unsupported where
  code : UnsupportedCode
  kind : NodeKind
  span : Span
deriving DecidableEq, Repr, Inhabited

def Unsupported.message (u : Unsupported) : String :=
  u.code.name ++ ": " ++ u.code.explanation ++ " (" ++ u.kind.name ++ " at "
    ++ toString u.span.start ++ "-" ++ toString u.span.stop ++ ")"

/-- Disagreements between the hoisting pass and the evaluator. -/
inductive InternalFault where
  | noScope (start : Int)
  | noProgram
  | scopeUnderflow
deriving DecidableEq, Repr, Inhabited

def InternalFault.message : InternalFault → String
  | .noScope start => "no hoisted scope for block at offset " ++ toString start
  | .noProgram => "no hoisted scopes for the current program"
  | .scopeUnderflow => "scope stack underflow"

/-- Why an analysis ends without a result. -/
inductive Failure where
  | unsupported (u : Unsupported)
  | callDepthExceeded (depth : Nat) (span : Span)
  | invalidGlobals (fault : Host.GlobalsFault)
  | canceled
  /-- There is no program to run. -/
  | noProgram
  /-- There is no program to analyze. -/
  | invalidProgram
  /-- The resolver of callbacks failed. -/
  | resolver (text : String)
  /-- An implementation of a callback has no program. -/
  | missingProgram (index : Nat)
  /-- A failure while callbacks of a path were followed. -/
  | inCallbacks (path : String) (cause : Failure)
  | internal (fault : InternalFault)
  | outOfFuel
deriving DecidableEq, Repr, Inhabited

namespace Failure

def message : Failure → String
  | .unsupported u => u.message
  | .callDepthExceeded depth span =>
      "call depth exceeded: " ++ toString depth ++ " nested calls at " ++ span.render
  | .invalidGlobals fault => fault.message
  | .canceled => "context canceled"
  | .noProgram => "program cannot be nil"
  | .invalidProgram => "invalid program: program cannot be nil"
  | .resolver text => text
  | .missingProgram index => "implementation " ++ toString index ++ " has no program"
  | .inCallbacks path cause =>
      "failed to resolve callbacks for " ++ path ++ ": " ++ cause.message
  | .internal fault => fault.message
  | .outOfFuel => "the analysis took too many steps"

/-- The cause under all notes about callbacks. -/
def root : Failure → Failure
  | .inCallbacks _ cause => cause.root
  | f => f

/-- Notes that a failure arose while callbacks of a path were followed. -/
def within (path : String) : Failure → Failure
  | .internal fault => .internal fault
  | .outOfFuel => .outOfFuel
  | cause => .inCallbacks path cause

end Failure

end FrozenGlobals
