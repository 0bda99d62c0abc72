import FrozenGlobals.Document
import FrozenGlobals.Script.Program
import FrozenGlobals.Text.Blank
import FrozenGlobals.Text.Quoted

/-!
# Scripts attached to schemas

A schema carries a script under the key `x-no-global-mutation`: the source itself, or a mapping with
the source under `script` and, under `handlers`, the sources of functions registered for members of
the globals.
-/

namespace FrozenGlobals.Lint

open Script (Program ParseError)

/-- The key under which a schema carries a script. -/
def extensionKey : String := "x-no-global-mutation"

/-- A script and the handlers registered for members of the globals, by the text of their path. -/
structure Extension where
  program : Program
  handlers : List (String × List Program)
deriving Inhabited

/-- Why the value of the key is no script. -/
inductive ExtensionFault where
  | empty
  | wrongKind
  | unknownKey (key : String)
  | noScript
  | handlersKind
  | emptyPath
  | notText (name : String)
  | blank (name : String)
  | invalid (name : String) (cause : ParseError)
deriving DecidableEq, Repr, Inhabited

def ExtensionFault.message (f : ExtensionFault) : String :=
  extensionKey ++ match f with
    | .empty => " cannot be empty"
    | .wrongKind => " must be a string or an object"
    | .unknownKey key => ": unknown key " ++ Text.quote key
    | .noScript => " requires 'script' key"
    | .handlersKind => ": 'handlers' must be an object"
    | .emptyPath => ": handler path cannot be empty"
    | .notText name => ": '" ++ name ++ "' value must be a string"
    | .blank name => ": '" ++ name ++ "' requires a script"
    | .invalid name cause => ": '" ++ name ++ "' is an invalid script: " ++ cause.message

namespace Extension

/-- Reads a script from a scalar, without the blanks around it. -/
def script (name : String) : Document → Except ExtensionFault Program
  | .scalar _ text _ =>
      let source := Text.trim text
      if source.isEmpty then .error (.blank name)
      else (Program.parse name source).mapError (.invalid name)
  | _ => .error (.notText name)

/-- Registers a handler behind those of the same path. -/
def register (path : String) (p : Program) :
    List (String × List Program) → List (String × List Program)
  | [] => [(path, [p])]
  | (other, ps) :: rest =>
      if other == path then (other, ps ++ [p]) :: rest else (other, ps) :: register path p rest

/-- Reads the handlers of one path, counted from `index`. -/
def readSources (path : String) :
    (index : Nat) → List Document → List (String × List Program) →
      Except ExtensionFault (List (String × List Program))
  | _, [], done => .ok done
  | index, d :: rest, done => do
      let p ← script ("handlers." ++ path ++ "[" ++ toString index ++ "]") d
      readSources path (index + 1) rest (register path p done)

/-- Reads handlers: for each path one source or a sequence of them. -/
def readHandlers :
    List (String × Document) → List (String × List Program) →
      Except ExtensionFault (List (String × List Program))
  | [], done => .ok done
  | (key, d) :: rest, done => do
      let path := Text.trim key
      if path.isEmpty then throw .emptyPath
      let sources := if d.isSequence then d.items else [d]
      readHandlers rest (← readSources path 0 sources done)

/-- What the entries of an extension have given so far. -/
structure Draft where
  program : Option Program
  handlers : List (String × List Program)

/-- Reads the entries of an extension in order. -/
def readEntries : List (String × Document) → Draft → Except ExtensionFault Draft
  | [], draft => .ok draft
  | (key, d) :: rest, draft => do
      if key == "script" then
        readEntries rest { draft with program := some (← script "script" d) }
      else if key == "handlers" then
        if !d.isMapping then throw .handlersKind
        readEntries rest { draft with handlers := ← readHandlers d.entries [] }
      else throw (.unknownKey key)

/-- The script and handlers that the value of the key gives. -/
def read : Option Document → Except ExtensionFault Extension
  | none => .error .empty
  | some (.scalar line text quoted) => do
      return ⟨← script "script" (.scalar line text quoted), []⟩
  | some (.mapping _ entries) => do
      let draft ← readEntries entries ⟨none, []⟩
      match draft.program with
      | some program => return ⟨program, draft.handlers⟩
      | none => throw .noScript
  | some (.sequence _ _) => .error .wrongKind

/-- Handlers by ascending path. -/
def sortedHandlers (e : Extension) : List (String × List Program) :=
  e.handlers.mergeSort fun a b => a.1 ≤ b.1

end Extension

end FrozenGlobals.Lint
