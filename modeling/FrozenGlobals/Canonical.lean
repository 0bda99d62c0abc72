import FrozenGlobals.Heap
import FrozenGlobals.Text.Sha256

/-!
# Canonical text

References written so that structurally equal ones read the same: possibilities are sorted and
written once, object keys are sorted, and a container that is open already is written as the number
it was opened under. Nesting is cut at a limit.
-/

namespace FrozenGlobals

/-- Texts in ascending order, each once. -/
def sortedOnce (texts : List String) : List String :=
  (texts.foldl (fun done t => if done.contains t then done else t :: done) []).mergeSort
    fun a b => a ≤ b

namespace Heap

/-- The containers being written, with their numbers. -/
abbrev Open := List (Value × Nat)

/-- What is written in place of a container that is open or nested too deeply. -/
def truncationMark : String := "…"

/-- Writes the parts of a container one after another, passing on the next number. -/
def writeParts {α : Type} (write : Nat → α → String × Nat) (next : Nat) :
    List α → List String × Nat
  | [] => ([], next)
  | a :: rest =>
      let (text, next) := write next a
      let (texts, next) := writeParts write next rest
      (text :: texts, next)

/-- Writes a set of possibilities, given how each is written. -/
def writeReference (write : Nat → Value → String × Nat) (next : Nat) (r : Reference) :
    String × Nat :=
  let (parts, next) := writeParts write next r.values
  ("(" ++ "|".intercalate (sortedOnce parts) ++ ")", next)

/-- A function by its name and, if it has code, the range of its literal. -/
def functionText (h : Heap) (id : Nat) : String :=
  match h.closure? id with
  | none => "fn"
  | some c =>
      "fn" ++ (if c.name.isEmpty then "" else " " ++ c.name)
        ++ (match c.code with
            | some code => "@" ++ code.literal.span.render
            | none => "")

/-- Writes a value nested at most `limit` deep; `next` is the next free number. -/
def writeValue (h : Heap) : (limit : Nat) → (opened : Open) → (next : Nat) → Value → String × Nat
  | 0, _, next, _ => (truncationMark, next)
  | limit + 1, opened, next, v =>
      match v with
      | .primitive p => (p.render, next)
      | .intrinsic i => ("%" ++ i.render, next)
      | .builtin b => ("&" ++ b.render, next)
      | .function id => (h.functionText id, next)
      | .object id =>
          match opened.lookup v with
          | some number => ("#" ++ toString number, next)
          | none =>
              let opened := (v, next) :: opened
              let cell := h.object id
              let reference (next : Nat) (r : Reference) :=
                writeReference (writeValue h limit opened) next r
              let keys := cell.keys.mergeSort fun a b => a ≤ b
              let (parts, next) := writeParts (fun next key =>
                let (text, next) := reference next ((cell.slot? key).getD .empty)
                (Text.quote key ++ ":" ++ text, next)) (next + 1) keys
              match cell.wildcard with
              | none => ("\x7b" ++ ",".intercalate parts ++ "\x7d", next)
              | some r =>
                  let (text, next) := reference next r
                  ("\x7b" ++ ",".intercalate (parts ++ ["*:" ++ text]) ++ "\x7d", next)
      | .array id =>
          match opened.lookup v with
          | some number => ("#" ++ toString number, next)
          | none =>
              let opened := (v, next) :: opened
              let cell := h.array id
              let (text, next) :=
                writeReference (writeValue h limit opened) (next + 1) cell.elements
              ("[" ++ text ++ "]" ++ (if cell.named then "+" else ""), next)

/-- The canonical text of a reference, nested at most `limit` deep. -/
def textWithin (h : Heap) (limit : Nat) (r : Reference) : String :=
  (writeReference (h.writeValue limit []) 0 r).1

/-- How deep canonical text is nested. -/
def nestingLimit : Nat := 1000

/-- The canonical text of a reference. -/
def text (h : Heap) (r : Reference) : String := h.textWithin nestingLimit r

/-- The digest of the canonical text. -/
def fingerprint (h : Heap) (r : Reference) : String :=
  Text.Sha256.digest (h.text r).toUTF8.toList

/-- Whether two references are structurally equal. -/
def equal (h : Heap) (r s : Reference) : Bool := h.fingerprint r == h.fingerprint s

/-- A value by its name, containers not opened. -/
def valueSummary (h : Heap) : Value → String
  | .primitive p => p.render
  | .intrinsic i => i.render
  | .builtin b => b.render
  | .function id =>
      match h.closure? id with
      | some c => if c.name.isEmpty then "fn" else "fn " ++ c.name
      | none => "fn"
  | v => v.kind.name

/-- A reference in short: at most `limit` possibilities by name, all of them if it is not positive,
and the number of those left out. -/
def summary (h : Heap) (limit : Int) (r : Reference) : String :=
  let items := r.values.map h.valueSummary
  let shown :=
    if 0 < limit ∧ limit.toNat < items.length then
      items.take limit.toNat ++ ["+" ++ toString (items.length - limit.toNat)]
    else items
  "\x7b" ++ ",".intercalate shown ++ "\x7d"

end Heap

end FrozenGlobals
