import FrozenGlobals.Document

/-!
# Pointers into documents

A pointer names a node of a document by the keys and positions that lead to it.
-/

namespace FrozenGlobals.Document

/-- One step down a document. -/
inductive Step where
  | key (name : String)
  | index (i : Nat)
deriving DecidableEq, Repr, Inhabited

/-- The way from the root to a node. -/
abbrev Pointer := List Step

/-- A name inside a pointer, where slashes separate and tildes escape. -/
def escapeName (name : String) : String :=
  String.join (name.toList.map fun c =>
    if c == '~' then "~0" else if c == '/' then "~1" else c.toString)

def Step.render : Step → String
  | .key name => "/" ++ escapeName name
  | .index i => "/" ++ toString i

def Pointer.render (p : Pointer) : String := String.join (p.map Step.render)

/-- Changes the node a pointer names. -/
def modifyAt (f : Document → Document) : Pointer → Document → Document
  | [], d => f d
  | .key name :: rest, .mapping line entries =>
      .mapping line (entries.map fun (key, d) =>
        if key == name then (key, modifyAt f rest d) else (key, d))
  | .index i :: rest, .sequence line items =>
      .sequence line (items.modify i (modifyAt f rest))
  | _, d => d

/-- Sets an entry of a mapping: in its place if the key is there, and at the end otherwise. -/
def setField (key : String) (value : Document) : Document → Document
  | .mapping line entries =>
      .mapping line (
        if entries.any fun (k, _) => k == key then
          entries.map fun (k, d) => if k == key then (k, value) else (k, d)
        else entries ++ [(key, value)])
  | d => d

end FrozenGlobals.Document
