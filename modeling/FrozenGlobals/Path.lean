import FrozenGlobals.Value

/-!
# Paths

Where a value stands in the globals: a list of property names and wildcards from the root. A path is
written as it would be in a script, `a.b`, `a["x y"]` or `a[*]`.
-/

namespace FrozenGlobals

/-- One step from a value to a part of it. -/
inductive Segment where
  | key (name : String)
  | any
deriving DecidableEq, Repr, Inhabited

/-- A place in the globals, from the root. -/
abbrev Path := List Segment

namespace Segment

/-- Names that can stand behind a point: letters, digits and underscores. -/
def isWord (name : String) : Bool :=
  !name.isEmpty && name.toList.all fun c => c.isAlphanum || c == '_'

/-- A segment with the mark in front of it. -/
def render : Segment → String
  | .any => "[*]"
  | .key name => if isWord name then "." ++ name else "[" ++ Text.quote name ++ "]"

/-- The bare text of a segment. -/
def text : Segment → String
  | .any => "*"
  | .key name => name

/-- The step a key takes. -/
def ofKey : Key → Segment
  | .any => .any
  | .name text => .key text

end Segment

namespace Path

/-- The text of a path. A point at its front is left out. -/
def render (p : Path) : String :=
  let text := String.join (p.map Segment.render)
  match text.toList with
  | '.' :: rest => String.ofList rest
  | _ => text

/-- The bare texts of the segments. -/
def keys (p : Path) : List String := p.map Segment.text

/-- The path one step further. -/
def child (p : Path) (s : Segment) : Path := p ++ [s]

end Path

/-- The path under which each container of the globals was found first. -/
structure Provenance where
  entries : List (Value × Path)
deriving DecidableEq, Repr, Inhabited

namespace Provenance

def empty : Provenance := ⟨[]⟩

/-- The path of a container. -/
def find? (p : Provenance) (v : Value) : Option Path :=
  (p.entries.find? fun (w, _) => w == v).map (·.2)

/-- The path of the first possibility that has one. -/
def findAny? (p : Provenance) (r : Reference) : Option Path :=
  r.values.findSome? p.find?

/-- Remembers the path of a container unless one is known. -/
def record (p : Provenance) (v : Value) (path : Path) : Provenance :=
  if (p.find? v).isSome then p else ⟨p.entries ++ [(v, path)]⟩

def size (p : Provenance) : Nat := p.entries.length

end Provenance

end FrozenGlobals
