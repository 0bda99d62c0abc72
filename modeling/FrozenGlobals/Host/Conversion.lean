import FrozenGlobals.Heap
import FrozenGlobals.Host

/-!
# Globals from host data

Host data becomes abstract values: objects and arrays get cells of their own and their path is
recorded, scalars become primitives. Objects are visited by ascending name, depth first, and a
shared container becomes one cell, found under the first path that leads to it.

A container on the way to itself is reached through a shared one, which is not entered twice; so the
nesting of a conversion is bounded, and `Host.Conversion.depth` gives levels enough.
-/

namespace FrozenGlobals.Host

/-- What conversions have made so far. -/
structure Conversion where
  heap : Heap
  provenance : Provenance
  /-- Shared containers with their cells. -/
  known : List (Nat × Value)
deriving Inhabited

namespace Conversion

def empty : Conversion := ⟨.empty, .empty, []⟩

/-- Levels enough for all containers of a graph. -/
def depth (g : Graph) : Nat := (g.containers.size + 1) * (g.containers.size + 1)

/-- A scalar as a primitive. -/
def scalar : Datum → Primitive
  | .null => .null
  | .bool value => .bool value
  | .number value _ => .ofNumber value
  | .numeral (some value) _ => .ofNumber value
  | .numeral none _ => .any
  | .string text => .string text
  | .opaqueValue _ | .container _ => .any

/-- Remembers the cell of a container. -/
def remember (c : Conversion) (shared : Bool) (id : Nat) (v : Value) (path : Path) : Conversion :=
  { c with
    provenance := c.provenance.record v path
    known := if shared then (id, v) :: c.known else c.known }

/-- Adds an empty object for a container. -/
def openObject (c : Conversion) (shared : Bool) (id : Nat) (path : Path) : Value × Conversion :=
  let (v, heap) := c.heap.addObject .empty
  (v, { c with heap }.remember shared id v path)

/-- Adds an empty array for a container. -/
def openArray (c : Conversion) (shared : Bool) (id : Nat) (path : Path) : Value × Conversion :=
  let (v, heap) := c.heap.addArray .empty
  (v, { c with heap }.remember shared id v path)

/-- Writes a converted part into its container. -/
def write (c : Conversion) (v : Value) (k : Key) (part : Value) : Conversion :=
  { c with heap := c.heap.setKeyOf k (.single part) v }

/-- Converts data found at a path. -/
def convert (g : Graph) : (levels : Nat) → Conversion → Path → Datum → Value × Conversion
  | 0, c, _, _ => (.primitive .any, c)
  | levels + 1, c, path, .container id =>
      match c.known.lookup id with
      | some v => (v, c)
      | none =>
          match g.find? id with
          | some (.object entries absent) =>
              let (v, c) := c.openObject (!absent) id path
              let c := (Graph.sortedEntries entries).foldl (fun c (name, part) =>
                let (w, c) := convert g levels c (path.child (.key name)) part
                c.write v (.name name) w) c
              (v, c)
          | some (.array items shared) =>
              let (v, c) := c.openArray shared id path
              let c := items.foldl (fun c part =>
                let (w, c) := convert g levels c (path.child .any) part
                c.write v .any w) c
              (v, c)
          | some (.keyedBy _) | none => (.primitive .any, c)
  | _ + 1, c, _, d => (.primitive (scalar d), c)

/-- Adds the frame of the globals, one name for each entry. The root itself has no path. -/
def frame (g : Graph) (c : Conversion) (entries : List (String × Datum)) : Nat × Conversion :=
  let (f, c) := entries.foldl (fun ((f, c) : Frame × Conversion) (name, part) =>
    let (v, c) := convert g (depth g) c [.key name] part
    (f.define name (.known (.single v)), c)) (Frame.empty, c)
  let (id, heap) := c.heap.addFrame f
  (id, { c with heap })

end Conversion

end FrozenGlobals.Host
