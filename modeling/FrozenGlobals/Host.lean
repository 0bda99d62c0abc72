import FrozenGlobals.Number.Decimal

/-!
# Host data

The data a host program exposes to scripts as globals: a graph of objects and arrays whose leaves
are scalars. Containers are named by their place in the graph, so that data can be shared and
cyclic.
-/

namespace FrozenGlobals.Host

open Number (Binary64)

/-- A value of the host. -/
inductive Datum where
  | null
  | bool (value : Bool)
  /-- A number, and its text in the host's own notation. -/
  | number (value : Binary64) (text : String)
  /-- A number kept as text, if it can be read. -/
  | numeral (value : Option Binary64) (text : String)
  | string (text : String)
  /-- Something without a counterpart in scripts. -/
  | opaqueValue (text : String)
  | container (id : Nat)
deriving DecidableEq, Repr, Inhabited

/-- A container of the host. Scripts see one container wherever `shared` data occurs; other data
is copied at each occurrence. -/
inductive Container where
  /-- Properties by name; absent data is an object that was never created. -/
  | object (entries : List (String × Datum)) (absent : Bool)
  | array (items : List Datum) (shared : Bool)
  /-- A mapping whose keys are not names, with the kind of its keys. -/
  | keyedBy (kind : String)
deriving DecidableEq, Repr, Inhabited

/-- All containers of the host. -/
structure Graph where
  containers : Array Container
deriving Inhabited

namespace Graph

def empty : Graph := ⟨#[]⟩

/-- Adds a container. -/
def add (g : Graph) (c : Container) : Datum × Graph :=
  (.container g.containers.size, ⟨g.containers.push c⟩)

def find? (g : Graph) (id : Nat) : Option Container := g.containers[id]?

/-- The entries of an object by ascending name. The last entry of a name counts. -/
def sortedEntries (entries : List (String × Datum)) : List (String × Datum) :=
  (entries.reverse.foldl (fun done (e : String × Datum) =>
    if done.any (·.1 == e.1) then done else e :: done) []).mergeSort fun a b => a.1 ≤ b.1

/-- The text of host data nested at most `depth` deep. -/
def render (g : Graph) : (depth : Nat) → Datum → String
  | _, .null => "<nil>"
  | _, .bool value => if value then "true" else "false"
  | _, .number _ text => text
  | _, .numeral _ text => text
  | _, .string text => text
  | _, .opaqueValue text => text
  | 0, .container _ => ""
  | depth + 1, .container id =>
      match g.find? id with
      | some (.object entries _) =>
          "map[" ++ " ".intercalate ((sortedEntries entries).map fun (k, v) =>
            k ++ ":" ++ render g depth v) ++ "]"
      | some (.array items _) => "[" ++ " ".intercalate (items.map (render g depth)) ++ "]"
      | some (.keyedBy _) | none => "map[]"

end Graph

/-- Why host data cannot be used as globals. -/
inductive GlobalsFault where
  | null
  | keyedBy (kind : String)
  | array (text : String)
  | other (text : String)
  /-- No schema describes the globals. -/
  | noSchema
  /-- The schema describes data of another kind. -/
  | wrongKind (kind : String)
deriving DecidableEq, Repr, Inhabited

namespace GlobalsFault

def message (f : GlobalsFault) : String :=
  "invalid globals: " ++ match f with
    | .null => "Expect globalSchema to be an object but received null"
    | .keyedBy kind => "Expect globalSchema to be an object but received map keyed by " ++ kind
    | .array text => "Expect globalSchema to be an object but received array " ++ text
    | .other text => "Expect globalSchema to be an object but received " ++ text
    | .noSchema => "schema cannot be nil"
    | .wrongKind kind => "schema describes " ++ kind ++ ", expected an object"

end GlobalsFault

/-- The entries of a root that can be used as globals. -/
def Graph.globals (g : Graph) (root : Datum) : Except GlobalsFault (List (String × Datum)) :=
  let text := g.render (g.containers.size + 1) root
  match root with
  | .null => .error .null
  | .container id =>
      match g.find? id with
      | some (.object _ true) | none => .error .null
      | some (.object entries false) => .ok (sortedEntries entries)
      | some (.array _ _) => .error (.array text)
      | some (.keyedBy kind) => .error (.keyedBy kind)
  | _ => .error (.other text)

end FrozenGlobals.Host
