/-!
# Documents

Configuration files, globals files, schemas and interface descriptions are documents: trees of
scalars, sequences and mappings that remember the line each node starts on. A scalar keeps its text
and whether it was quoted; what a plain scalar means depends on who reads it.
-/

namespace FrozenGlobals

/-- A node of a document. -/
inductive Document where
  | scalar (line : Nat) (text : String) (quoted : Bool)
  | sequence (line : Nat) (items : List Document)
  /-- Keys with their values, in order. -/
  | mapping (line : Nat) (entries : List (String × Document))
deriving Inhabited

namespace Document

/-- The line a node starts on. -/
def line : Document → Nat
  | .scalar line _ _ => line
  | .sequence line _ => line
  | .mapping line _ => line

/-- The entries of a mapping, and none for other nodes. -/
def entries : Document → List (String × Document)
  | .mapping _ entries => entries
  | _ => []

/-- The items of a sequence, and none for other nodes. -/
def items : Document → List Document
  | .sequence _ items => items
  | _ => []

def isMapping : Document → Bool
  | .mapping _ _ => true
  | _ => false

def isSequence : Document → Bool
  | .sequence _ _ => true
  | _ => false

/-- The value of the last entry with a given key. -/
def field? (d : Document) (key : String) : Option Document :=
  (d.entries.filter fun (k, _) => k == key).getLast?.map (·.2)

/-- The text of a quoted scalar. -/
def string? : Document → Option String
  | .scalar _ text true => some text
  | _ => none

/-- The node is a plain scalar with the given text. -/
def isPlain (text : String) : Document → Bool
  | .scalar _ t false => t == text
  | _ => false

/-- The value of a plain `true` or `false`. -/
def bool? (d : Document) : Option Bool :=
  if d.isPlain "true" then some true else if d.isPlain "false" then some false else none

end Document

end FrozenGlobals
