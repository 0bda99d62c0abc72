import FrozenGlobals.Document
import FrozenGlobals.Document.Scalar
import FrozenGlobals.Host

/-!
# Trees of host data

Host data without sharing, as documents write it down. A tree becomes part of a graph by
`Tree.install`, which makes one container for each list and record.
-/

namespace FrozenGlobals.Host

open Number (Binary64)

/-- Host data without sharing. -/
inductive Tree where
  | null
  | bool (value : Bool)
  | integer (negative : Bool) (magnitude : Nat)
  | real (value : Binary64)
  | string (text : String)
  | list (items : List Tree)
  | record (entries : List (String × Tree))
deriving Inhabited

namespace Tree

/-- What kind of data stands at the root. -/
def kind : Tree → String
  | .null => "<nil>"
  | .bool _ => "bool"
  | .integer negative magnitude =>
      if negative || magnitude < Nat.pow 2 63 then "int" else "uint64"
  | .real _ => "float64"
  | .string _ => "string"
  | .list _ => "[]interface \x7b\x7d"
  | .record _ => "map[string]interface \x7b\x7d"

/-- The text of an integer. -/
def integerText (negative : Bool) (magnitude : Nat) : String :=
  (if negative then "-" else "") ++ toString magnitude

mutual

/-- Adds the containers of a tree to a graph. Lists with members are shared, as records are. -/
def install (g : Graph) : Tree → Datum × Graph
  | .null => (.null, g)
  | .bool value => (.bool value, g)
  | .integer negative magnitude =>
      (.number (.withSign negative (.ofNat magnitude)) (integerText negative magnitude), g)
  | .real value => (.number value value.text, g)
  | .string text => (.string text, g)
  | .list items =>
      let (data, g) := installItems g items
      g.add (.array data (!items.isEmpty))
  | .record entries =>
      let (data, g) := installEntries g entries
      g.add (.object data false)

/-- Adds the containers of the items of a list. -/
def installItems (g : Graph) : List Tree → List Datum × Graph
  | [] => ([], g)
  | item :: rest =>
      let (d, g) := item.install g
      let (ds, g) := installItems g rest
      (d :: ds, g)

/-- Adds the containers of the entries of a record. -/
def installEntries (g : Graph) : List (String × Tree) → List (String × Datum) × Graph
  | [] => ([], g)
  | (key, value) :: rest =>
      let (d, g) := value.install g
      let (ds, g) := installEntries g rest
      ((key, d) :: ds, g)

end

/-! ## Trees in documents -/

/-- A plain scalar as data. -/
def ofPlain (text : String) : Tree :=
  match Document.Scalar.ofPlain text with
  | .null => .null
  | .bool value => .bool value
  | .integer negative magnitude => .integer negative magnitude
  | .real value => .real value
  | .date | .text => .string text

mutual

/-- The data a document holds. A mapping with two entries for one key holds none. -/
def ofDocument? : Document → Option Tree
  | .scalar _ text quoted => some (if quoted then .string text else ofPlain text)
  | .sequence _ items => (ofItems? items).map .list
  | .mapping _ entries => (ofEntries? entries).map .record

/-- The data of the items of a sequence. -/
def ofItems? : List Document → Option (List Tree)
  | [] => some []
  | item :: rest => do
      let tree ← ofDocument? item
      return tree :: (← ofItems? rest)

/-- The data of the entries of a mapping. -/
def ofEntries? : List (String × Document) → Option (List (String × Tree))
  | [] => some []
  | (key, value) :: rest => do
      let tree ← ofDocument? value
      let trees ← ofEntries? rest
      if trees.any (·.1 == key) then none
      return (key, tree) :: trees

end

end Tree

end FrozenGlobals.Host
