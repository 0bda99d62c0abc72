import FrozenGlobals.Host.Tree
import FrozenGlobals.Schema

/-!
# Globals from schemas

A schema stands for one representative piece of data: a value it is given, an object with all the
properties it declares, an array with one item for each of its item schemas, an example, or the
empty value of its first type, whichever applies first.

An object has the properties of the schema and of all schemas it is combined with. Of several
definitions of a property the first counts, where the schema's own come before those of its
branches (`Schema.declarations`, `Schema.firstDefinitions`). What is nested too deep is left out.
-/

namespace FrozenGlobals

/-- Why a schema stands for no globals. -/
inductive SchemaFault where
  /-- A value in the schema repeats a key. -/
  | undecodable (line : Nat)
  | inProperty (name : String) (cause : SchemaFault)
  | unusable (fault : Host.GlobalsFault)
deriving DecidableEq, Repr, Inhabited

namespace SchemaFault

def message : SchemaFault → String
  | .undecodable line =>
      "failed to decode schema value at line " ++ toString line ++ ": a key is given twice"
  | .inProperty name cause => "property " ++ name ++ ": " ++ cause.message
  | .unusable fault => fault.message

/-- The cause under all notes about properties. -/
def root : SchemaFault → SchemaFault
  | .inProperty _ cause => cause.root
  | f => f

end SchemaFault

namespace Keywords

variable {α : Type}

/-- The value a schema is given. -/
def literal? (k : Keywords α) : Option Document :=
  k.const <|> k.default <|> k.enum.head?

/-- An example of the data a schema describes. -/
def sample? (k : Keywords α) : Option Document := k.examples.head? <|> k.sample

/-- The schema declares properties, is combined with others or is typed as an object. -/
def hasObjectShape (k : Keywords α) : Bool :=
  !k.properties.isEmpty || !k.branches.isEmpty || k.types.contains "object"

/-- The schema says something of items. -/
def hasArrayShape (k : Keywords α) : Bool := k.items.isSome || !k.prefixItems.isEmpty

/-- The empty value of the first type. -/
def emptyValue (k : Keywords α) : Host.Tree :=
  match k.types.head? with
  | some "string" => .string ""
  | some "number" | some "integer" => .integer false 0
  | some "boolean" => .bool false
  | some "object" => .record []
  | some "array" => .list []
  | _ => .null

end Keywords

namespace Schema

/-- A depth lies beyond a limit; a limit that is not positive sets none. -/
def isBeyond (limit : Int) (depth : Nat) : Bool := 0 < limit && limit < depth

/-! ## Properties -/

/-- A definition of a property, and the depth its value stands at. -/
structure Declaration where
  name : String
  depth : Nat
  schema : Schema

/-- The properties a schema and its branches declare, in the order in which definitions count. -/
def declarations (limit : Int) (depth : Nat) : Schema → List Declaration
  | .unstated => []
  | .keywords k =>
      if isBeyond limit depth then []
      else
        k.properties.map (fun (name, s) => ⟨name, depth + 1, s⟩)
          ++ (k.branches.attach.map fun ⟨b, _⟩ => declarations limit (depth + 1) b).flatten
termination_by s => sizeOf s
decreasing_by exact sizeOf_lt_of_mem_branches ‹_›

theorem sizeOf_lt_of_mem_declarations {limit : Int} {depth : Nat} {s : Schema} {d : Declaration}
    (h : d ∈ s.declarations limit depth) : sizeOf d.schema < sizeOf s := by
  fun_induction declarations limit depth s with
  | case1 => exact absurd h List.not_mem_nil
  | case2 => exact absurd h List.not_mem_nil
  | case3 depth k _ ih =>
      rcases List.mem_append.1 h with h | h
      · obtain ⟨⟨name, s⟩, hs, rfl⟩ := List.mem_map.1 h
        exact sizeOf_lt_of_mem_properties hs
      · obtain ⟨l, hl, hd⟩ := List.mem_flatten.1 h
        obtain ⟨⟨b, hb⟩, _, rfl⟩ := List.mem_map.1 hl
        exact Nat.lt_trans (ih b hb hd) (sizeOf_lt_of_mem_branches hb)

/-- The first definition of each property. -/
def firstDefinitions : List Declaration → List Declaration
  | [] => []
  | d :: rest => d :: (firstDefinitions rest).filter (·.name != d.name)

theorem mem_of_mem_firstDefinitions {d : Declaration} {l : List Declaration}
    (h : d ∈ firstDefinitions l) : d ∈ l := by
  induction l with
  | nil => exact h
  | cons e l ih =>
      rcases List.mem_cons.1 h with rfl | h
      · exact List.mem_cons_self
      · exact List.mem_cons_of_mem _ (ih (List.mem_filter.1 h).1)

/-- The schemas of the items of an array. -/
def itemSchemas : Schema → List Schema
  | .unstated => []
  | .keywords k => (k.prefixItems ++ k.items.toList).filter fun
      | .unstated => false
      | .keywords _ => true

theorem sizeOf_lt_of_mem_itemSchemas {s t : Schema} (h : t ∈ s.itemSchemas) :
    sizeOf t < sizeOf s := by
  cases s with
  | unstated => exact absurd h List.not_mem_nil
  | keywords k =>
      rcases List.mem_append.1 (List.mem_filter.1 h).1 with h | h
      · exact sizeOf_lt_of_mem_prefixItems h
      · exact sizeOf_lt_of_mem_items (Option.mem_toList.1 h)

/-! ## Data -/

/-- The data written in a schema. -/
def decode (d : Document) : Except SchemaFault Host.Tree :=
  match Host.Tree.ofDocument? d with
  | some tree => .ok tree
  | none => .error (.undecodable d.line)

/-- The data a schema at some depth stands for. -/
def value (limit : Int) (depth : Nat) : Schema → Except SchemaFault Host.Tree
  | .unstated => .ok .null
  | .keywords k =>
      if isBeyond limit depth then .ok .null
      else
        match k.literal? with
        | some d => decode d
        | none =>
            if (keywords k).mightBe "object" && k.hasObjectShape then do
              let entries ←
                (firstDefinitions ((keywords k).declarations limit depth)).attach.mapM
                  fun ⟨d, hd⟩ =>
                    have := sizeOf_lt_of_mem_declarations (mem_of_mem_firstDefinitions hd)
                    match value limit d.depth d.schema with
                    | .ok tree => Except.ok (d.name, tree)
                    | .error cause => .error (SchemaFault.inProperty d.name cause)
              return .record entries
            else if (keywords k).mightBe "array" && k.hasArrayShape then do
              let trees ← (keywords k).itemSchemas.attach.mapM fun ⟨t, ht⟩ =>
                have := sizeOf_lt_of_mem_itemSchemas ht
                value limit (depth + 1) t
              return .list trees
            else
              match k.sample? with
              | some d => decode d
              | none => .ok k.emptyValue
termination_by s => sizeOf s
decreasing_by all_goals assumption

/-- The globals a schema stands for. Their nesting is cut at a limit. -/
def globals (limit : Int) : Schema → Except SchemaFault (List (String × Host.Tree))
  | .unstated => .error (.unusable .noSchema)
  | s => do
      match ← s.value limit 0 with
      | .record entries => return entries
      | tree => throw (.unusable (.wrongKind tree.kind))

end Schema

end FrozenGlobals
