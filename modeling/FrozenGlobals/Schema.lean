import FrozenGlobals.Document.Part

/-!
# Schemas

A schema describes data by keywords. Kept here are the keywords that say what data of the schema may
look like: values it is given, its types, the schemas of its parts, and schemas it is combined with.

Schemas are taken as they are written, without resolved references: what a `$ref` refers to is not
looked up, so a schema with nothing else states nothing about its data.
-/

namespace FrozenGlobals

/-- The keywords of a schema; `α` is the type of the schemas they mention. -/
structure Keywords (α : Type) where
  /-- The one value allowed. -/
  const : Option Document
  default : Option Document
  /-- The values allowed. -/
  enum : List Document
  types : List String
  properties : List (String × α)
  allOf : Option (List α)
  anyOf : Option (List α)
  oneOf : Option (List α)
  /-- The schema of the items of an array. -/
  items : Option α
  /-- The schemas of the first items of an array. -/
  prefixItems : List α
  examples : List Document
  sample : Option Document

/-- A schema, in which references are not resolved. -/
inductive Schema where
  /-- A schema that states nothing: a truth value, or something that is no schema. -/
  | unstated
  | keywords (k : Keywords Schema)

namespace Keywords

/-- The schemas a schema is combined with. -/
def branches {α : Type} (k : Keywords α) : List α :=
  k.allOf.getD [] ++ k.anyOf.getD [] ++ k.oneOf.getD []

end Keywords

namespace Schema

instance : Inhabited Schema := ⟨.unstated⟩

/-! ## Parts are smaller -/

section

variable {k : Keywords Schema} {s : Schema}

/-- The members of a list of schemas are smaller than the list. -/
theorem sizeOf_lt_of_mem_getD {l : Option (List Schema)} (h : s ∈ l.getD []) :
    sizeOf s < sizeOf l := by
  cases l with
  | none => exact absurd h List.not_mem_nil
  | some l =>
      have := List.sizeOf_lt_of_mem (show s ∈ l from h)
      simp only [Option.some.sizeOf_spec]
      omega

/-- The branches of a schema are smaller than the schema. -/
theorem sizeOf_lt_of_mem_branches (h : s ∈ k.branches) : sizeOf s < sizeOf (keywords k) := by
  cases k with
  | mk =>
    simp only [keywords.sizeOf_spec, Keywords.mk.sizeOf_spec]
    simp only [Keywords.branches, List.mem_append] at h
    rcases h with (h | h) | h
    all_goals
      have := sizeOf_lt_of_mem_getD h
      omega

/-- The properties of a schema are smaller than the schema. -/
theorem sizeOf_lt_of_mem_properties {name : String} (h : (name, s) ∈ k.properties) :
    sizeOf s < sizeOf (keywords k) := by
  cases k with
  | mk =>
    have := List.sizeOf_lt_of_mem h
    simp only [keywords.sizeOf_spec, Keywords.mk.sizeOf_spec, Prod.mk.sizeOf_spec] at this ⊢
    omega

/-- The positional items of a schema are smaller than the schema. -/
theorem sizeOf_lt_of_mem_prefixItems (h : s ∈ k.prefixItems) : sizeOf s < sizeOf (keywords k) := by
  cases k with
  | mk =>
    have := List.sizeOf_lt_of_mem h
    simp only [keywords.sizeOf_spec, Keywords.mk.sizeOf_spec] at this ⊢
    omega

/-- The items of a schema are smaller than the schema. -/
theorem sizeOf_lt_of_mem_items (h : s ∈ k.items) : sizeOf s < sizeOf (keywords k) := by
  cases k with
  | mk =>
    simp only [Option.mem_def] at h
    simp only [keywords.sizeOf_spec, Keywords.mk.sizeOf_spec, h, Option.some.sizeOf_spec]
    omega

end

/-! ## Reading schemas -/

/-- The texts of a scalar or of the scalars in a sequence. -/
def texts : Document → List String
  | .scalar _ text _ => [text]
  | .sequence _ items => items.filterMap fun
      | .scalar _ text _ => some text
      | _ => none
  | .mapping _ _ => []

/-- The schema a document states. -/
def ofDocument (d : Document) : Schema :=
  let list (key : String) : List Document := ((d.field? key).map (·.items)).getD []
  if d.isMapping then
    .keywords {
      const := d.field? "const"
      default := d.field? "default"
      enum := list "enum"
      types := ((d.field? "type").map texts).getD []
      properties := (d.partEntries "properties").map fun (name, ⟨c, _⟩) => (name, ofDocument c)
      allOf := (d.partItems? "allOf").map fun l => l.map fun ⟨c, _⟩ => ofDocument c
      anyOf := (d.partItems? "anyOf").map fun l => l.map fun ⟨c, _⟩ => ofDocument c
      oneOf := (d.partItems? "oneOf").map fun l => l.map fun ⟨c, _⟩ => ofDocument c
      items := (d.part? "items").map fun ⟨c, _⟩ => ofDocument c
      prefixItems := ((d.partItems? "prefixItems").getD []).map fun ⟨c, _⟩ => ofDocument c
      examples := list "examples"
      sample := d.field? "example" }
  else .unstated
termination_by sizeOf d

/-! ## Types -/

/-- Data of a type may match a schema. Listed types decide; otherwise some alternative must allow
the type, if there are alternatives. -/
def mightBe (type : String) : Schema → Bool
  | .unstated => false
  | .keywords k =>
      if !k.types.isEmpty then k.types.contains type
      else
        match h : k.anyOf with
        | some l => l.attach.any fun ⟨s, hs⟩ =>
            have : s ∈ k.branches := by simp [Keywords.branches, h, hs]
            mightBe type s
        | none => true
termination_by s => sizeOf s
decreasing_by exact sizeOf_lt_of_mem_branches this

end Schema

end FrozenGlobals
