import FrozenGlobals.Document

/-!
# Parts of documents

Lookups in a document that return what they find together with the fact that it is smaller than the
document. Every traversal of documents ends because of it.
-/

namespace FrozenGlobals.Document

/-- A node of a document below its root. -/
abbrev Part (d : Document) := { c : Document // sizeOf c < sizeOf d }

theorem sizeOf_lt_of_mem_items {c d : Document} (h : c ∈ d.items) : sizeOf c < sizeOf d := by
  cases d with
  | sequence line items =>
      have := List.sizeOf_lt_of_mem (show c ∈ items from h)
      simp only [sequence.sizeOf_spec]
      omega
  | _ => exact absurd h List.not_mem_nil

theorem sizeOf_lt_of_mem_entries {key : String} {c d : Document} (h : (key, c) ∈ d.entries) :
    sizeOf c < sizeOf d := by
  cases d with
  | mapping line entries =>
      have := List.sizeOf_lt_of_mem (show (key, c) ∈ entries from h)
      simp only [mapping.sizeOf_spec, Prod.mk.sizeOf_spec] at this ⊢
      omega
  | _ => exact absurd h List.not_mem_nil

theorem sizeOf_lt_of_field? {key : String} {c d : Document} (h : d.field? key = some c) :
    sizeOf c < sizeOf d := by
  obtain ⟨⟨k, v⟩, he, rfl⟩ := Option.map_eq_some_iff.1 h
  exact sizeOf_lt_of_mem_entries (List.mem_filter.1 (List.mem_of_getLast? he)).1

/-- The items of a sequence. -/
def itemParts (d : Document) : List d.Part :=
  d.items.attach.map fun ⟨c, h⟩ => ⟨c, sizeOf_lt_of_mem_items h⟩

/-- The entries of a mapping. -/
def entryParts (d : Document) : List (String × d.Part) :=
  d.entries.attach.map fun ⟨(key, c), h⟩ => (key, ⟨c, sizeOf_lt_of_mem_entries h⟩)

/-- The value of a key. -/
def part? (d : Document) (key : String) : Option d.Part :=
  match h : d.field? key with
  | some c => some ⟨c, sizeOf_lt_of_field? h⟩
  | none => none

/-- The items of the sequence at a key, if there is one. -/
def partItems? (d : Document) (key : String) : Option (List d.Part) :=
  match d.part? key with
  | some ⟨.sequence line items, h⟩ =>
      some ((itemParts (.sequence line items)).map fun ⟨c, hc⟩ => ⟨c, Nat.lt_trans hc h⟩)
  | _ => none

/-- The entries of the mapping at a key. -/
def partEntries (d : Document) (key : String) : List (String × d.Part) :=
  match d.part? key with
  | some ⟨c, h⟩ => c.entryParts.map fun (name, ⟨e, he⟩) => (name, ⟨e, Nat.lt_trans he h⟩)
  | none => []

end FrozenGlobals.Document
