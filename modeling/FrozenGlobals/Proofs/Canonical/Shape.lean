import FrozenGlobals.Proofs.Canonical.Parts
import FrozenGlobals.Proofs.Text.Quoting
import Mathlib.Data.List.Forall2

/-!
# Values of the same shape

Two values have the same shape if they are the same leaf, or containers of the same kind that hold
the same shapes under the same names. On graphs with cycles this is a relation that is respected
wherever it holds (`Heap.IsBisimulation`): related values look alike, and what they hold is related
again. Names may have been written in any order, and so may the possibilities of a reference;
related values need not live in the same heap.
-/

namespace FrozenGlobals

/-- Each possibility of either reference is related to one of the other. -/
def Reference.Matches (R : Value → Value → Prop) (r s : Reference) : Prop :=
  (∀ v ∈ r, ∃ w ∈ s, R v w) ∧ ∀ w ∈ s, ∃ v ∈ r, R v w

/-- Two values look alike: leaves are the same, and the parts of containers match. Functions are
alike if they are written alike. -/
def Heap.Alike (h h' : Heap) (R : Value → Value → Prop) : Value → Value → Prop
  | .primitive p, .primitive q => p = q
  | .intrinsic i, .intrinsic j => i = j
  | .builtin b, .builtin c => b = c
  | .function id, .function id' => h.functionText id = h'.functionText id'
  | .object id, .object id' =>
      (h.object id).keys.Perm (h'.object id').keys ∧
      (∀ name, Option.Rel (Reference.Matches R) ((h.object id).slot? name)
        ((h'.object id').slot? name)) ∧
      Option.Rel (Reference.Matches R) (h.object id).wildcard (h'.object id').wildcard
  | .array id, .array id' =>
      Reference.Matches R (h.array id).elements (h'.array id').elements ∧
      (h.array id).named = (h'.array id').named
  | _, _ => False

/-- Related values look alike, down to everything they hold. -/
def Heap.IsBisimulation (h h' : Heap) (R : Value → Value → Prop) : Prop :=
  ∀ v w, R v w → h.Alike h' R v w

/-- References whose possibilities have the same shapes. -/
def Heap.SameShape (h h' : Heap) (r s : Reference) : Prop :=
  ∃ R, h.IsBisimulation h' R ∧ r.Matches R s

namespace Reference

variable {R S : Value → Value → Prop} {r s : Reference}

/-- Matching by a relation is matching by every weaker one. -/
theorem Matches.mono (h : r.Matches R s) (hRS : ∀ v ∈ r, ∀ w ∈ s, R v w → S v w) :
    r.Matches S s := by
  refine ⟨fun v hv => ?_, fun w hw => ?_⟩
  · obtain ⟨w, hw, hvw⟩ := h.1 v hv
    exact ⟨w, hw, hRS v hv w hw hvw⟩
  · obtain ⟨v, hv, hvw⟩ := h.2 w hw
    exact ⟨v, hv, hRS v hv w hw hvw⟩

/-- Empty references match. -/
theorem matches_empty : empty.Matches R empty :=
  ⟨fun v hv => absurd hv (not_mem_empty v), fun v hv => absurd hv (not_mem_empty v)⟩

/-- References that match by equality hold the same possibilities. -/
theorem matches_eq_iff : r.Matches (· = ·) s ↔ r.values.Perm s.values := by
  rw [List.perm_ext_iff_of_nodup r.nodup s.nodup]
  exact ⟨fun h v => ⟨fun hv => by obtain ⟨w, hw, rfl⟩ := h.1 v hv; exact hw,
      fun hv => by obtain ⟨w, hw, rfl⟩ := h.2 v hv; exact hw⟩,
    fun h => ⟨fun v hv => ⟨v, (h v).1 hv, rfl⟩, fun v hv => ⟨v, (h v).2 hv, rfl⟩⟩⟩

/-- Missing references count as empty ones. -/
theorem matches_getD {o o' : Option Reference} (h : Option.Rel (Matches R) o o') :
    (o.getD empty).Matches R (o'.getD empty) := by
  cases h with
  | some h => exact h
  | none => exact matches_empty

end Reference

namespace ObjectCell

variable {o : ObjectCell} {name : String}

/-- The names of an object have slots. -/
theorem exists_slot? (hname : name ∈ o.keys) : ∃ r, o.slot? name = some r := by
  obtain ⟨slot, hslot, rfl⟩ := List.mem_map.1 hname
  have hsome : (o.slot? slot.1).isSome = true := by
    rw [slot?, Option.isSome_map, List.find?_isSome]
    exact ⟨slot, hslot, by simp⟩
  exact Option.isSome_iff_exists.1 hsome

/-- A name that is no key has no slot. -/
theorem slot?_eq_none (hname : name ∉ o.keys) : o.slot? name = none := by
  rw [slot?, Option.map_eq_none_iff, List.find?_eq_none]
  intro slot hslot h
  exact hname (List.mem_map.2 ⟨slot, hslot, by simpa using h⟩)

end ObjectCell

namespace Heap

variable {h h' : Heap} {R : Value → Value → Prop} {v w : Value}

/-- Values that look alike are both containers, or neither is. -/
theorem Alike.isContainer_eq (hvw : h.Alike h' R v w) : v.isContainer = w.isContainer := by
  cases v <;> cases w <;> first | rfl | exact hvw.elim

/-- Leaves that look alike have the same text. -/
theorem Alike.leafText_eq (hvw : h.Alike h' R v w) : h.leafText v = h'.leafText w := by
  cases v <;> cases w <;> first | exact hvw.elim | rfl | exact hvw | (cases hvw; rfl)

/-- Containers that look alike have the same brackets and the same mark. -/
theorem Alike.wrap_eq (hvw : h.Alike h' R v w) (texts : List String) :
    h.wrap v texts = h'.wrap w texts := by
  cases v <;> cases w <;> first | exact hvw.elim | rfl | simp only [wrap, hvw.2]

/-- The parts of values that look alike are written behind the same texts, and they match. -/
theorem Alike.parts_matches (hvw : h.Alike h' R v w) :
    List.Forall₂ (fun p q => p.1 = q.1 ∧ Reference.Matches R p.2 q.2) (h.parts v) (h'.parts w) := by
  cases v with
  | object id =>
    cases w with
    | object id' =>
      obtain ⟨hkeys, hslots, hwildcard⟩ := hvw
      rw [parts, parts, sortTexts_eq_iff.2 hkeys]
      refine List.rel_append (List.forall₂_map_left_iff.2 (List.forall₂_map_right_iff.2
        (List.forall₂_same.2 fun key _ => ⟨rfl, Reference.matches_getD (hslots key)⟩))) ?_
      generalize (h.object id).wildcard = o, (h'.object id').wildcard = o' at hwildcard
      cases hwildcard with
      | some hr => exact .cons ⟨rfl, hr⟩ .nil
      | none => exact .nil
    | _ => exact hvw.elim
  | array id =>
    cases w with
    | array id' => exact .cons ⟨rfl, hvw.1⟩ .nil
    | _ => exact hvw.elim
  | _ => cases w <;> first | exact hvw.elim | exact .nil

/-! ## Objects by their parts -/

/-- What is written in front of a part tells its name, and names from the part for computed ones. -/
theorem forall₂_labelled {f f' : String → Reference} {keys keys' : List String}
    {o o' : Option Reference}
    (hparts : List.Forall₂ (fun p q : String × Reference => p.1 = q.1 ∧ p.2.Matches R q.2)
      (keys.map (fun key => (Text.quote key ++ ":", f key)) ++ (o.map fun r => ("*:", r)).toList)
      (keys'.map (fun key => (Text.quote key ++ ":", f' key)) ++
        (o'.map fun r => ("*:", r)).toList)) :
    keys = keys' ∧ (∀ key ∈ keys, (f key).Matches R (f' key)) ∧
      Option.Rel (Reference.Matches R) o o' := by
  have hquoted : ∀ key, Text.quote key ++ ":" ≠ "*:" := by
    intro key hkey
    have := congrArg String.toList hkey
    simp [Text.quote, Text.toList_quotePieces] at this
  induction keys generalizing keys' with
  | nil =>
    cases keys' with
    | nil =>
      refine ⟨rfl, by simp, ?_⟩
      cases o with
      | none =>
        cases o' with
        | none => exact .none
        | some r' => cases hparts
      | some r =>
        cases o' with
        | none => cases hparts
        | some r' => exact .some (List.forall₂_cons.1 hparts).1.2
    | cons key' keys' =>
      cases o with
      | none => cases hparts
      | some r => exact absurd (List.forall₂_cons.1 hparts).1.1.symm (hquoted key')
  | cons key keys ih =>
    cases keys' with
    | nil =>
      cases o' with
      | none => cases hparts
      | some r' => exact absurd (List.forall₂_cons.1 hparts).1.1 (hquoted key)
    | cons key' keys' =>
      obtain ⟨⟨hlabel, hkey⟩, hrest⟩ := List.forall₂_cons.1 hparts
      obtain rfl : key = key' := by
        have := congrArg String.toList hlabel
        simp only [String.toList_append] at this
        exact (Text.quote_append_inj this).1
      obtain ⟨rfl, hkeys, ho⟩ := ih hrest
      exact ⟨rfl, List.forall_mem_cons.2 ⟨hkey, hkeys⟩, ho⟩

/-- Objects with matching parts look alike. -/
theorem alike_object {id id' : Nat}
    (hparts : List.Forall₂ (fun p q => p.1 = q.1 ∧ Reference.Matches R p.2 q.2)
      (h.parts (.object id)) (h'.parts (.object id'))) :
    h.Alike h' R (.object id) (.object id') := by
  obtain ⟨hkeys, hslots, hwildcard⟩ := forall₂_labelled hparts
  have hperm := sortTexts_eq_iff.1 hkeys
  refine ⟨hperm, fun name => ?_, hwildcard⟩
  by_cases hname : name ∈ (h.object id).keys
  · obtain ⟨r, hr⟩ := ObjectCell.exists_slot? hname
    obtain ⟨s, hs⟩ := ObjectCell.exists_slot? (hperm.mem_iff.1 hname)
    have := hslots name (List.mem_mergeSort.2 hname)
    rw [hr, hs] at this ⊢
    exact .some this
  · rw [ObjectCell.slot?_eq_none hname,
      ObjectCell.slot?_eq_none (mt hperm.mem_iff.2 hname)]
    exact .none

end Heap

end FrozenGlobals
