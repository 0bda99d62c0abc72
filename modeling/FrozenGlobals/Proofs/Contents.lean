import FrozenGlobals.Heap

/-!
# Contents of containers

Objects and arrays behave alike wherever a claim is about what a container holds: both are read and
written at keys, and a write keeps what was there. `Contents` is the cell of either, and
`Heap.contents` finds it. `Heap.contents_setKeyOf` says that a write changes the container written
to and no other, and `Heap.mem_getKey` that reading a reference collects what its possibilities
hold.
-/

namespace FrozenGlobals

/-! ## References -/

namespace Reference

/-- References with the same possibilities in the same order are equal. -/
@[ext] theorem ext {r s : Reference} (h : r.values = s.values) : r = s := by
  cases r
  cases s
  cases h
  rfl

/-- A union of references taken one by one holds what any of them holds. -/
theorem mem_foldl_union {v : Value} (rs : List Reference) (r : Reference) :
    v ∈ rs.foldl union r ↔ v ∈ r ∨ ∃ s ∈ rs, v ∈ s := by
  induction rs generalizing r with
  | nil => simp
  | cons s rs ih =>
      rw [List.foldl_cons, ih, mem_union]
      simp [or_assoc]

/-- A union of several references holds what one of them holds. -/
@[simp] theorem mem_unionAll {v : Value} {rs : List Reference} :
    v ∈ unionAll rs ↔ ∃ r ∈ rs, v ∈ r := by
  rw [unionAll, mem_foldl_union]
  simp

/-- A reference made from a list holds what is in the list. -/
@[simp] theorem mem_ofList {v : Value} {vs : List Value} : v ∈ ofList vs ↔ v ∈ vs := by
  simp [ofList]

/-- A reference to a primitive holds nothing else. -/
@[simp] theorem mem_ofPrimitive {v : Value} {p : Primitive} :
    v ∈ ofPrimitive p ↔ v = .primitive p := mem_single

/-- The reference to `undefined` holds nothing else. -/
@[simp] theorem mem_undefined {v : Value} : v ∈ undefined ↔ v = .primitive .undefined := mem_single

/-- The reference to some primitive holds nothing else. -/
@[simp] theorem mem_anyPrimitive {v : Value} : v ∈ anyPrimitive ↔ v = .primitive .any := mem_single

/-- The arrays of a reference are those of its possibilities that are arrays. -/
@[simp] theorem mem_arrays {r : Reference} {v : Value} :
    v ∈ r.arrays ↔ v ∈ r ∧ ∃ id, v = .array id := by
  rw [arrays, mem_filter]
  cases v <;> simp [Value.kind]

/-- The containers of a reference are its objects and arrays. -/
@[simp] theorem mem_containers {r : Reference} {v : Value} :
    v ∈ r.containers ↔ v ∈ r ∧ v.isContainer := mem_filter

end Reference

/-! ## Cells -/

namespace ObjectCell

/-- An empty object has no slots. -/
@[simp] theorem slot?_empty (name : String) : empty.slot? name = none := rfl

/-- Looking a name up in slots one of which was written. -/
theorem find?_setSlot (name : String) (r : Reference) (slots : List (String × Reference))
    (other : String) :
    ((setSlot name r slots).find? fun e => e.1 == other).map (·.2) =
      if other = name then
        some ((((slots.find? fun e => e.1 == name).map (·.2)).getD Reference.empty).union r)
      else (slots.find? fun e => e.1 == other).map (·.2) := by
  induction slots with
  | nil =>
      by_cases h : other = name
      · simp [setSlot, h]
      · simp [setSlot, h, Ne.symm h]
  | cons e slots ih =>
      obtain ⟨n, old⟩ := e
      by_cases hn : n = name
      · subst hn
        by_cases h : other = n
        · simp [setSlot, h]
        · simp [setSlot, h, Ne.symm h]
      · by_cases h : other = name
        · subst h
          simpa [setSlot, hn] using ih
        · by_cases hno : n = other
          · subst hno
            simp [setSlot, hn]
          · simpa [setSlot, hn, h, hno] using ih

/-- A write adds to the slot of its name and leaves the other slots alone. -/
theorem slot?_set_name (o : ObjectCell) (name : String) (r : Reference) (other : String) :
    (o.set (.name name) r).slot? other =
      if other = name then some (((o.slot? name).getD .empty).union r) else o.slot? other :=
  find?_setSlot name r o.slots other

/-- A write to the wildcard leaves the named slots as they are. -/
@[simp] theorem slot?_set_any (o : ObjectCell) (r : Reference) (other : String) :
    (o.set .any r).slot? other = o.slot? other := rfl

/-- A write to a name leaves the wildcard slot as it is. -/
@[simp] theorem wildcard_set_name (o : ObjectCell) (name : String) (r : Reference) :
    (o.set (.name name) r).wildcard = o.wildcard := rfl

/-- A write to the wildcard adds to the wildcard slot. -/
@[simp] theorem wildcard_set_any (o : ObjectCell) (r : Reference) :
    (o.set .any r).wildcard = some ((o.wildcard.getD .empty).union r) := rfl

/-- Some slot holds a value, the wildcard slot included. -/
def Holds (o : ObjectCell) (v : Value) : Prop :=
  (∃ e ∈ o.slots, v ∈ e.2) ∨ ∃ r, o.wildcard = some r ∧ v ∈ r

/-- What an optional reference holds is held by one that is there. -/
theorem mem_getD {r? : Option Reference} {v : Value} :
    v ∈ r?.getD .empty ↔ ∃ r, r? = some r ∧ v ∈ r := by
  cases r? <;> simp

/-- The wildcard reads every slot. -/
theorem mem_get_any {o : ObjectCell} {v : Value} : v ∈ o.get .any ↔ o.Holds v := by
  simp only [get, Reference.mem_union, Reference.mem_unionAll, List.mem_map, mem_getD, Holds]
  constructor
  · rintro (⟨_, ⟨e, he, rfl⟩, hv⟩ | h)
    · exact .inl ⟨e, he, hv⟩
    · exact .inr h
  · rintro (⟨e, he, hv⟩ | h)
    · exact .inl ⟨_, ⟨e, he, rfl⟩, hv⟩
    · exact .inr h

/-- A name reads its slot and the wildcard slot. -/
theorem mem_get_name {o : ObjectCell} {name : String} {v : Value} :
    v ∈ o.get (.name name) ↔
      (∃ r, o.slot? name = some r ∧ v ∈ r) ∨ ∃ r, o.wildcard = some r ∧ v ∈ r := by
  simp only [get, Reference.mem_union, mem_getD]

/-- A slot that is found is one of the slots. -/
theorem mem_slots_of_slot? {o : ObjectCell} {name : String} {r : Reference}
    (h : o.slot? name = some r) : (name, r) ∈ o.slots := by
  obtain ⟨⟨n, s⟩, he, rfl⟩ := Option.map_eq_some_iff.1 h
  have hn := List.find?_some he
  rw [beq_iff_eq] at hn
  exact hn ▸ List.mem_of_find?_eq_some he

/-- What is read at any key is held somewhere. -/
theorem holds_of_mem_get {o : ObjectCell} {k : Key} {v : Value} (h : v ∈ o.get k) :
    o.Holds v := by
  cases k with
  | any => exact mem_get_any.1 h
  | name name =>
      rcases mem_get_name.1 h with ⟨r, hr, hv⟩ | h
      · exact .inl ⟨_, mem_slots_of_slot? hr, hv⟩
      · exact .inr h

/-- Setting a slot keeps what the slots held and adds what is written. -/
theorem mem_setSlot {name : String} {r : Reference} {slots : List (String × Reference)}
    {v : Value} :
    (∃ e ∈ setSlot name r slots, v ∈ e.2) ↔ (∃ e ∈ slots, v ∈ e.2) ∨ v ∈ r := by
  induction slots with
  | nil => simp [setSlot]
  | cons e slots ih =>
      obtain ⟨n, old⟩ := e
      by_cases hn : n = name
      · simp only [setSlot, hn, beq_self_eq_true, if_true, List.mem_cons, exists_eq_or_imp,
          Reference.mem_union]
        grind
      · simp only [setSlot, beq_eq_false_iff_ne.2 hn, List.mem_cons, exists_eq_or_imp]
        simp only [Bool.false_eq_true, if_false, List.mem_cons, exists_eq_or_imp, ih, or_assoc]

/-- An object holds after a write what it held before and what was written. -/
theorem holds_set {o : ObjectCell} {k : Key} {r : Reference} {v : Value} :
    (o.set k r).Holds v ↔ o.Holds v ∨ v ∈ r := by
  cases k with
  | name name =>
      simp only [Holds, set, mem_setSlot]
      grind
  | any =>
      simp only [Holds, set, Option.some.injEq]
      constructor
      · rintro (h | ⟨_, rfl, hv⟩)
        · exact .inl (.inl h)
        · rcases Reference.mem_union.1 hv with hv | hv
          · exact .inl (.inr (mem_getD.1 hv))
          · exact .inr hv
      · rintro ((h | h) | h)
        · exact .inl h
        · exact .inr ⟨_, rfl, Reference.mem_union.2 (.inl (mem_getD.2 h))⟩
        · exact .inr ⟨_, rfl, Reference.mem_union.2 (.inr h)⟩

end ObjectCell

namespace ArrayCell

/-- Reading an array gives elements, a method or some primitive. -/
theorem mem_elements_of_mem_get {a : ArrayCell} {k : Key} {v : Value} (h : v ∈ a.get k) :
    v ∈ a.elements ∨ (∃ b, v = .builtin b) ∨ v = .primitive .any := by
  unfold get at h
  split at h
  · exact .inl h
  · split at h
    · exact .inl h
    · split at h
      · exact .inr (.inr (Reference.mem_anyPrimitive.1 h))
      · split at h
        · split at h
          · rcases Reference.mem_union.1 h with h | h
            · exact .inr (.inl ⟨_, Reference.mem_single.1 h⟩)
            · exact .inl h
          · exact .inr (.inl ⟨_, Reference.mem_single.1 h⟩)
        · exact .inl h

/-- Reading an array at the wildcard gives its elements. -/
@[simp] theorem get_any (a : ArrayCell) : a.get .any = a.elements := rfl

/-- An array holds after a write what it held before and, unless the key is `length`, what was
written. -/
theorem mem_elements_set {a : ArrayCell} {k : Key} {r : Reference} {v : Value} :
    v ∈ (a.set k r).elements ↔ v ∈ a.elements ∨ (k ≠ .name "length" ∧ v ∈ r) := by
  by_cases hk : k = .name "length" <;> simp [set, hk]

end ArrayCell

/-! ## Contents -/

/-- The cell of an object or an array. -/
inductive Contents where
  | object (cell : ObjectCell)
  | array (cell : ArrayCell)
deriving DecidableEq

namespace Contents

def get : Contents → Key → Reference
  | .object o, k => o.get k
  | .array a, k => a.get k

def set : Contents → Key → Reference → Contents
  | .object o, k, r => .object (o.set k r)
  | .array a, k, r => .array (a.set k r)

/-- A container holds a value under some key. -/
def Holds : Contents → Value → Prop
  | .object o, v => o.Holds v
  | .array a, v => v ∈ a.elements

/-- Reading a container at the wildcard gives all it holds. -/
theorem mem_get_any {c : Contents} {v : Value} : v ∈ c.get .any ↔ c.Holds v := by
  cases c with
  | object o => exact ObjectCell.mem_get_any
  | array a => exact Iff.rfl

/-- What reading a container gives is held there, a method, or some primitive. -/
theorem holds_of_mem_get {c : Contents} {k : Key} {v : Value} (h : v ∈ c.get k) :
    c.Holds v ∨ (∃ b, v = .builtin b) ∨ v = .primitive .any := by
  cases c with
  | object o => exact .inl (ObjectCell.holds_of_mem_get h)
  | array a => exact ArrayCell.mem_elements_of_mem_get h

/-- A write adds nothing but what is written. -/
theorem holds_of_holds_set {c : Contents} {k : Key} {r : Reference} {v : Value}
    (h : (c.set k r).Holds v) : c.Holds v ∨ v ∈ r := by
  cases c with
  | object o => exact ObjectCell.holds_set.1 h
  | array a => exact (ArrayCell.mem_elements_set.1 h).imp_right (·.2)

end Contents

namespace Heap

/-- The cell of a container that exists. -/
def contents (h : Heap) : Value → Option Contents
  | .object id => h.objects[id]?.map .object
  | .array id => h.arrays[id]?.map .array
  | _ => none

/-- Only containers have contents. -/
theorem isContainer_of_contents {h : Heap} {v : Value} {c : Contents}
    (hc : h.contents v = some c) : v.isContainer := by
  cases v <;> simp_all [contents, Value.isContainer]

/-- A write changes the container written to and no other. -/
theorem contents_setKeyOf (h : Heap) (k : Key) (r : Reference) (v w : Value) :
    (h.setKeyOf k r v).contents w =
      if w = v then (h.contents v).map (·.set k r) else h.contents w := by
  cases v with
  | object id =>
      cases w with
      | object id' =>
          by_cases hid : id' = id
          · subst hid
            simp [setKeyOf, contents, Array.getElem?_modify, Function.comp_def, Contents.set]
          · simp [setKeyOf, contents, hid, Array.getElem?_modify, Ne.symm hid]
      | _ => simp [setKeyOf, contents]
  | array id =>
      cases w with
      | array id' =>
          by_cases hid : id' = id
          · subst hid
            simp [setKeyOf, contents, Array.getElem?_modify, Function.comp_def, Contents.set]
          · simp [setKeyOf, contents, hid, Array.getElem?_modify, Ne.symm hid]
      | _ => simp [setKeyOf, contents]
  | primitive _ | function _ | intrinsic _ | builtin _ =>
      simp only [setKeyOf]
      split
      · next hw => subst hw; simp [contents]
      · rfl

/-- A new object changes the contents of no other value. -/
theorem contents_addObject (h : Heap) (o : ObjectCell) (w : Value) :
    (h.addObject o).2.contents w =
      if w = (h.addObject o).1 then some (.object o) else h.contents w := by
  cases w with
  | object id =>
      simp only [addObject, contents, Array.getElem?_push, Value.object.injEq]
      split <;> simp
  | _ => simp [addObject, contents]

/-- A new array changes the contents of no other value. -/
theorem contents_addArray (h : Heap) (r : Reference) (w : Value) :
    (h.addArray r).2.contents w =
      if w = (h.addArray r).1 then some (.array ⟨r, false⟩) else h.contents w := by
  cases w with
  | array id =>
      simp only [addArray, contents, Array.getElem?_push, Value.array.injEq]
      split <;> simp
  | _ => simp [addArray, contents]

/-- A new object was nowhere in the heap. -/
theorem contents_addObject_fresh (h : Heap) (o : ObjectCell) :
    h.contents (h.addObject o).1 = none := by
  simp [addObject, contents]

/-- A new array was nowhere in the heap. -/
theorem contents_addArray_fresh (h : Heap) (r : Reference) :
    h.contents (h.addArray r).1 = none := by
  simp [addArray, contents]

/-- Writes values one after another at a key of every possibility. -/
def setKeys (h : Heap) (r : Reference) (k : Key) (values : List Reference) : Heap :=
  values.foldl (fun h v => h.setKey r k v) h

/-- Writing to several values in turn writes to each of them once. -/
theorem contents_foldl_setKeyOf (h : Heap) (k : Key) (r : Reference) {vs : List Value}
    (hn : vs.Nodup) (w : Value) :
    (vs.foldl (fun h v => h.setKeyOf k r v) h).contents w =
      if w ∈ vs then (h.contents w).map (·.set k r) else h.contents w := by
  induction vs generalizing h with
  | nil => simp
  | cons v vs ih =>
    obtain ⟨hv, hn⟩ := List.nodup_cons.1 hn
    rw [List.foldl_cons, ih _ hn, contents_setKeyOf]
    by_cases hw : w = v
    · subst hw
      simp [hv]
    · simp [hw]

/-- A write changes the containers of its reference and no others. -/
theorem contents_setKey (h : Heap) (r : Reference) (k : Key) (v : Reference) (w : Value) :
    (h.setKey r k v).contents w =
      if w ∈ r then (h.contents w).map (·.set k v) else h.contents w :=
  contents_foldl_setKeyOf h k v r.nodup w

/-- Writes one after another change the containers of their reference and no others. -/
theorem contents_setKeys (h : Heap) (r : Reference) (k : Key) (values : List Reference)
    (w : Value) :
    (h.setKeys r k values).contents w =
      if w ∈ r then (h.contents w).map fun c => values.foldl (fun c v => c.set k v) c
      else h.contents w := by
  induction values generalizing h with
  | nil => simp [setKeys]
  | cons v values ih =>
    have hcons : h.setKeys r k (v :: values) = (h.setKey r k v).setKeys r k values := rfl
    rw [hcons, ih, contents_setKey]
    by_cases hw : w ∈ r
    · simp [hw, Function.comp_def]
    · simp [hw]

/-! ## Reads -/

/-- Reading a container that exists reads its cell. -/
theorem getKeyOf_of_contents {h : Heap} {v : Value} {c : Contents} (hc : h.contents v = some c)
    (k : Key) : h.getKeyOf k v = c.get k := by
  cases v with
  | object id =>
      obtain ⟨o, ho, rfl⟩ := Option.map_eq_some_iff.1 hc
      simp [getKeyOf, object, ho, Contents.get]
  | array id =>
      obtain ⟨a, ha, rfl⟩ := Option.map_eq_some_iff.1 hc
      simp [getKeyOf, array, ha, Contents.get]
  | _ => simp [contents] at hc

/-- Reading a reference collects what its possibilities hold. -/
theorem mem_getKey {h : Heap} {r : Reference} {k : Key} {v : Value} :
    v ∈ h.getKey r k ↔ ∃ w ∈ r, v ∈ h.getKeyOf k w := by
  simp only [getKey, Reference.mem_unionAll, List.mem_map]
  constructor
  · rintro ⟨_, ⟨w, hw, rfl⟩, hv⟩
    exact ⟨w, hw, hv⟩
  · rintro ⟨w, hw, hv⟩
    exact ⟨_, ⟨w, hw, rfl⟩, hv⟩

end Heap

end FrozenGlobals
