import FrozenGlobals.Proofs.Discipline.Bindings

/-!
# Weak updates

A write keeps what was there before: which of the possibilities of a reference is written to is not
known. `Heap.setKey_weakUpdate` says all that a write may do to a heap: no read loses anything, no
container but those of the reference changes, an object changes in one slot only, and what is newly
read was written or was in the container already.

The last is not to say that it was read under the same key. An array reads the name of a method as
that method alone, as long as nothing was written to it under a name (`ArrayCell.Shadows`); a first
write under a name makes all its elements readable there. The wildcard is not a name in this sense,
although it stands for every name, so of two keys that may be the same the write under one is not
always seen under the other: `Heap.mem_getKey_setKey_iff` says exactly when it is.
-/

namespace FrozenGlobals

open Script (Expr)

/-- Adding what is there already changes nothing. -/
theorem Reference.union_of_subset {r s : Reference} (h : ∀ x ∈ s, x ∈ r) : r.union s = r := by
  have hfold : ∀ vs : List Value, (∀ x ∈ vs, x ∈ r) → r.insertAll vs = r := by
    intro vs
    induction vs with
    | nil => exact fun _ => rfl
    | cons v vs ih =>
      intro hvs
      have hinsert : r.insert v = r := dif_pos (hvs v List.mem_cons_self)
      rw [insertAll, List.foldl_cons, hinsert]
      exact ih fun x hx => hvs x (.tail _ hx)
  exact hfold s.values h

/-! ## Names of methods -/

/-- The objects, arrays and functions. -/
def Value.hasCell : Value → Bool
  | .object _ | .array _ | .function _ => true
  | _ => false

/-- The names of methods are no indices, and `length` is none of them. -/
theorem Builtin.name_of_find?_arrayInstance {name : String} {b : Builtin}
    (h : find? .arrayInstance name = some b) :
    (Key.name name).isIndex = false ∧ name ≠ "length" := by
  obtain ⟨⟨b', owner, n⟩, he, -⟩ := Option.map_eq_some_iff.1 h
  have hmem := List.mem_of_find?_eq_some he
  have hfound := List.find?_some he
  simp only [Bool.and_eq_true, beq_iff_eq] at hfound
  obtain ⟨rfl, rfl⟩ := hfound
  have htable : ∀ e ∈ table, e.2.1 = .arrayInstance →
      (Key.name e.2.2).isIndex = false ∧ e.2.2 ≠ "length" := by decide +kernel
  exact htable _ hmem rfl

/-- Two keys that can be the same property: they are equal, or one of them is the wildcard. -/
def Key.Meets (k k' : Key) : Prop := k = k' ∨ k = .any ∨ k' = .any

namespace ArrayCell

variable {a : ArrayCell} {k : Key} {v : Value}

/-- A key is the name of a method, and nothing was ever written under a name. -/
def Shadows (a : ArrayCell) (k : Key) : Prop :=
  a.named = false ∧ ∃ name b, k = .name name ∧ Builtin.find? .arrayInstance name = some b

/-- A method that shadows the elements is all that is read. -/
theorem exists_get_of_shadows (h : a.Shadows k) : ∃ b, a.get k = .single (.builtin b) := by
  obtain ⟨hnamed, name, b, rfl, hb⟩ := h
  obtain ⟨hindex, hlength⟩ := Builtin.name_of_find?_arrayInstance hb
  exact ⟨b, by simp [get, hindex, hlength, hb, hnamed]⟩

/-- An element is read at every key that is neither `length` nor the name of a method. -/
theorem mem_get_of_mem_elements (hlength : k ≠ .name "length") (h : ¬a.Shadows k)
    (hv : v ∈ a.elements) : v ∈ a.get k := by
  unfold get
  split
  · exact hv
  · cases k with
    | any => exact hv
    | name name =>
      dsimp only
      rw [if_neg (by simpa using hlength)]
      cases hb : Builtin.find? .arrayInstance name with
      | none => exact hv
      | some b =>
        have hnamed : a.named = true := by
          by_contra hnot
          exact h ⟨Bool.eq_false_iff.2 hnot, name, b, rfl, hb⟩
        dsimp only
        rw [if_pos hnamed]
        exact Reference.mem_union.2 (.inr hv)

/-- Elements that are no methods are read wherever no method shadows them. -/
theorem mem_get_iff (hcell : v.hasCell) (hlength : k ≠ .name "length") :
    v ∈ a.get k ↔ v ∈ a.elements ∧ ¬a.Shadows k := by
  refine ⟨fun hv => ⟨?_, fun h => ?_⟩, fun ⟨hv, h⟩ => mem_get_of_mem_elements hlength h hv⟩
  · rcases mem_elements_of_mem_get hv with hv | ⟨b, rfl⟩ | rfl
    · exact hv
    · cases hcell
    · cases hcell
  · obtain ⟨b, hb⟩ := exists_get_of_shadows h
    rw [hb, Reference.mem_single] at hv
    rw [hv] at hcell
    cases hcell

/-- The write of a name ends the shadowing, and the write under the wildcard does not. -/
theorem shadows_set_iff {kw : Key} (hmeets : kw.Meets k) (hlength : kw ≠ .name "length")
    (r : Reference) : (a.set kw r).Shadows k ↔ kw = .any ∧ a.Shadows k := by
  have hset : (a.set kw r).named = (a.named || !kw.isIndex) := by rw [set, if_neg (by simpa)]
  constructor
  · rintro ⟨hnamed, name, b, rfl, hb⟩
    rw [hset, Bool.or_eq_false_iff] at hnamed
    rcases hmeets with rfl | rfl | h
    · -- the key itself was written, and the name of a method is no index
      rw [(Builtin.name_of_find?_arrayInstance hb).1] at hnamed
      cases hnamed.2
    · exact ⟨rfl, hnamed.1, name, b, rfl, hb⟩
    · cases h
  · rintro ⟨rfl, hnamed, hb⟩
    exact ⟨by rw [hset, hnamed]; rfl, hb⟩

/-- What an array newly reads was written or is an element. -/
theorem mem_get_of_mem_get_set {kw : Key} {r : Reference} (h : v ∈ (a.set kw r).get k) :
    v ∈ a.get k ∨ v ∈ a.elements ∨ v ∈ r := by
  have helements : v ∈ (a.set kw r).elements → v ∈ a.elements ∨ v ∈ r :=
    fun hv => (mem_elements_set.1 hv).imp_right (·.2)
  unfold get at h ⊢
  split at h
  · exact .inr (helements h)
  · next hindex =>
    rw [if_neg hindex]
    cases k with
    | any => exact .inr (helements h)
    | name name =>
      dsimp only at h ⊢
      split at h
      · next hlength =>
        rw [if_pos hlength]
        exact .inl h
      · next hlength =>
        rw [if_neg hlength]
        cases hb : Builtin.find? .arrayInstance name with
        | none =>
          rw [hb] at h
          exact .inr (helements h)
        | some b =>
          -- the method is read before and after, with or without the elements
          have hmethod : v ∈ Reference.single (.builtin b) → v ∈
              if a.named then (Reference.single (.builtin b)).union a.elements
              else .single (.builtin b) := by
            intro hv
            split
            · exact Reference.mem_union.2 (.inl hv)
            · exact hv
          rw [hb] at h
          dsimp only at h ⊢
          split at h
          · exact (Reference.mem_union.1 h).imp hmethod helements
          · exact .inl (hmethod h)

end ArrayCell

/-! ## Slots -/

namespace ObjectCell

/-- Writing a slot leaves the other slots as they are. -/
theorem filter_setSlot (name : String) (r : Reference) (slots : List (String × Reference)) :
    (setSlot name r slots).filter (fun e => e.1 ≠ name) = slots.filter (fun e => e.1 ≠ name) := by
  induction slots with
  | nil => simp [setSlot]
  | cons e slots ih =>
    obtain ⟨n, old⟩ := e
    by_cases hn : n = name
    · simp [setSlot, hn]
    · simpa [setSlot, hn] using ih

/-- Writing to a slot what it holds already changes nothing. -/
theorem setSlot_setSlot {r r' : Reference}
    (hunion : ∀ q : Reference, (q.union r).union r' = q.union r) (name : String)
    (slots : List (String × Reference)) :
    setSlot name r' (setSlot name r slots) = setSlot name r slots := by
  induction slots with
  | nil => simp [setSlot, hunion]
  | cons e slots ih =>
    obtain ⟨n, old⟩ := e
    by_cases hn : n = name
    · simp [setSlot, hn, hunion]
    · simp [setSlot, hn, ih]

/-- What an object newly reads was written. -/
theorem mem_get_of_mem_get_set {o : ObjectCell} {k kw : Key} {r : Reference} {v : Value}
    (h : v ∈ (o.set kw r).get k) : v ∈ o.get k ∨ v ∈ r := by
  cases k with
  | any => exact (holds_set.1 (mem_get_any.1 h)).imp_left mem_get_any.2
  | name name =>
    rcases mem_get_name.1 h with ⟨s, hs, hv⟩ | ⟨s, hs, hv⟩
    · cases kw with
      | any => exact .inl (mem_get_name.2 (.inl ⟨s, hs, hv⟩))
      | name written =>
        rw [slot?_set_name] at hs
        split at hs
        · next heq =>
          subst heq
          cases hs
          refine (Reference.mem_union.1 hv).imp_left fun hv => mem_get_name.2 (.inl ?_)
          exact mem_getD.1 hv
        · exact .inl (mem_get_name.2 (.inl ⟨s, hs, hv⟩))
    · cases kw with
      | name written => exact .inl (mem_get_name.2 (.inr ⟨s, hs, hv⟩))
      | any =>
        cases hs
        exact (Reference.mem_union.1 hv).imp_left fun hv => mem_get_name.2 (.inr (mem_getD.1 hv))

end ObjectCell

namespace Contents

/-- Two cells of the same kind, objects with the same slots but for the one that a key names. -/
inductive AgreeOff : Key → Contents → Contents → Prop where
  | array {k : Key} {a a' : ArrayCell} : AgreeOff k (.array a) (.array a')
  | wildcard {o o' : ObjectCell} : o'.slots = o.slots → AgreeOff .any (.object o) (.object o')
  | slot {name : String} {o o' : ObjectCell} : o'.wildcard = o.wildcard →
      o'.slots.filter (fun e => e.1 ≠ name) = o.slots.filter (fun e => e.1 ≠ name) →
      AgreeOff (.name name) (.object o) (.object o')

/-- Contents agree with themselves. -/
theorem AgreeOff.refl (k : Key) (c : Contents) : AgreeOff k c c := by
  cases c with
  | array a => exact .array
  | object o =>
    cases k with
    | any => exact .wildcard rfl
    | name name => exact .slot rfl rfl

/-- A write leaves the contents at other keys as they are. -/
theorem agreeOff_set (c : Contents) (k : Key) (r : Reference) : AgreeOff k c (c.set k r) := by
  cases c with
  | array a => exact .array
  | object o =>
    cases k with
    | any => exact .wildcard rfl
    | name name => exact .slot rfl (ObjectCell.filter_setSlot name r o.slots)

/-- A write adds to a key what is written or what was held already. -/
theorem mem_get_of_mem_get_set {c : Contents} {k kw : Key} {r : Reference} {v : Value}
    (h : v ∈ (c.set kw r).get k) : v ∈ c.get k ∨ v ∈ c.get .any ∨ v ∈ r := by
  cases c with
  | array a => exact ArrayCell.mem_get_of_mem_get_set h
  | object o => exact (ObjectCell.mem_get_of_mem_get_set h).imp_right .inr

/-- What is written under a key is seen under every key that may be the same, unless a method
shadows it. -/
theorem mem_get_set_iff {c : Contents} {k kw : Key} {r : Reference} {v : Value}
    (hmeets : kw.Meets k)
    (hlength : ∀ a, c = .array a → kw ≠ .name "length" ∧ k ≠ .name "length") (hcell : v.hasCell)
    (hv : v ∈ r) :
    v ∈ (c.set kw r).get k ↔ ¬(kw = .any ∧ ∃ a, c = .array a ∧ a.Shadows k) := by
  cases c with
  | array a =>
    obtain ⟨hkw, hk⟩ := hlength a rfl
    have helements : v ∈ (a.set kw r).elements := ArrayCell.mem_elements_set.2 (.inr ⟨hkw, hv⟩)
    show v ∈ (a.set kw r).get k ↔ _
    rw [ArrayCell.mem_get_iff hcell hk, ArrayCell.shadows_set_iff hmeets hkw]
    simp [helements]
  | object o =>
    refine iff_of_true ?_ (by simp)
    rcases hmeets with rfl | rfl | rfl
    · exact mem_get_of_written (by simp) hv
    · cases k with
      | any => exact mem_get_of_written (by simp) hv
      | name name =>
        exact ObjectCell.mem_get_name.2 (.inr ⟨_, rfl, Reference.mem_union.2 (.inr hv)⟩)
    · exact mem_get_any.2 (ObjectCell.holds_set.2 (.inr hv))

/-- A write of what was just written changes nothing. -/
theorem set_set_of_subset (c : Contents) (k : Key) {r r' : Reference} (hsub : ∀ x ∈ r', x ∈ r) :
    (c.set k r).set k r' = c.set k r := by
  have hunion : ∀ q : Reference, (q.union r).union r' = q.union r := fun q =>
    Reference.union_of_subset fun x hx => Reference.mem_union.2 (.inr (hsub x hx))
  cases c with
  | array a =>
    show array ((a.set k r).set k r') = array (a.set k r)
    by_cases hk : k = .name "length"
    · simp [ArrayCell.set, hk]
    · simp [ArrayCell.set, hk, hunion]
  | object o =>
    show object ((o.set k r).set k r') = object (o.set k r)
    cases k with
    | any => simp [ObjectCell.set, hunion]
    | name name => simp [ObjectCell.set, ObjectCell.setSlot_setSlot hunion]

end Contents

/-! ## Heaps -/

namespace Heap

/-- What a value holds depends on its cell alone. -/
theorem getKeyOf_congr {h h' : Heap} {w : Value} (hw : h'.contents w = h.contents w) (k : Key) :
    h'.getKeyOf k w = h.getKeyOf k w := by
  cases w with
  | object id =>
    have hid : h'.objects[id]? = h.objects[id]? :=
      Option.map_injective (fun _ _ => Contents.object.inj) hw
    rw [getKeyOf, getKeyOf, object, object, hid]
  | array id =>
    have hid : h'.arrays[id]? = h.arrays[id]? :=
      Option.map_injective (fun _ _ => Contents.array.inj) hw
    rw [getKeyOf, getKeyOf, array, array, hid]
  | _ => rfl

/-- What a read newly gives after a write was written, or was in the container. -/
theorem mem_getKeyOf_of_mem_setKey {h : Heap} {r v : Reference} {k kr : Key} {w x : Value}
    (hx : x ∈ (h.setKey r k v).getKeyOf kr w) :
    x ∈ h.getKeyOf kr w ∨ w ∈ r ∧ (x ∈ h.getKeyOf .any w ∨ x ∈ v) := by
  have hcontents := contents_setKey h r k v w
  by_cases hw : w ∈ r
  · rw [if_pos hw] at hcontents
    cases hc : h.contents w with
    | none =>
      rw [hc, Option.map_none, ← hc] at hcontents
      rw [getKeyOf_congr hcontents] at hx
      exact .inl hx
    | some c =>
      rw [hc, Option.map_some] at hcontents
      rw [getKeyOf_of_contents hcontents] at hx
      rw [getKeyOf_of_contents hc, getKeyOf_of_contents hc]
      exact (Contents.mem_get_of_mem_get_set hx).imp_right fun hx => ⟨hw, hx⟩
  · rw [if_neg hw] at hcontents
    rw [getKeyOf_congr hcontents] at hx
    exact .inl hx

/-- What is done to a heap when possibilities are added at a key of what a reference may stand
for. -/
structure WeakUpdate (h : Heap) (r : Reference) (k : Key) (v : Reference) (h' : Heap) : Prop where
  /-- No read loses anything, by a reference that may have grown as well. -/
  reads : ∀ {q q' : Reference} {kr x}, (∀ w ∈ q, w ∈ q') → x ∈ h.getKey q kr → x ∈ h'.getKey q' kr
  /-- What the reference does not stand for is left alone. -/
  frame : ∀ w, w ∉ r → h'.contents w = h.contents w
  closures : h'.closures = h.closures
  frames : h'.frames = h.frames
  /-- No container comes or goes, and objects change in one slot. -/
  written : ∀ w, Option.Rel (Contents.AgreeOff k) (h.contents w) (h'.contents w)
  /-- What is newly read was written, or was in the container. -/
  origin : ∀ {w kr x}, x ∈ h'.getKeyOf kr w →
    x ∈ h.getKeyOf kr w ∨ w ∈ r ∧ (x ∈ h.getKeyOf .any w ∨ x ∈ v)

/-- What is read under some key and has a cell is read under the wildcard. -/
theorem mem_getKeyOf_any {h : Heap} {w : Value} {k : Key} {x : Value} (hcell : x.hasCell)
    (hx : x ∈ h.getKeyOf k w) : x ∈ h.getKeyOf .any w := by
  cases w with
  | object id => exact ObjectCell.mem_get_any.2 (ObjectCell.holds_of_mem_get hx)
  | array id =>
    rcases ArrayCell.mem_elements_of_mem_get hx with hx | ⟨b, rfl⟩ | rfl
    · exact hx
    · cases hcell
    · cases hcell
  | intrinsic i =>
    -- an intrinsic holds methods only
    dsimp only [getKeyOf] at hx
    split at hx
    · split at hx
      · rw [Reference.mem_single.1 hx] at hcell
        cases hcell
      · exact absurd hx (Reference.not_mem_empty x)
    · exact absurd hx (Reference.not_mem_empty x)
  | _ => exact absurd hx (Reference.not_mem_empty x)

/-- A write adds possibilities and does nothing else; and the wildcard reads all the objects, arrays
and functions that any key reads. -/
theorem setKey_weakUpdate (h : Heap) (r : Reference) (k : Key) (v : Reference) :
    h.WeakUpdate r k v (h.setKey r k v) ∧
      ∀ {kr x}, x.hasCell → x ∈ h.getKey r kr → x ∈ h.getKey r .any := by
  obtain ⟨hframes, hclosures⟩ := frames_foldl_setKeyOf h k v r.values
  refine ⟨⟨fun {q q' kr x} hq hx => ?_, fun w hw => ?_, hclosures, hframes, fun w => ?_,
    mem_getKeyOf_of_mem_setKey⟩, fun {kr x} hcell hx => ?_⟩
  · obtain ⟨w, hw, hx⟩ := mem_getKey.1 hx
    exact mem_getKey.2 ⟨w, hq w hw, (keeps_setKey h r k v).reads hx⟩
  · rw [contents_setKey, if_neg hw]
  · rw [contents_setKey]
    cases h.contents w with
    | none => rw [Option.map_none, ite_self]; exact .none
    | some c =>
      split
      · exact .some (Contents.agreeOff_set c k v)
      · exact .some (Contents.AgreeOff.refl k c)
  · obtain ⟨w, hw, hx⟩ := mem_getKey.1 hx
    exact mem_getKey.2 ⟨w, hw, mem_getKeyOf_any hcell hx⟩

/-- An array that holds itself is written to under the name of a method: itself is newly read
there. -/
theorem setKey_weakUpdate_selfHolding :
    let a : Reference := .single (.array 0)
    let h : Heap := { Heap.empty with arrays := #[⟨a, false⟩] }
    let h' := h.setKey a (.name "push") (.single (.function 0))
    h.getKey a (.name "push") = .single (.builtin .arrayPush) ∧
      .array 0 ∈ h'.getKey a (.name "push") ∧ .array 0 ∈ h'.getKey a .any := by
  intro a h h'
  refine ⟨by decide +kernel, by decide +kernel, ?_⟩
  exact @(setKey_weakUpdate h' a .any .empty).2 (.name "push") _ rfl (by decide +kernel)

/-! ### Repeated writes -/

/-- A heap is its containers, functions and frames. -/
theorem ext_of_contents {h h' : Heap} (hcontents : ∀ w, h.contents w = h'.contents w)
    (hclosures : h.closures = h'.closures) (hframes : h.frames = h'.frames) : h = h' := by
  obtain ⟨objects, arrays, closures, frames⟩ := h
  obtain ⟨objects', arrays', closures', frames'⟩ := h'
  have hobjects : objects = objects' := Array.ext_getElem? fun id =>
    Option.map_injective (fun _ _ => Contents.object.inj) (hcontents (.object id))
  have harrays : arrays = arrays' := Array.ext_getElem? fun id =>
    Option.map_injective (fun _ _ => Contents.array.inj) (hcontents (.array id))
  cases hclosures
  cases hframes
  rw [hobjects, harrays]

/-- A write of what was just written changes nothing. -/
theorem setKey_setKey_of_subset (h : Heap) (r : Reference) (k : Key) {v v' : Reference}
    (hsub : ∀ x ∈ v', x ∈ v) : (h.setKey r k v).setKey r k v' = h.setKey r k v := by
  obtain ⟨hframes, hclosures⟩ := frames_foldl_setKeyOf (h.setKey r k v) k v' r.values
  refine ext_of_contents (fun w => ?_) hclosures hframes
  rw [contents_setKey, contents_setKey]
  split
  · rw [Option.map_map]
    exact congrArg (Option.map · _) (funext fun c => c.set_set_of_subset k hsub)
  · rfl

/-- A container is an array that reads a key as a method alone. -/
def Shadows (h : Heap) (k : Key) (w : Value) : Prop :=
  ∃ a, h.contents w = some (.array a) ∧ a.Shadows k

variable {h : Heap} {r : Reference} {k kw : Key} {v : Reference} {x : Value}

/-- What is written to containers under a key is seen under every key that may be the same, but for
a write under the wildcard that is read as a method of an array to which nothing was ever written
under a name. -/
theorem mem_getKey_setKey_iff (hmeets : kw.Meets k)
    (hr : ∀ w ∈ r, ∃ c, h.contents w = some c ∧
      ∀ a, c = .array a → kw ≠ .name "length" ∧ k ≠ .name "length")
    (hcell : x.hasCell) (hx : x ∈ v) :
    (∀ w ∈ r, x ∈ (h.setKey r kw v).getKeyOf k w ↔ ¬(kw = .any ∧ h.Shadows k w)) ∧
      (x ∈ (h.setKey r kw v).getKey r k ↔ ∃ w ∈ r, ¬(kw = .any ∧ h.Shadows k w)) := by
  have hof : ∀ w ∈ r, x ∈ (h.setKey r kw v).getKeyOf k w ↔ ¬(kw = .any ∧ h.Shadows k w) := by
    intro w hw
    obtain ⟨c, hc, hlength⟩ := hr w hw
    have hc' : (h.setKey r kw v).contents w = some (c.set kw v) := by
      rw [contents_setKey, if_pos hw, hc, Option.map_some]
    rw [getKeyOf_of_contents hc', Contents.mem_get_set_iff hmeets hlength hcell hx]
    simp only [Shadows, hc, Option.some.injEq]
  refine ⟨hof, mem_getKey.trans ⟨?_, ?_⟩⟩
  · rintro ⟨w, hw, hread⟩
    exact ⟨w, hw, (hof w hw).1 hread⟩
  · rintro ⟨w, hw, hseen⟩
    exact ⟨w, hw, (hof w hw).2 hseen⟩

/-- An object and an array are written to under the wildcard. The object reads what was written as
its `push`, the array does not. -/
theorem mem_getKey_setKey_iff_wildcard :
    let r : Reference := .ofList [.object 0, .array 0]
    let h : Heap := { Heap.empty with objects := #[.empty], arrays := #[⟨.empty, false⟩] }
    let h' := h.setKey r .any (.single (.function 0))
    .function 0 ∈ h'.getKeyOf (.name "push") (.object 0) ∧
      .function 0 ∉ h'.getKeyOf (.name "push") (.array 0) := by
  intro r h h'
  have hr : ∀ w ∈ r, ∃ c, h.contents w = some c ∧
      ∀ a, c = .array a → Key.any ≠ .name "length" ∧ Key.name "push" ≠ .name "length" := by
    intro w hw
    have hw : w = .object 0 ∨ w = .array 0 := by simpa [r] using hw
    rcases hw with rfl | rfl
    · exact ⟨_, rfl, fun _ _ => by decide⟩
    · exact ⟨_, rfl, fun _ _ => by decide⟩
  have hseen := (mem_getKey_setKey_iff (v := .single (.function 0)) (.inr (.inl rfl)) hr
    (x := .function 0) rfl (by decide)).1
  refine ⟨(hseen _ (by decide)).2 ?_, fun hmem => (hseen _ (by decide)).1 hmem ?_⟩
  · rintro ⟨-, a, ha, -⟩
    cases ha
  · exact ⟨rfl, _, rfl, rfl, "push", .arrayPush, rfl, by decide +kernel⟩

end Heap

/-- The program `const a = []; const k = "push"; a[k] = g; a.push.x = 1;`, or with another literal
of the same length for `a`. The global `g` is an empty object. -/
def wildcardWrite (text : String) (literal : Expr) : Setup where
  options := Options.standard
  programs := #[.ofProgram ⟨"script",
    "const a = " ++ text ++ "; const k = \"push\"; a[k] = g; a.push.x = 1;",
    [.declareLexical ⟨0, 12⟩ [.mk (.leaf (.identifier ⟨"a", ⟨6, 7⟩⟩)) (some literal)],
      .declareLexical ⟨14, 30⟩ [.mk (.leaf (.identifier ⟨"k", ⟨20, 21⟩⟩))
        (some (.string ⟨24, 30⟩ "push"))],
      .expression (.assign ⟨32, 40⟩ .plain (.leaf (.bracket ⟨32, 36⟩ (.identifier ⟨"a", ⟨32, 33⟩⟩)
        (.identifier ⟨"k", ⟨34, 35⟩⟩))) (.identifier ⟨"g", ⟨39, 40⟩⟩)),
      .expression (.assign ⟨42, 54⟩ .plain (.leaf (.dot ⟨42, 50⟩ (.dot ⟨42, 48⟩
        (.identifier ⟨"a", ⟨42, 43⟩⟩) "push") "x")) (.number ⟨53, 54⟩ (some (.ofNat 1))))]⟩]
  graph := emptyGlobal
  resolver := none
  canceled := false

/-- The global is written to an array under a key that is not known and read as its `push`: the
write to it is missed. If the array is an object instead, it is reported. -/
theorem wildcardWrite_unreported :
    ((wildcardWrite "\x7b\x7d" (.object ⟨10, 12⟩ [])).analyze (.container 0)).1.toOption =
        some ⟨[⟨"Cannot assign to property of global value g", ⟨42, 54⟩, "g"⟩], []⟩ ∧
    ((wildcardWrite "[]" (.array ⟨10, 12⟩ [])).analyze (.container 0)).1.toOption =
        some ⟨[], []⟩ := by
  decide +kernel

end FrozenGlobals
