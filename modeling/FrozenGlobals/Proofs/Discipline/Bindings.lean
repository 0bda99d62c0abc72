import FrozenGlobals.Proofs.Discipline.Sites

/-!
# Slots and bindings are kept

Whatever is evaluated, from whatever state, reading a container under a key gives at least what it
gave before, and a name that a frame binds stays bound there, to whatever it is then. `State.Keeps`
says so of two states, and `State.Keeps.of_ok` of an activity that ended.
-/

namespace FrozenGlobals

open Run Discipline

/-! ## Slots -/

/-- An array that holds more is read as more, at every key. -/
theorem ArrayCell.mem_get_mono {a a' : ArrayCell} (helements : ∀ v ∈ a.elements, v ∈ a'.elements)
    (hnamed : a.named → a'.named) {k : Key} {v : Value} (hv : v ∈ a.get k) : v ∈ a'.get k := by
  unfold get at hv ⊢
  split
  · next hk =>
    rw [if_pos hk] at hv
    exact helements v hv
  · next hk =>
    rw [if_neg hk] at hv
    cases k with
    | any => exact helements v hv
    | name name =>
      dsimp only at hv ⊢
      split
      · next hlength => rwa [if_pos hlength] at hv
      · next hlength =>
        rw [if_neg hlength] at hv
        cases hb : Builtin.find? .arrayInstance name with
        | none =>
          rw [hb] at hv
          exact helements v hv
        | some b =>
          rw [hb] at hv
          dsimp only at hv ⊢
          cases ha : a.named with
          | true =>
            rw [ha, if_pos rfl] at hv
            rw [if_pos (hnamed ha)]
            exact Reference.mem_union.2 ((Reference.mem_union.1 hv).imp_right (helements v))
          | false =>
            rw [ha, if_neg Bool.false_ne_true] at hv
            split
            · exact Reference.mem_union.2 (.inl hv)
            · exact hv

/-- A write keeps what is read. -/
theorem Contents.mem_get_set {c : Contents} (k : Key) (r : Reference) {k' : Key} {v : Value}
    (hv : v ∈ c.get k') : v ∈ (c.set k r).get k' := by
  cases c with
  | array a =>
    cases Contents.Grows.set (.array a) k r with
    | array helements hnamed => exact ArrayCell.mem_get_mono helements hnamed hv
  | object o =>
    cases k' with
    | any =>
      exact Contents.mem_get_any.2 (ObjectCell.holds_set.2 (.inl (Contents.mem_get_any.1 hv)))
    | name name =>
      cases Contents.Grows.set (.object o) k r with
      | object hslots hwildcard =>
        refine ObjectCell.mem_get_name.2 ((ObjectCell.mem_get_name.1 hv).imp ?_ ?_)
        · rintro ⟨r, hr, hv⟩
          obtain ⟨r', hr', hsub⟩ := hslots name r hr
          exact ⟨r', hr', hsub v hv⟩
        · rintro ⟨r, hr, hv⟩
          obtain ⟨r', hr', hsub⟩ := hwildcard r hr
          exact ⟨r', hr', hsub v hv⟩

/-- What is written under a key is read there, but for the `length` of an array. -/
theorem Contents.mem_get_of_written {c : Contents} {k : Key} {r : Reference} {v : Value}
    (hk : ∀ a, c = .array a → k ≠ .name "length") (hv : v ∈ r) : v ∈ (c.set k r).get k := by
  cases c with
  | object o =>
    cases k with
    | any => exact Contents.mem_get_any.2 (ObjectCell.holds_set.2 (.inr hv))
    | name name =>
      refine ObjectCell.mem_get_name.2 (.inl
        ⟨_, (ObjectCell.slot?_set_name o name r name).trans (if_pos rfl), ?_⟩)
      exact Reference.mem_union.2 (.inr hv)
  | array a =>
    have hlength : k ≠ .name "length" := hk a rfl
    have helements : v ∈ (a.set k r).elements := ArrayCell.mem_elements_set.2 (.inr ⟨hlength, hv⟩)
    show v ∈ (a.set k r).get k
    unfold ArrayCell.get
    split
    · exact helements
    · next hindex =>
      cases k with
      | any => exact helements
      | name name =>
        dsimp only
        rw [if_neg (by simpa using hlength)]
        split
        · have hnamed : (a.set (.name name) r).named = true := by
            simp [ArrayCell.set, hlength, hindex]
          rw [if_pos hnamed]
          exact Reference.mem_union.2 (.inr helements)
        · exact helements

namespace Heap

/-- Containers stay and hold what they held, and frames stay and bind the names that they bound. -/
structure Keeps (h h' : Heap) : Prop where
  containers : ∀ w, (h.contents w).isSome → (h'.contents w).isSome
  reads : ∀ {k w v}, v ∈ h.getKeyOf k w → v ∈ h'.getKeyOf k w
  frames : h.frames.size ≤ h'.frames.size
  bound : ∀ {f name}, ((h.frame f).find? name).isSome → ((h'.frame f).find? name).isSome

/-- A heap keeps its own slots and bindings. -/
theorem Keeps.refl (h : Heap) : h.Keeps h := ⟨fun _ => id, id, Nat.le_refl _, id⟩

/-- Keeping slots and bindings is transitive. -/
theorem Keeps.trans {h₁ h₂ h₃ : Heap} (h : h₁.Keeps h₂) (h' : h₂.Keeps h₃) : h₁.Keeps h₃ :=
  ⟨fun w hw => h'.containers w (h.containers w hw), fun hv => h'.reads (h.reads hv),
    Nat.le_trans h.frames h'.frames, fun hb => h'.bound (h.bound hb)⟩

/-- What is read of a reference is kept. -/
theorem Keeps.getKey {h h' : Heap} (hk : h.Keeps h') {r : Reference} {k : Key} {v : Value}
    (hv : v ∈ h.getKey r k) : v ∈ h'.getKey r k := by
  obtain ⟨w, hw, hv⟩ := mem_getKey.1 hv
  exact mem_getKey.2 ⟨w, hw, hk.reads hv⟩

/-- What is not a container, or one that is not there, has nothing that could be lost. -/
theorem reads_of_contents {h h' : Heap} (hc : ∀ w c, h.contents w = some c →
      ∃ c', h'.contents w = some c' ∧ ∀ {k v}, v ∈ c.get k → v ∈ c'.get k)
    {k : Key} {w v : Value} (hv : v ∈ h.getKeyOf k w) : v ∈ h'.getKeyOf k w := by
  cases hw : h.contents w with
  | some c =>
    obtain ⟨c', hw', hsub⟩ := hc w c hw
    rw [getKeyOf_of_contents hw] at hv
    rw [getKeyOf_of_contents hw']
    exact hsub hv
  | none =>
    cases w with
    | object id =>
      have hnone : h.objects[id]? = none := by simpa [contents] using hw
      rw [getKeyOf, object, hnone] at hv
      exact absurd (ObjectCell.holds_of_mem_get hv) (by simp [ObjectCell.Holds, ObjectCell.empty])
    | array id =>
      have hnone : h.arrays[id]? = none := by simpa [contents] using hw
      rw [getKeyOf, array, hnone] at hv
      exact ArrayCell.mem_get_mono (by simp) (by simp) hv
    | _ => exact hv

/-- Containers that are there stay what they are. -/
theorem Keeps.of_contents {h h' : Heap} (hc : ∀ w c, h.contents w = some c → h'.contents w = some c)
    (hframes : h.frames.toList <+: h'.frames.toList) : h.Keeps h' where
  containers w hw := by
    obtain ⟨c, hw⟩ := Option.isSome_iff_exists.1 hw
    exact Option.isSome_iff_exists.2 ⟨c, hc w c hw⟩
  reads := reads_of_contents fun w c hw => ⟨c, hc w c hw, id⟩
  frames := by simpa using hframes.length_le
  bound := isSome_find?_of_prefix hframes

/-- A new object changes no slots and bindings that were there. -/
theorem keeps_addObject (h : Heap) (o : ObjectCell) : h.Keeps (h.addObject o).2 := by
  refine .of_contents (fun w c hw => ?_) (List.prefix_refl _)
  rw [contents_addObject, if_neg]
  · exact hw
  · rintro rfl
    rw [contents_addObject_fresh] at hw
    cases hw

/-- A new array changes no slots and bindings that were there. -/
theorem keeps_addArray (h : Heap) (r : Reference) : h.Keeps (h.addArray r).2 := by
  refine .of_contents (fun w c hw => ?_) (List.prefix_refl _)
  rw [contents_addArray, if_neg]
  · exact hw
  · rintro rfl
    rw [contents_addArray_fresh] at hw
    cases hw

/-- A new frame changes no slots and bindings that were there. -/
theorem keeps_addFrame (h : Heap) (f : Frame) : h.Keeps (h.addFrame f).2 :=
  .of_contents (fun _ _ => id) (by simp [addFrame])

/-- A write to one value keeps what is read. -/
theorem keeps_setKeyOf (h : Heap) (k : Key) (r : Reference) (w : Value) :
    h.Keeps (h.setKeyOf k r w) := by
  have hcontents : ∀ w' c, h.contents w' = some c → ∃ c', (h.setKeyOf k r w).contents w' = some c' ∧
      ∀ {k' v}, v ∈ c.get k' → v ∈ c'.get k' := by
    intro w' c hw'
    rw [contents_setKeyOf]
    split
    · next heq =>
      subst heq
      exact ⟨_, by rw [hw']; rfl, Contents.mem_get_set k r⟩
    · exact ⟨c, hw', id⟩
  have hframes : (h.setKeyOf k r w).frames = h.frames := (frames_foldl_setKeyOf h k r [w]).1
  refine ⟨fun w' hw' => ?_, reads_of_contents hcontents, Nat.le_of_eq (by rw [hframes]), ?_⟩
  · obtain ⟨c, hc⟩ := Option.isSome_iff_exists.1 hw'
    obtain ⟨c', hc', -⟩ := hcontents w' c hc
    exact Option.isSome_iff_exists.2 ⟨c', hc'⟩
  · intro f name hb
    rwa [frame, hframes]

/-- A write to all possibilities keeps what is read. -/
theorem keeps_setKey (h : Heap) (r : Reference) (k : Key) (v : Reference) :
    h.Keeps (h.setKey r k v) := by
  have hfold : ∀ (ws : List Value) (h : Heap),
      h.Keeps (ws.foldl (fun h w => h.setKeyOf k v w) h) := by
    intro ws
    induction ws with
    | nil => exact .refl
    | cons w ws ih => exact fun h => (keeps_setKeyOf h k v w).trans (ih _)
  exact hfold r.values h

/-- A binding keeps the names that frames bind. -/
theorem keeps_define (h : Heap) (frame : Nat) (name : String) (o : Operand) :
    h.Keeps (h.define frame name o) where
  containers _ := id
  reads hv := by
    cases ‹Value› <;> exact hv
  frames := by simp [define]
  bound {f other} hb := by
    rw [frame_define]
    split
    · next hf =>
      rw [Frame.find?_define, ← hf.1]
      split
      · rfl
      · exact hb
    · exact hb

end Heap

/-! ## States -/

/-- Slots, thrown values and bindings are kept. -/
structure State.Keeps (s s' : State) : Prop where
  heap : s.heap.Keeps s'.heap
  thrown : ∀ v ∈ s.thrown, v ∈ s'.thrown

namespace State.Keeps

/-- A state keeps its own slots and bindings. -/
theorem refl (s : State) : s.Keeps s := ⟨.refl _, fun _ => id⟩

/-- Keeping slots and bindings is transitive between states. -/
theorem trans {s₁ s₂ s₃ : State} (h : s₁.Keeps s₂) (h' : s₂.Keeps s₃) : s₁.Keeps s₃ :=
  ⟨h.heap.trans h'.heap, fun v hv => h'.thrown v (h.thrown v hv)⟩

/-- What an operand stands for is kept. -/
theorem now {s s' : State} (h : s.Keeps s') {o : Operand} {v : Value} (hv : v ∈ o.now s) :
    v ∈ o.now s' := by
  cases o with
  | known r => exact hv
  | thrown => exact h.thrown v hv

/-- Every single change keeps slots and bindings. -/
theorem change {setup : Setup} {scope : Stack → Prop} {code : Nat → Script.Function → Prop}
    {place : Nat → Script.Span → Prop} {s s' : State} (h : Change setup scope code place s s') :
    s.Keeps s' := by
  refine ⟨?_, h.grows.thrown⟩
  cases h with
  | note | warn | skip | report | throws => exact .refl _
  | object o => exact Heap.keeps_addObject ..
  | array r => exact Heap.keeps_addArray ..
  | frame f => exact Heap.keeps_addFrame ..
  | define frame name o => exact Heap.keeps_define ..
  | setKey r k v => exact Heap.keeps_setKey ..
  | accessor | closure => exact .of_contents (fun _ _ => id) (List.prefix_refl _)
  | @convert root entries _ =>
    refine Host.Conversion.frame_of_steps (R := fun c c' => c.heap.Keeps c'.heap) (fun _ => .refl _)
      .trans (fun c k id path => ?_) (fun c v k part => Heap.keeps_setKeyOf ..)
      (fun c f => Heap.keeps_addFrame ..) setup.graph s.conversion entries
    cases k with
    | object entries absent => exact Heap.keeps_addObject ..
    | array items shared => exact Heap.keeps_addArray ..
    | keyedBy kind => exact .refl _

end State.Keeps

/-- States grow and keep slots and bindings, whatever they are and whatever is evaluated. -/
def Discipline.keeping (setup : Setup) : Discipline setup :=
  { Discipline.growth setup with
    le := fun s s' => s.Later s' ∧ s.Keeps s'
    refl := fun s => ⟨.refl s, .refl s⟩
    trans := fun h h' => ⟨h.1.trans h'.1, h.2.trans h'.2⟩
    position := fun h => h.1.position
    change := fun _ h => ⟨trivial, ⟨h.grows, h.reportsUnder, h.position⟩, .change h⟩
    inUnit := fun _ _ => ⟨trivial, fun _ h => ⟨trivial, h.1.leave_unit, h.2.heap, h.2.thrown⟩⟩
    closure := fun _ _ => ⟨trivial, fun _ _ => trivial⟩
    missing := fun _ _ => trivial
    stops_le := fun _ h => h
    parted_le := fun _ h => h }

instance (setup : Setup) : (Discipline.keeping setup).Alone := ⟨rfl, fun _ _ _ => id, fun _ => id⟩

instance (setup : Setup) : (Discipline.keeping setup).Counting :=
  ⟨fun _ _ _ => ⟨trivial, fun _ h => ⟨trivial, h.1.returned, h.2.heap, h.2.thrown⟩⟩⟩

instance (setup : Setup) : (Discipline.keeping setup).Open where
  scope _ := trivial
  code _ _ := trivial
  place _ _ := trivial
  enters _ _ := trivial
  fails _ := trivial
  anchored _ _ := ⟨trivial, fun _ h => ⟨trivial, h.1.leave_anchor, h.2.heap, h.2.thrown⟩⟩

/-- Every level of the evaluation keeps slots and bindings. -/
theorem Evaluator.agrees_keeping (setup : Setup) (n : Nat) :
    Agrees (Discipline.keeping setup) .all (ofFuel n) (ofFuel n) := agrees_all n

section
variable {setup : Setup} {α : Type} {x : Run α} {a : α} {Q : α → Prop} {s s' : State}

/-- What ended has kept slots and bindings, and its result is as it should be. -/
theorem State.Keeps.of_ok_and (hx : x setup s = .ok a s')
    (h : ∀ p, (Discipline.keeping setup).Keeps p x Q) : s.Keeps s' ∧ Q a := by
  have hagree := (h s.position).alone s trivial rfl
  rw [hx] at hagree
  exact ⟨hagree.2.2.1.2, hagree.2.2.2⟩

/-- What ended has kept slots and bindings. -/
theorem State.Keeps.of_ok (hx : x setup s = .ok a s')
    (h : ∀ p, (Discipline.keeping setup).Keeps p x Q) : s.Keeps s' := (of_ok_and hx h).1

end

end FrozenGlobals
