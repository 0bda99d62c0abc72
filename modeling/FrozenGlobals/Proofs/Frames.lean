import FrozenGlobals.Proofs.Contents

/-!
# Frames

What binding a name does to a frame and to the heap it lies in. `Heap.frame_define` says that only
one frame changes, `Frame.find?_define` that only one name does, and `Frame.keys_setBinding` that a
name bound again adds no name.
-/

namespace FrozenGlobals

namespace Frame

/-- A name that is not bound is bound behind the others. -/
theorem setBinding_of_not_mem {name : String} {o : Operand} {bs : List (String × Operand)}
    (h : name ∉ bs.map (·.1)) : setBinding name o bs = bs ++ [(name, o)] := by
  induction bs with
  | nil => rfl
  | cons b bs ih =>
      obtain ⟨n, old⟩ := b
      have hne : (n == name) = false := beq_eq_false_iff_ne.2 fun heq => h (by simp [heq])
      have hbs : name ∉ bs.map (·.1) := fun hmem => h (List.mem_cons_of_mem _ hmem)
      simp [setBinding, hne, ih hbs]

/-- Binding a name leaves the other bindings and adds the operand. -/
theorem mem_setBinding {name : String} {o : Operand} {bs : List (String × Operand)}
    {b : String × Operand} (h : b ∈ setBinding name o bs) : b ∈ bs ∨ b.2 = o := by
  induction bs with
  | nil =>
    rw [setBinding, List.mem_singleton] at h
    exact .inr (by rw [h])
  | cons e bs ih =>
    obtain ⟨n, old⟩ := e
    rw [setBinding] at h
    split at h
    · rcases List.mem_cons.1 h with h | h
      · exact .inr (by rw [h])
      · exact .inl (List.mem_cons_of_mem _ h)
    · rcases List.mem_cons.1 h with h | h
      · exact .inl (h ▸ List.mem_cons_self)
      · exact (ih h).imp_left (List.mem_cons_of_mem _)

/-- Binding a name that is bound keeps the names and their order. -/
theorem keys_setBinding {name : String} {o : Operand} {bs : List (String × Operand)}
    (h : name ∈ bs.map (·.1)) : (setBinding name o bs).map (·.1) = bs.map (·.1) := by
  induction bs with
  | nil => cases h
  | cons e bs ih =>
    obtain ⟨n, old⟩ := e
    rw [setBinding]
    split
    · rfl
    · next hne =>
      have hmem : name ∈ bs.map (·.1) := by
        rcases List.mem_cons.1 h with heq | h
        · exact absurd (beq_iff_eq.2 heq.symm) hne
        · exact h
      rw [List.map_cons, ih hmem]
      rfl

/-- Looking a name up among bindings one of which was replaced or added. -/
theorem find?_setBinding (name : String) (o : Operand) (bs : List (String × Operand))
    (other : String) :
    ((setBinding name o bs).find? fun e => e.1 == other).map (·.2) =
      if other = name then some o else (bs.find? fun e => e.1 == other).map (·.2) := by
  induction bs with
  | nil =>
    by_cases h : other = name
    · simp [setBinding, h]
    · simp [setBinding, h, Ne.symm h]
  | cons e bs ih =>
    obtain ⟨n, old⟩ := e
    by_cases hn : n = name
    · subst hn
      by_cases h : other = n
      · simp [setBinding, h]
      · simp [setBinding, h, Ne.symm h]
    · by_cases hno : n = other
      · subst hno
        simp [setBinding, hn]
      · simpa [setBinding, hn, hno] using ih

/-- A frame binds a name anew and leaves the other names alone. -/
theorem find?_define (f : Frame) (name : String) (o : Operand) (other : String) :
    (f.define name o).find? other = if other = name then some o else f.find? other :=
  find?_setBinding name o f.bindings other

/-- A name is found if it is among those bound. -/
theorem find?_isSome_iff {f : Frame} {name : String} :
    (f.find? name).isSome ↔ name ∈ f.bindings.map (·.1) := by
  simp [find?, List.find?_isSome]

/-- What is found is among the bindings. -/
theorem mem_bindings_of_find? {f : Frame} {name : String} {o : Operand}
    (h : f.find? name = some o) : (name, o) ∈ f.bindings := by
  obtain ⟨⟨n, o'⟩, he, rfl⟩ := Option.map_eq_some_iff.1 h
  have hn := List.find?_some he
  rw [beq_iff_eq] at hn
  exact hn ▸ List.mem_of_find?_eq_some he

end Frame

namespace Heap

/-- Binding a name leaves containers alone. -/
@[simp] theorem contents_define (h : Heap) (frame : Nat) (name : String) (o : Operand) :
    (h.define frame name o).contents = h.contents := rfl

/-- A new frame leaves containers alone. -/
@[simp] theorem contents_addFrame (h : Heap) (f : Frame) :
    (h.addFrame f).2.contents = h.contents := rfl

/-- A new function leaves containers alone. -/
@[simp] theorem contents_addClosure (h : Heap) (c : Closure) :
    (h.addClosure c).2.contents = h.contents := rfl

/-- Marking an accessor leaves containers alone. -/
@[simp] theorem contents_markAccessor (h : Heap) (id : Nat) (a : Accessor) :
    (h.markAccessor id a).contents = h.contents := rfl

/-- Writes to several values leave frames and functions alone. -/
theorem frames_foldl_setKeyOf (h : Heap) (k : Key) (r : Reference) (vs : List Value) :
    (vs.foldl (fun h v => h.setKeyOf k r v) h).frames = h.frames ∧
      (vs.foldl (fun h v => h.setKeyOf k r v) h).closures = h.closures := by
  induction vs generalizing h with
  | nil => exact ⟨rfl, rfl⟩
  | cons v vs ih =>
    rw [List.foldl_cons]
    obtain ⟨hf, hc⟩ := ih (h.setKeyOf k r v)
    rw [hf, hc]
    cases v <;> exact ⟨rfl, rfl⟩

/-- Writes to containers leave frames and functions alone. -/
theorem frames_setKeys (h : Heap) (r : Reference) (k : Key) (values : List Reference) :
    (h.setKeys r k values).frames = h.frames ∧
      (h.setKeys r k values).closures = h.closures := by
  induction values generalizing h with
  | nil => exact ⟨rfl, rfl⟩
  | cons v values ih =>
    obtain ⟨hf, hc⟩ := ih (h.setKey r k v)
    obtain ⟨hf', hc'⟩ := frames_foldl_setKeyOf h k v r.values
    exact ⟨hf.trans hf', hc.trans hc'⟩

/-- A binding changes its frame and no other one. -/
theorem frame_define (h : Heap) (frame : Nat) (name : String) (o : Operand) (other : Nat) :
    (h.define frame name o).frame other =
      if other = frame ∧ frame < h.frames.size then (h.frame frame).define name o
      else h.frame other := by
  by_cases hf : other = frame
  · subst hf
    by_cases hlt : other < h.frames.size
    · simp [Heap.define, Heap.frame, Array.getElem_modify, hlt]
    · simp [Heap.define, Heap.frame, hlt]
  · simp [Heap.define, Heap.frame, Array.getElem?_modify, hf, Ne.symm hf]

/-- A new frame is found under its number. -/
theorem frame_addFrame (h : Heap) (f : Frame) (id : Nat) :
    (h.addFrame f).2.frame id = if id = h.frames.size then f else h.frame id := by
  by_cases hid : id = h.frames.size
  · simp [Heap.addFrame, Heap.frame, hid]
  · simp [Heap.addFrame, Heap.frame, Array.getElem?_push, hid]

end Heap

end FrozenGlobals
