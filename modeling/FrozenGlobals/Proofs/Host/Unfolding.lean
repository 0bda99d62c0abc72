import FrozenGlobals.Proofs.Host.Traversal

/-!
# What a conversion makes

A conversion unfolds host data into cells. Each container met is an `Occurrence`: where it was met,
the cell it became and what its parts became. `Converts.done` lists the occurrences of a conversion
in the order in which they were met and says all there is to know about them: their cells are new
and distinct, hold exactly the values of the parts, are recorded under the path of the occurrence,
and are visited in the order of the depth-first traversal. Cells that were there before are left
alone.
-/

namespace FrozenGlobals

namespace Contents

/-- Writes single values one after another. -/
def fill (c : Contents) (steps : List (Segment × Value)) : Contents :=
  steps.foldl (fun c e => c.set e.1.toKey (.single e.2)) c

/-- Without steps nothing is written. -/
@[simp] theorem fill_nil (c : Contents) : c.fill [] = c := rfl

/-- The steps are written from the first one on. -/
@[simp] theorem fill_cons (c : Contents) (e : Segment × Value) (steps : List (Segment × Value)) :
    c.fill (e :: steps) = (c.set e.1.toKey (.single e.2)).fill steps := rfl

end Contents

namespace Host

/-- The empty cell of a container. -/
def Container.blank : Container → Contents
  | .array _ _ => .array ⟨.empty, false⟩
  | _ => .object .empty

/-- A container met by a conversion: where it was met, its cell, and what its parts became. -/
structure Occurrence where
  id : Nat
  container : Container
  path : Path
  cell : Value
  parts : List Value

namespace Occurrence

/-- The steps from the container to its parts. -/
def steps (o : Occurrence) : List (Segment × Value) :=
  (o.container.parts.map (·.1)).zip o.parts

/-- What the cell holds once all parts are written. -/
def contents (o : Occurrence) : Contents := o.container.blank.fill o.steps

end Occurrence

/-- What data becomes: a scalar a primitive, a shared container its one cell, a copied container the
cell of one of its occurrences. -/
inductive Image (g : Graph) (known : List (Nat × Value)) (made : List Occurrence) :
    Datum → Value → Prop
  | scalar {d} : (∀ id, d ≠ .container id) →
      Image g known made d (.primitive (Conversion.scalar d))
  | hidden {id} : (∀ k, g.find? id = some k → k.isVisible = false) →
      Image g known made (.container id) (.primitive .any)
  | shared {id v} : g.Shares id → known.lookup id = some v → Image g known made (.container id) v
  | copied {o} : g.Shares o.id = false → o ∈ made → Image g known made (.container o.id) o.cell

/-- What data became stays its image while the conversion goes on. -/
theorem Image.mono {g : Graph} {known known' : List (Nat × Value)} {made made' : List Occurrence}
    (hk : ∀ id v, known.lookup id = some v → known'.lookup id = some v) (hm : made ⊆ made')
    {d : Datum} {v : Value} (h : Image g known made d v) : Image g known' made' d v := by
  cases h with
  | scalar hd => exact .scalar hd
  | hidden hid => exact .hidden hid
  | shared hs hl => exact .shared hs (hk _ _ hl)
  | copied hs ho => exact .copied hs (hm ho)

/-- The cell of an occurrence holds the values of all its parts. -/
structure Occurrence.Complete (g : Graph) (c : Conversion) (made : List Occurrence)
    (o : Occurrence) : Prop where
  found : g.find? o.id = some o.container
  visible : o.container.isVisible
  held : c.heap.contents o.cell = some o.contents
  images : List.Forall₂ (Image g c.known made) (o.container.parts.map (·.2)) o.parts

namespace Conversion

/-- Recorded containers exist, and the cells of shared containers are recorded. -/
structure Sound (g : Graph) (c : Conversion) : Prop where
  entries : ∀ e ∈ c.provenance.entries, (c.heap.contents e.1).isSome
  known : ∀ e ∈ c.known, g.Shares e.1 ∧ e.2 ∈ c.provenance.entries.map (·.1)

/-- An empty conversion has recorded nothing. -/
theorem Sound.empty (g : Graph) : Sound g .empty :=
  ⟨fun _ h => (List.not_mem_nil h).elim, fun _ h => (List.not_mem_nil h).elim⟩

/-- A part of a conversion adds the occurrences `made`. Only the cell it is `filling` changes. -/
structure Unfolds (g : Graph) (filling : Option Value) (c c' : Conversion)
    (made : List Occurrence) : Prop where
  entries : c'.provenance.entries = c.provenance.entries ++ made.map fun o => (o.cell, o.path)
  known : c'.known =
    ((made.filter fun o => g.Shares o.id).map fun o => (o.id, o.cell)).reverse ++ c.known
  keeps : ∀ id v, c.known.lookup id = some v → c'.known.lookup id = some v
  fresh : ∀ o ∈ made, c.heap.contents o.cell = none
  distinct : (made.map (·.cell)).Nodup
  kept : ∀ v k, some v ≠ filling → c.heap.contents v = some k → c'.heap.contents v = some k
  allocated : ∀ v, (c'.heap.contents v).isSome ↔
    (c.heap.contents v).isSome ∨ v ∈ made.map (·.cell)
  complete : ∀ o ∈ made, o.Complete g c' made
  closures : c'.heap.closures = c.heap.closures
  frames : c'.heap.frames = c.heap.frames

/-- Doing nothing adds no occurrences. -/
theorem Unfolds.refl (g : Graph) (filling : Option Value) (c : Conversion) :
    Unfolds g filling c c [] :=
  { entries := by simp
    known := by simp
    keeps := fun _ _ h => h
    fresh := fun _ h => by cases h
    distinct := .nil
    kept := fun _ _ _ h => h
    allocated := fun _ => by simp
    complete := fun _ h => by cases h
    closures := rfl
    frames := rfl }

/-- A step that fills no cell leaves the cell filled by another alone too. -/
theorem Unfolds.weaken {g : Graph} {c c' : Conversion} {made : List Occurrence}
    (h : Unfolds g none c c' made) (filling : Option Value) : Unfolds g filling c c' made :=
  { h with kept := fun v k _ hv => h.kept v k (by simp) hv }

/-- An occurrence that is complete stays so unless its cell is being filled. -/
theorem Occurrence.Complete.later {g : Graph} {filling : Option Value} {c c' : Conversion}
    {made made' : List Occurrence} {o : Occurrence} (h : o.Complete g c made)
    (hu : Unfolds g filling c c' made') (hne : some o.cell ≠ filling) {all : List Occurrence}
    (hsub : made ⊆ all) : o.Complete g c' all :=
  { found := h.found
    visible := h.visible
    held := hu.kept _ _ hne h.held
    images := h.images.imp fun _ _ hi => hi.mono hu.keeps hsub }

/-- Parts of a conversion that follow each other add their occurrences in order. The cell being
filled existed before the first. -/
theorem Unfolds.trans {g : Graph} {filling : Option Value} {c c₁ c₂ : Conversion}
    {made₁ made₂ : List Occurrence} (h₁ : Unfolds g filling c c₁ made₁)
    (h₂ : Unfolds g filling c₁ c₂ made₂)
    (hf : ∀ v, filling = some v → (c.heap.contents v).isSome) :
    Unfolds g filling c c₂ (made₁ ++ made₂) := by
  have hne : ∀ o ∈ made₁, some o.cell ≠ filling := by
    intro o ho heq
    have := hf o.cell heq.symm
    rw [h₁.fresh o ho] at this
    cases this
  have hfresh : ∀ o ∈ made₂, c.heap.contents o.cell = none := by
    intro o ho
    by_contra hsome
    have := (h₁.allocated o.cell).2 (.inl (Option.isSome_iff_ne_none.2 hsome))
    rw [h₂.fresh o ho] at this
    cases this
  refine ⟨?_, ?_, fun id v hv => h₂.keeps _ _ (h₁.keeps _ _ hv), ?_, ?_,
    fun v k hv hk => h₂.kept _ _ hv (h₁.kept _ _ hv hk),
    fun v => by rw [h₂.allocated, h₁.allocated, List.map_append, List.mem_append, or_assoc], ?_,
    h₂.closures.trans h₁.closures, h₂.frames.trans h₁.frames⟩
  · rw [h₂.entries, h₁.entries, List.map_append, List.append_assoc]
  · rw [h₂.known, h₁.known]
    simp
  · intro o ho
    rcases List.mem_append.1 ho with ho | ho
    · exact h₁.fresh o ho
    · exact hfresh o ho
  · rw [List.map_append, List.nodup_append]
    refine ⟨h₁.distinct, h₂.distinct, ?_⟩
    rintro v hv w hw rfl
    obtain ⟨o, ho, rfl⟩ := List.mem_map.1 hv
    obtain ⟨o', ho', heq⟩ := List.mem_map.1 hw
    have := h₂.fresh o' ho'
    rw [heq, (h₁.complete o ho).held] at this
    cases this
  · intro o ho
    rcases List.mem_append.1 ho with ho | ho
    · exact Occurrence.Complete.later (h₁.complete o ho) h₂ (hne o ho) (List.subset_append_left _ _)
    · have := h₂.complete o ho
      exact ⟨this.found, this.visible, this.held,
        this.images.imp fun _ _ hi => hi.mono (fun _ _ h => h) (List.subset_append_right _ _)⟩

/-- What is recorded stays recorded and exists. -/
theorem Unfolds.sound {g : Graph} {filling : Option Value} {c c' : Conversion}
    {made : List Occurrence} (h : Unfolds g filling c c' made) (hc : c.Sound g) : c'.Sound g := by
  constructor
  · intro e he
    rw [h.entries, List.mem_append] at he
    rcases he with he | he
    · exact (h.allocated _).2 (.inl (hc.entries e he))
    · obtain ⟨o, ho, rfl⟩ := List.mem_map.1 he
      rw [(h.complete o ho).held]
      rfl
  · intro e he
    rw [h.known, List.mem_append, List.mem_reverse] at he
    rw [h.entries, List.map_append, List.mem_append]
    rcases he with he | he
    · obtain ⟨o, ho, rfl⟩ := List.mem_map.1 he
      obtain ⟨ho, hs⟩ := List.mem_filter.1 ho
      exact ⟨hs, .inr (List.mem_map.2 ⟨_, List.mem_map.2 ⟨o, ho, rfl⟩, rfl⟩)⟩
    · exact ⟨(hc.known e he).1, .inl (hc.known e he).2⟩

/-- What is found under a key is in the list. -/
theorem mem_of_lookup {known : List (Nat × Value)} {id : Nat} {v : Value}
    (h : known.lookup id = some v) : (id, v) ∈ known := by
  rw [List.lookup_eq_some_iff] at h
  obtain ⟨l₁, l₂, rfl, _⟩ := h
  simp

/-- Shared containers that have a cell are not met again. -/
theorem Unfolds.unseen {g : Graph} {filling : Option Value} {c c' : Conversion}
    {made : List Occurrence} (h : Unfolds g filling c c' made) (hc : c.Sound g) {o : Occurrence}
    (ho : o ∈ made) (hs : g.Shares o.id) : c.known.lookup o.id = none := by
  by_contra hne
  obtain ⟨v, hv⟩ := Option.ne_none_iff_exists'.1 hne
  -- the cell found afterwards would be both old and new
  have hmem : (o.id, o.cell) ∈ (made.filter fun o => g.Shares o.id).map fun o => (o.id, o.cell) :=
    List.mem_map.2 ⟨o, List.mem_filter.2 ⟨ho, hs⟩, rfl⟩
  have hnew : ∃ o' ∈ made, c'.known.lookup o.id = some o'.cell := by
    rw [h.known, List.lookup_append]
    cases hl : List.lookup o.id
        ((made.filter fun o => g.Shares o.id).map fun o => (o.id, o.cell)).reverse with
    | none =>
      have := List.lookup_eq_none_iff.1 hl _ (List.mem_reverse.2 hmem)
      simp at this
    | some u =>
      obtain ⟨o', ho', hpair⟩ := List.mem_map.1 (List.mem_reverse.1 (mem_of_lookup hl))
      rw [Prod.mk.injEq] at hpair
      exact ⟨o', (List.mem_filter.1 ho').1, by rw [hpair.2]; rfl⟩
  obtain ⟨o', ho', hl⟩ := hnew
  rw [h.keeps _ _ hv] at hl
  cases hl
  obtain ⟨_, hin⟩ := hc.known _ (mem_of_lookup hv)
  obtain ⟨e, he, heq⟩ := List.mem_map.1 hin
  have := hc.entries e he
  rw [heq, h.fresh o' ho'] at this
  cases this

/-! ## The occurrences of a conversion -/

namespace Task

/-- The data of a task with the paths at which it stands. -/
def pending : Task → List (Path × Datum)
  | .datum p d => [(p, d)]
  | .parts _ p todo => todo.map fun e => (p.child e.1, e.2)

/-- The cell a task writes to. -/
def filling : Task → Option Value
  | .datum _ _ => none
  | .parts v _ _ => some v

/-- What a task yields: the value of its data, or a cell with the values of the parts written. -/
def Yields (v : Value) (c c' : Conversion) (values : List Value) : Task → Prop
  | .datum _ _ => values = [v]
  | .parts w _ todo =>
      c'.heap.contents w = (c.heap.contents w).map (·.fill ((todo.map (·.1)).zip values))

/-- The parts of a container stand at the paths of the container and their segments. -/
theorem places_parts (v : Value) (p : Path) (todo : List (Segment × Datum))
    (values : List Value) :
    ((Task.parts v p todo).pending.map (·.1)).zip values =
      ((todo.map (·.1)).zip values).map fun e => (p.child e.1, e.2) := by
  have h : (Task.parts v p todo).pending.map (·.1) = (todo.map (·.1)).map p.child := by
    simp [pending]
  rw [h, List.zip_map_left]
  rfl

end Task

/-- Every occurrence stands at one of the given places or is a part of another occurrence. -/
def Placed (made : List Occurrence) (places : List (Path × Value)) : Prop :=
  ∀ o ∈ made, (o.path, o.cell) ∈ places ∨
    ∃ outer ∈ made, ∃ e ∈ outer.steps, o.path = outer.path.child e.1 ∧ o.cell = e.2

/-- Occurrences of several tasks stand at the places of these tasks. -/
theorem Placed.append {made₁ made₂ : List Occurrence} {places₁ places₂ : List (Path × Value)}
    (h₁ : Placed made₁ places₁) (h₂ : Placed made₂ places₂) :
    Placed (made₁ ++ made₂) (places₁ ++ places₂) := by
  intro o ho
  rcases List.mem_append.1 ho with ho | ho
  · rcases h₁ o ho with h | ⟨outer, hout, h⟩
    · exact .inl (List.mem_append_left _ h)
    · exact .inr ⟨outer, List.mem_append_left _ hout, h⟩
  · rcases h₂ o ho with h | ⟨outer, hout, h⟩
    · exact .inl (List.mem_append_right _ h)
    · exact .inr ⟨outer, List.mem_append_right _ hout, h⟩

/-- All there is to know about a task that was done: the occurrences it made, the values its data
became, where the occurrences stand, and in which order they were visited. -/
structure Done (g : Graph) (t : Task) (v : Value) (c c' : Conversion) (made : List Occurrence)
    (values : List Value) : Prop where
  unfolds : Unfolds g t.filling c c' made
  images : List.Forall₂ (Image g c'.known made) (t.pending.map (·.2)) values
  placed : Placed made ((t.pending.map (·.1)).zip values)
  visits : ∀ rest out, Traversal g (c'.known.map (·.1)) rest out →
    Traversal g (c.known.map (·.1)) (t.pending ++ rest) (made.map (fun o => (o.id, o.path)) ++ out)
  yields : t.Yields v c c' values

/-- A single datum that makes no occurrence. -/
theorem Done.leaf {g : Graph} {c : Conversion} {p : Path} {d : Datum} {v : Value}
    (hi : Image g c.known [] d v)
    (ht : ∀ rest out, Traversal g (c.known.map (·.1)) rest out →
      Traversal g (c.known.map (·.1)) ((p, d) :: rest) out) :
    Done g (.datum p d) v c c [] [v] :=
  { unfolds := .refl g _ c
    images := .cons hi .nil
    placed := fun _ h => by cases h
    visits := fun rest out h => by simpa [Task.pending] using ht rest out h
    yields := rfl }

/-- What is not found under a key has no entry with that key. -/
theorem not_mem_keys_of_lookup {known : List (Nat × Value)} {id : Nat}
    (h : known.lookup id = none) : id ∉ known.map (·.1) := by
  intro hmem
  obtain ⟨e, he, rfl⟩ := List.mem_map.1 hmem
  have := List.lookup_eq_none_iff.1 h e he
  simp at this

section
variable {k : Container} (hv : k.isVisible) (c : Conversion) (id : Nat) (path : Path)
include hv

/-- Entering a container gives it an empty cell and leaves the other cells alone. -/
theorem enter_contents (w : Value) :
    (c.enter k id path).2.heap.contents w =
      if w = (c.enter k id path).1 then some k.blank else c.heap.contents w := by
  cases k with
  | object _ _ => exact Heap.contents_addObject c.heap .empty w
  | array _ _ => exact Heap.contents_addArray c.heap .empty w
  | keyedBy _ => cases hv

/-- The cell of a container that is entered is new. -/
theorem enter_fresh : c.heap.contents (c.enter k id path).1 = none := by
  cases k with
  | object _ _ => exact Heap.contents_addObject_fresh c.heap .empty
  | array _ _ => exact Heap.contents_addArray_fresh c.heap .empty
  | keyedBy _ => cases hv

/-- Entering a container records its path. -/
theorem enter_provenance :
    (c.enter k id path).2.provenance = c.provenance.record (c.enter k id path).1 path := by
  cases k with
  | object _ _ | array _ _ => rfl
  | keyedBy _ => cases hv

/-- Entering a container creates no functions. -/
theorem enter_closures : (c.enter k id path).2.heap.closures = c.heap.closures := by
  cases k with
  | object _ _ | array _ _ => rfl
  | keyedBy _ => cases hv

/-- Entering a container makes no frames. -/
theorem enter_frames : (c.enter k id path).2.heap.frames = c.heap.frames := by
  cases k with
  | object _ _ | array _ _ => rfl
  | keyedBy _ => cases hv

end

end Conversion

end Host

/-- A container without a path gets one at the end. -/
theorem Provenance.entries_record {p : Provenance} {v : Value} {path : Path}
    (h : v ∉ p.entries.map (·.1)) : (p.record v path).entries = p.entries ++ [(v, path)] := by
  have hnone : p.find? v = none := by
    rw [find?, Option.map_eq_none_iff, List.find?_eq_none]
    intro e he heq
    rw [beq_iff_eq] at heq
    exact h (heq ▸ List.mem_map_of_mem he)
  simp [record, hnone]

namespace Host.Conversion

/-- A container that exists nowhere has no path. -/
theorem Sound.not_mem_entries {g : Graph} {c : Conversion} (hc : c.Sound g) {v : Value}
    (hv : c.heap.contents v = none) : v ∉ c.provenance.entries.map (·.1) := by
  intro hmem
  obtain ⟨e, he, rfl⟩ := List.mem_map.1 hmem
  have := hc.entries e he
  rw [hv] at this
  cases this

/-- After a container was entered, what is recorded exists. -/
theorem Sound.enter {g : Graph} {c : Conversion} (hc : c.Sound g) {k : Container} {id : Nat}
    (hk : g.find? id = some k) (hv : k.isVisible) (path : Path) :
    (c.enter k id path).2.Sound g := by
  have hent : (c.enter k id path).2.provenance.entries =
      c.provenance.entries ++ [((c.enter k id path).1, path)] := by
    rw [enter_provenance hv]
    exact Provenance.entries_record (hc.not_mem_entries (enter_fresh hv c id path))
  constructor
  · intro e he
    rw [enter_contents hv]
    rw [hent, List.mem_append, List.mem_singleton] at he
    split
    · rfl
    · next hne =>
        rcases he with he | rfl
        · exact hc.entries e he
        · exact absurd rfl hne
  · intro e he
    rw [hent, List.map_append, List.mem_append]
    rw [enter_known hv] at he
    split at he
    · next hs =>
        rcases List.mem_cons.1 he with rfl | he
        · exact ⟨by simp [Graph.Shares, hk, hs], .inr (by simp)⟩
        · exact ⟨(hc.known e he).1, .inl (hc.known e he).2⟩
    · exact ⟨(hc.known e he).1, .inl (hc.known e he).2⟩

/-- Writing a part into a cell changes that cell alone. -/
theorem Unfolds.write (g : Graph) (c : Conversion) (v : Value) (k : Key) (w : Value) :
    Unfolds g (some v) c (c.write v k w) [] := by
  have hcont := Heap.contents_setKeyOf c.heap k (.single w) v
  refine { Unfolds.refl g (some v) c with
    kept := ?_, allocated := ?_, complete := fun _ h => (List.not_mem_nil h).elim,
    closures := ?_, frames := ?_ }
  · intro u k' hu hk'
    have hne : u ≠ v := fun h => hu (by rw [h])
    rw [Conversion.write, hcont u, if_neg hne]
    exact hk'
  · intro u
    rw [Conversion.write, hcont u]
    split
    · next h => simp [← h]
    · simp
  · cases v <;> rfl
  · cases v <;> rfl

/-- Cells that were known are still known once another container was entered. -/
theorem lookup_enter {c : Conversion} {p : Path} {id : Nat} {k : Container}
    (hn : c.known.lookup id = none) (hv : k.isVisible) {i : Nat} {v : Value}
    (hi : c.known.lookup i = some v) : (c.enter k id p).2.known.lookup i = some v := by
  rw [enter_known hv c id p]
  split
  · have hne : i ≠ id := fun heq => by rw [heq, hn] at hi; cases hi
    rw [List.lookup_cons, beq_eq_false_iff_ne.2 hne]
    exact hi
  · exact hi

section
variable {g : Graph} {c c' : Conversion} {p : Path} {id : Nat} {k : Container}
  {made : List Occurrence} {values : List Value} (hc : c.Sound g)
  (hn : c.known.lookup id = none) (hk : g.find? id = some k) (hv : k.isVisible)
  (h : Done g (.parts (c.enter k id p).1 p k.parts) (c.enter k id p).1 (c.enter k id p).2 c' made
    values)
include hk hv h

/-- The cell of a container is complete once its parts are done, and so are those inside. -/
theorem Done.complete_container :
    ∀ o ∈ (⟨id, k, p, (c.enter k id p).1, values⟩ :: made : List Occurrence),
      o.Complete g c' (⟨id, k, p, (c.enter k id p).1, values⟩ :: made) := by
  have hsub : made ⊆ (⟨id, k, p, (c.enter k id p).1, values⟩ :: made : List Occurrence) :=
    List.subset_cons_self _ _
  rintro o (_ | ⟨_, ho⟩)
  · refine ⟨hk, hv, ?_, ?_⟩
    · rw [h.yields, enter_contents hv c id p, if_pos rfl]
      rfl
    · have := h.images.imp fun _ _ hi => hi.mono (fun _ _ h => h) hsub
      simpa [Task.pending] using this
  · have := h.unfolds.complete o ho
    exact ⟨this.found, this.visible, this.held,
      this.images.imp fun _ _ hi => hi.mono (fun _ _ h => h) hsub⟩

include hc hn in
/-- A container unfolds into its own cell and what its parts unfold into. -/
theorem Done.unfolds_container :
    Unfolds g none c c' (⟨id, k, p, (c.enter k id p).1, values⟩ :: made) := by
  have hcont := enter_contents hv c id p
  have hfresh := enter_fresh hv c id p
  have hshare : g.Shares id = k.isShared := by simp [Graph.Shares, hk]
  -- the cell of the container is there before those of the parts are made
  have hnot : ∀ o ∈ made, o.cell ≠ (c.enter k id p).1 := by
    intro o ho heq
    have := h.unfolds.fresh o ho
    rw [heq, hcont, if_pos rfl] at this
    cases this
  refine ⟨?_, ?_, fun i v hi => h.unfolds.keeps _ _ (lookup_enter hn hv hi), ?_, ?_, ?_, ?_,
    h.complete_container hk hv, h.unfolds.closures.trans (enter_closures hv c id p),
    h.unfolds.frames.trans (enter_frames hv c id p)⟩
  · rw [h.unfolds.entries, enter_provenance hv,
      Provenance.entries_record (hc.not_mem_entries hfresh)]
    simp
  · rw [h.unfolds.known, enter_known hv c id p]
    cases hs : k.isShared <;> simp [hshare, hs]
  · rintro o (_ | ⟨_, ho⟩)
    · exact hfresh
    · have := h.unfolds.fresh o ho
      rwa [hcont, if_neg (hnot o ho)] at this
  · refine List.nodup_cons.2 ⟨fun hmem => ?_, h.unfolds.distinct⟩
    obtain ⟨o, ho, heq⟩ := List.mem_map.1 hmem
    exact hnot o ho heq
  · intro w kw _ hw
    have hne : w ≠ (c.enter k id p).1 := fun heq => by rw [heq, hfresh] at hw; cases hw
    refine h.unfolds.kept w kw (fun heq => hne (Option.some.inj heq)) ?_
    rw [hcont, if_neg hne]
    exact hw
  · intro w
    rw [h.unfolds.allocated, hcont, List.map_cons, List.mem_cons]
    by_cases hw : w = (c.enter k id p).1
    · simp [hw]
    · simp [hw]

include hc hn in
/-- The container case: the cell of the container, then the occurrences among its parts. -/
theorem Done.container :
    Done g (.datum p (.container id)) (c.enter k id p).1 c c'
      (⟨id, k, p, (c.enter k id p).1, values⟩ :: made) [(c.enter k id p).1] := by
  have hknown := enter_known hv c id p
  have hshare : g.Shares id = k.isShared := by simp [Graph.Shares, hk]
  refine ⟨h.unfolds_container hc hn hk hv, .cons ?_ .nil, ?_, fun rest out hr => ?_, rfl⟩
  · cases hs : g.Shares id with
    | true =>
        refine .shared hs (h.unfolds.keeps _ _ ?_)
        rw [hknown, ← hshare, hs, if_pos rfl, List.lookup_cons, beq_self_eq_true]
    | false => exact .copied (o := ⟨id, k, p, (c.enter k id p).1, values⟩) hs (.head _)
  · rintro o (_ | ⟨_, ho⟩)
    · exact .inl (.head _)
    · refine .inr ?_
      rcases h.placed o ho with hp | ⟨outer, hout, e, he, heq⟩
      · rw [Task.places_parts, List.mem_map] at hp
        obtain ⟨e, he, heq⟩ := hp
        rw [Prod.mk.injEq] at heq
        exact ⟨_, .head _, e, he, heq.1.symm, heq.2.symm⟩
      · exact ⟨outer, .tail _ hout, e, he, heq⟩
  · refine .enter hk hv (not_mem_keys_of_lookup hn) ?_
    have := h.visits rest out hr
    rw [hknown] at this
    cases hs : k.isShared <;> simpa [hs, Task.pending] using this

end

/-- The parts of a container: the occurrences in the first, then those in the others. -/
theorem Done.cons {g : Graph} {c c₁ c₂ : Conversion} {v w : Value} {p : Path} {s : Segment}
    {d : Datum} {rest : List (Segment × Datum)} {made₁ made₂ : List Occurrence}
    {values₁ values₂ : List Value} (ha : (c.heap.contents v).isSome)
    (h₁ : Done g (.datum (p.child s) d) w c c₁ made₁ values₁)
    (h₂ : Done g (.parts v p rest) v (c₁.write v s.toKey w) c₂ made₂ values₂) :
    Done g (.parts v p ((s, d) :: rest)) v c c₂ (made₁ ++ made₂) (w :: values₂) := by
  have hw : values₁ = [w] := h₁.yields
  subst hw
  have hu := h₁.unfolds.weaken (some v)
  have hwr : Unfolds g (some v) c (c₁.write v s.toKey w) made₁ := by
    simpa using hu.trans (.write g c₁ v s.toKey w) fun u hu => by cases hu; exact ha
  constructor
  · exact hwr.trans h₂.unfolds fun u hu => by cases hu; exact ha
  · have hhead : Image g c₁.known made₁ d w := by
      have := h₁.images
      cases this with
      | cons hi _ => exact hi
    refine .cons (hhead.mono (fun i x hi => h₂.unfolds.keeps i x hi)
      (List.subset_append_left _ _)) ?_
    exact h₂.images.imp fun _ _ hi => hi.mono (fun _ _ h => h) (List.subset_append_right _ _)
  · exact h₁.placed.append h₂.placed
  · intro rest' out hr
    have := h₁.visits _ _ (h₂.visits rest' out hr)
    simpa [Task.pending] using this
  · obtain ⟨k, hk⟩ := Option.isSome_iff_exists.1 ha
    have hk₁ : c₁.heap.contents v = some k := h₁.unfolds.kept v k (by simp [Task.filling]) hk
    show c₂.heap.contents v = _
    rw [h₂.yields, Conversion.write, Heap.contents_setKeyOf, if_pos rfl, hk₁, hk]
    rfl

/-- Every task that is done has its occurrences. The cell it writes to existed before. -/
theorem Converts.done {g : Graph} {c c' : Conversion} {t : Task} {v : Value}
    (h : Converts g c t v c') (hc : c.Sound g)
    (ha : ∀ w, t.filling = some w → (c.heap.contents w).isSome) :
    ∃ made values, Done g t v c c' made values := by
  induction h with
  | scalar hd => exact ⟨_, _, .leaf (.scalar hd) fun _ _ => .scalar hd⟩
  | @known c p id v hl =>
      have hmem := mem_of_lookup hl
      exact ⟨_, _, .leaf (.shared (hc.known _ hmem).1 hl) fun _ _ =>
        .again (List.mem_map.2 ⟨_, hmem, rfl⟩)⟩
  | hidden _ hid => exact ⟨_, _, .leaf (.hidden hid) fun _ _ => .hidden hid⟩
  | @container c p id k c' hn hk hv _ ih =>
      obtain ⟨made, values, hd⟩ := ih (hc.enter hk hv p) fun w hw => by
        cases hw
        rw [enter_contents hv, if_pos rfl]
        rfl
      exact ⟨_, _, hd.container hc hn hk hv⟩
  | @nil c v p =>
      obtain ⟨k, hk⟩ := Option.isSome_iff_exists.1 (ha v rfl)
      exact ⟨[], [], .refl g _ c, .nil, fun _ h => (List.not_mem_nil h).elim,
        fun _ _ h => h, by simp [Task.Yields, hk]⟩
  | @cons c v p s d rest w c₁ c₂ _ _ ih₁ ih₂ =>
      have hv := ha v rfl
      obtain ⟨made₁, values₁, hd₁⟩ := ih₁ hc nofun
      have hu := (hd₁.unfolds.weaken (some v)).trans (.write g c₁ v s.toKey w) fun u hu => by
        cases hu
        exact hv
      obtain ⟨made₂, values₂, hd₂⟩ := ih₂ (hu.sound hc) fun u hw => by
        cases hw
        exact (hu.allocated v).2 (.inl hv)
      exact ⟨_, _, .cons hv hd₁ hd₂⟩

end Host.Conversion

end FrozenGlobals
