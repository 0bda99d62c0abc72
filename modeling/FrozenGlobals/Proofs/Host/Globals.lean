import FrozenGlobals.Proofs.Frames
import FrozenGlobals.Proofs.Host.Unfolding

/-!
# The globals of a root

The frame of the globals binds one name for each entry of the root. `Exposure` lists the occurrences
that its conversion makes. From it follows how the finished heap looks from the frame: what was met
can be reached and is found under its path (`Exposure.mem_follow_and_reachable`), and a container
that can be reached was met (`Exposure.mem_entries_of_reachable`).
-/

namespace FrozenGlobals

/-! ## Reading along paths -/

namespace Heap

/-- A value that can be reached from the names of a frame. -/
inductive Reachable (h : Heap) (frame : Nat) : Value → Prop
  | bound {name r v} : (h.frame frame).find? name = some (.known r) → v ∈ r →
      Reachable h frame v
  | held {v c w} : Reachable h frame v → h.contents v = some c → c.Holds w → Reachable h frame w

/-- What is found by looking up the first segment of a path in a frame and reading the others as
keys. -/
def follow (h : Heap) (frame : Nat) : Path → Reference
  | .key name :: rest =>
      match (h.frame frame).find? name with
      | some (.known r) => rest.foldl (fun r s => h.getKey r s.toKey) r
      | _ => .empty
  | _ => .empty

/-- Reading one segment further. -/
theorem follow_child {h : Heap} {frame : Nat} {p : Path} (hp : p ≠ []) (s : Segment) :
    h.follow frame (p.child s) = h.getKey (h.follow frame p) s.toKey := by
  have hempty : h.getKey .empty s.toKey = .empty := rfl
  cases p with
  | nil => exact absurd rfl hp
  | cons first rest =>
      cases first with
      | any => exact hempty.symm
      | key name =>
          simp only [Path.child, List.cons_append, follow]
          split
          · rw [List.foldl_append]
            rfl
          · exact hempty.symm

end Heap

namespace ObjectCell

/-- What is written under a key is read there. -/
theorem mem_get_set {o : ObjectCell} {k : Key} {r : Reference} {v : Value} (hv : v ∈ r) :
    v ∈ (o.set k r).get k := by
  cases k with
  | any => exact mem_get_any.2 (holds_set.2 (.inr hv))
  | name name =>
      refine mem_get_name.2 (.inl ⟨((o.slot? name).getD .empty).union r, ?_, ?_⟩)
      · rw [slot?_set_name, if_pos rfl]
      · exact Reference.mem_union.2 (.inr hv)

/-- A write leaves what is read at other keys. -/
theorem mem_get_set_of_mem_get {o : ObjectCell} {k k' : Key} {r : Reference} {v : Value}
    (hv : v ∈ o.get k) : v ∈ (o.set k' r).get k := by
  cases k with
  | any => exact mem_get_any.2 (holds_set.2 (.inl (mem_get_any.1 hv)))
  | name name =>
      rcases mem_get_name.1 hv with ⟨s, hs, hv⟩ | ⟨s, hs, hv⟩
      · refine mem_get_name.2 (.inl ?_)
        cases k' with
        | any => exact ⟨s, hs, hv⟩
        | name name' =>
            rw [slot?_set_name]
            split
            · next heq => exact ⟨_, rfl, Reference.mem_union.2 (.inl (by rw [← heq, hs]; exact hv))⟩
            · exact ⟨s, hs, hv⟩
      · refine mem_get_name.2 (.inr ?_)
        cases k' with
        | any => exact ⟨_, rfl, Reference.mem_union.2 (.inl (by rw [hs]; exact hv))⟩
        | name name' => exact ⟨s, hs, hv⟩

end ObjectCell

namespace Contents

/-- An object holds what was filled in. -/
theorem holds_fill_object {o : ObjectCell} {steps : List (Segment × Value)} {w : Value} :
    ((Contents.object o).fill steps).Holds w ↔ o.Holds w ∨ ∃ e ∈ steps, e.2 = w := by
  induction steps generalizing o with
  | nil => simp [Holds]
  | cons e steps ih =>
      rw [fill_cons]
      refine ih.trans ?_
      rw [ObjectCell.holds_set, Reference.mem_single]
      simp [or_assoc, eq_comm]

/-- An array filled at any position holds what was filled in. -/
theorem fill_array {a : ArrayCell} {values : List Value} :
    (Contents.array a).fill (values.map fun w => (.any, w)) =
      .array ⟨values.foldl (fun r w => r.union (.single w)) a.elements, a.named⟩ := by
  induction values generalizing a with
  | nil => rfl
  | cons w values ih =>
      rw [List.map_cons, fill_cons]
      refine ih.trans ?_
      simp [ArrayCell.set, Segment.toKey, Key.isIndex]

/-- A union of single values holds these values. -/
theorem mem_foldl_union_single {v : Value} (values : List Value) (r : Reference) :
    v ∈ values.foldl (fun r w => r.union (.single w)) r ↔ v ∈ r ∨ v ∈ values := by
  induction values generalizing r with
  | nil => simp
  | cons w values ih => simp [ih, or_assoc]

/-- What was read before something is filled in is read afterwards. -/
theorem mem_get_fill_of_mem_get {o : ObjectCell} {steps : List (Segment × Value)} {k : Key}
    {w : Value} (hw : w ∈ o.get k) : w ∈ ((Contents.object o).fill steps).get k := by
  induction steps generalizing o with
  | nil => exact hw
  | cons e steps ih =>
      rw [fill_cons]
      exact ih (ObjectCell.mem_get_set_of_mem_get hw)

/-- What was filled in is read at its step. -/
theorem mem_get_fill_object {o : ObjectCell} {steps : List (Segment × Value)}
    {e : Segment × Value} (he : e ∈ steps) :
    e.2 ∈ ((Contents.object o).fill steps).get e.1.toKey := by
  induction steps generalizing o with
  | nil => cases he
  | cons e' steps ih =>
      rw [fill_cons]
      rcases List.mem_cons.1 he with rfl | he
      · exact mem_get_fill_of_mem_get (ObjectCell.mem_get_set (by simp))
      · exact ih he

end Contents

namespace Host

/-! ## Cells of occurrences -/

namespace Occurrence

/-- The steps to the parts of an array are all the same. -/
theorem steps_array {o : Occurrence} {items : List Datum} {shared : Bool}
    (hk : o.container = .array items shared) (hlen : o.parts.length = items.length) :
    o.steps = o.parts.map fun w => (.any, w) := by
  have hsegs : o.container.parts.map (·.1) = List.replicate o.parts.length Segment.any := by
    simp [hk, Container.parts, hlen, Function.comp_def]
  rw [steps, hsegs]
  induction o.parts with
  | nil => rfl
  | cons w parts ih => simpa [List.replicate_succ] using ih

/-- The steps of an occurrence lead to its parts, in order. -/
theorem map_snd_steps {o : Occurrence} (hlen : o.parts.length = o.container.parts.length) :
    o.steps.map (·.2) = o.parts := by
  rw [steps, ← List.unzip_snd, List.unzip_zip]
  simp [hlen]

/-- The cell of an occurrence holds the values of the parts and nothing else. -/
theorem holds_contents {o : Occurrence} (hv : o.container.isVisible)
    (hlen : o.parts.length = o.container.parts.length) {w : Value} :
    o.contents.Holds w ↔ w ∈ o.parts := by
  cases hk : o.container with
  | object entries absent =>
      have hb : o.container.blank = .object .empty := by rw [hk]; rfl
      rw [contents, hb, Contents.holds_fill_object]
      have hempty : ¬ ObjectCell.empty.Holds w := by
        rintro (⟨e, he, _⟩ | ⟨r, hr, _⟩)
        · cases he
        · cases hr
      rw [← map_snd_steps hlen, List.mem_map]
      exact ⟨fun h => h.resolve_left hempty, .inr⟩
  | array items shared =>
      have hb : o.container.blank = .array ⟨.empty, false⟩ := by rw [hk]; rfl
      rw [contents, hb, steps_array hk (by simpa [hk, Container.parts] using hlen),
        Contents.fill_array]
      show w ∈ List.foldl _ _ _ ↔ _
      rw [Contents.mem_foldl_union_single]
      simp
  | keyedBy kind => rw [hk] at hv; cases hv

/-- A part is read at its step. -/
theorem mem_get_contents {o : Occurrence} (hv : o.container.isVisible)
    (hlen : o.parts.length = o.container.parts.length) {e : Segment × Value} (he : e ∈ o.steps) :
    e.2 ∈ o.contents.get e.1.toKey := by
  cases hk : o.container with
  | object entries absent =>
      have hb : o.container.blank = .object .empty := by rw [hk]; rfl
      rw [contents, hb]
      exact Contents.mem_get_fill_object he
  | array items shared =>
      have hsteps := steps_array hk (by simpa [hk, Container.parts] using hlen)
      have hany : e.1 = .any := by
        rw [hsteps] at he
        obtain ⟨w, _, rfl⟩ := List.mem_map.1 he
        rfl
      rw [hany]
      show _ ∈ o.contents.get .any
      rw [Contents.mem_get_any, holds_contents hv hlen, ← map_snd_steps hlen]
      exact List.mem_map_of_mem he
  | keyedBy kind => rw [hk] at hv; cases hv

/-- An occurrence that is complete has as many parts as its container. -/
theorem Complete.length_parts {g : Graph} {c : Conversion} {made : List Occurrence}
    {o : Occurrence} (h : o.Complete g c made) : o.parts.length = o.container.parts.length := by
  simpa using h.images.length_eq.symm

end Occurrence

/-! ## The frame -/

/-- The frame that binds names to single values. -/
def frameOf (bindings : List (String × Value)) : Frame :=
  ⟨bindings.map fun b => (b.1, .known (.single b.2))⟩

/-- Binding a new name adds it at the end of the frame. -/
theorem frameOf_define {bindings : List (String × Value)} {name : String} {v : Value}
    (h : name ∉ bindings.map (·.1)) :
    (frameOf bindings).define name (.known (.single v)) = frameOf (bindings ++ [(name, v)]) := by
  rw [Frame.define, Frame.setBinding_of_not_mem (by simpa [frameOf, Function.comp_def] using h)]
  simp [frameOf]

/-- A name bound once is found. -/
theorem find?_frameOf {bindings : List (String × Value)} (hn : (bindings.map (·.1)).Nodup)
    {name : String} {v : Value} (h : (name, v) ∈ bindings) :
    (frameOf bindings).find? name = some (.known (.single v)) := by
  induction bindings with
  | nil => cases h
  | cons b bindings ih =>
      obtain ⟨n, w⟩ := b
      rw [List.map_cons, List.nodup_cons] at hn
      rcases List.mem_cons.1 h with heq | h
      · cases heq
        simp [frameOf, Frame.find?]
      · have hne : (n == name) = false :=
          beq_eq_false_iff_ne.2 fun heq => hn.1 (List.mem_map.2 ⟨_, h, heq.symm⟩)
        have := ih hn.2 h
        simpa [frameOf, Frame.find?, hne] using this

/-- Only bound names are found. -/
theorem mem_of_find?_frameOf {bindings : List (String × Value)} {name : String} {r : Reference}
    (h : (frameOf bindings).find? name = some (.known r)) :
    ∃ v, (name, v) ∈ bindings ∧ r = .single v := by
  obtain ⟨e, he, heq⟩ := Option.map_eq_some_iff.1 h
  have hname := List.find?_some he
  rw [beq_iff_eq] at hname
  obtain ⟨b, hb, rfl⟩ := List.mem_map.1 (List.mem_of_find?_eq_some he)
  cases heq
  exact ⟨b.2, hname ▸ hb, rfl⟩

namespace Graph

/-- Of the entries with one name the latest is kept. -/
theorem nodup_latest (entries done : List (String × Datum)) (h : (done.map (·.1)).Nodup) :
    ((entries.foldl (fun done (e : String × Datum) =>
      if done.any (·.1 == e.1) then done else e :: done) done).map (·.1)).Nodup := by
  induction entries generalizing done with
  | nil => exact h
  | cons e entries ih =>
      rw [List.foldl_cons]
      split
      · exact ih done h
      · next hnone =>
          refine ih _ (List.nodup_cons.2 ⟨fun hmem => hnone ?_, h⟩)
          obtain ⟨e', he', heq⟩ := List.mem_map.1 hmem
          exact List.any_eq_true.2 ⟨e', he', by simp [heq]⟩

/-- The entries of an object have one name each. -/
theorem nodup_sortedEntries (entries : List (String × Datum)) :
    ((sortedEntries entries).map (·.1)).Nodup := by
  rw [sortedEntries, ((List.mergeSort_perm _ _).map _).nodup_iff]
  exact nodup_latest entries.reverse [] .nil

/-- The names of the globals differ. -/
theorem nodup_globals {g : Graph} {root : Datum} {entries : List (String × Datum)}
    (h : g.globals root = .ok entries) : (entries.map (·.1)).Nodup := by
  unfold globals at h
  split at h
  · cases h
  · split at h <;> cases h
    exact nodup_sortedEntries _
  · cases h

end Graph

/-- Entries are converted one after another, each by a conversion that ends by itself. -/
inductive ConvertsAll (g : Graph) : Conversion → List (String × Datum) → List Value →
    Conversion → Prop
  | nil {c} : ConvertsAll g c [] [] c
  | cons {c name d v c₁ entries values c₂} : Conversion.Converts g c (.datum [.key name] d) v c₁ →
      ConvertsAll g c₁ entries values c₂ → ConvertsAll g c ((name, d) :: entries) (v :: values) c₂

/-- What converting the entries of a root makes: the occurrences, the values of the entries, where
the occurrences stand and in which order they are visited. -/
structure Exposure (g : Graph) (entries : List (String × Datum)) (c c' : Conversion)
    (made : List Occurrence) (values : List Value) : Prop where
  converts : ConvertsAll g c entries values c'
  unfolds : Conversion.Unfolds g none c c' made
  images : List.Forall₂ (Image g c'.known made) (entries.map (·.2)) values
  placed : Conversion.Placed made ((entries.map fun e => [Segment.key e.1]).zip values)
  visits : ∀ rest out, Traversal g (c'.known.map (·.1)) rest out →
    Traversal g (c.known.map (·.1)) ((entries.map fun e => ([Segment.key e.1], e.2)) ++ rest)
      (made.map (fun o => (o.id, o.path)) ++ out)

namespace Exposure

/-- Without entries nothing is converted. -/
theorem nil (g : Graph) (c : Conversion) : Exposure g [] c c [] [] :=
  ⟨.nil, .refl g none c, .nil, fun _ h => (List.not_mem_nil h).elim, fun _ _ h => h⟩

/-- One more entry in front. -/
theorem cons {g : Graph} {c c₁ c₂ : Conversion} {name : String} {d : Datum} {v : Value}
    {entries : List (String × Datum)} {made₁ made₂ : List Occurrence} {values₁ values : List Value}
    (hc : Conversion.Converts g c (.datum [.key name] d) v c₁)
    (h₁ : Conversion.Done g (.datum [.key name] d) v c c₁ made₁ values₁)
    (h₂ : Exposure g entries c₁ c₂ made₂ values) :
    Exposure g ((name, d) :: entries) c c₂ (made₁ ++ made₂) (v :: values) := by
  have hv : values₁ = [v] := h₁.yields
  subst hv
  have hhead : Image g c₁.known made₁ d v := by
    have := h₁.images
    cases this with
    | cons hi _ => exact hi
  refine ⟨.cons hc h₂.converts, h₁.unfolds.trans h₂.unfolds nofun, .cons ?_ ?_, ?_, ?_⟩
  · exact hhead.mono (fun i x hi => h₂.unfolds.keeps i x hi) (List.subset_append_left _ _)
  · exact h₂.images.imp fun _ _ hi => hi.mono (fun _ _ h => h) (List.subset_append_right _ _)
  · exact h₁.placed.append h₂.placed
  · intro rest out hr
    have := h₁.visits _ _ (h₂.visits rest out hr)
    simpa [Conversion.Task.pending] using this

/-- Every entry has a value. -/
theorem length_values {g : Graph} {entries : List (String × Datum)} {c c' : Conversion}
    {made : List Occurrence} {values : List Value} (h : Exposure g entries c c' made values) :
    (entries.map (·.1)).length = values.length := by
  simpa using h.images.length_eq

end Exposure

/-- The frame of the globals binds the names of the entries to the values they became. -/
theorem Conversion.exists_exposure {g : Graph} (hg : g.Grounded) {c : Conversion} (hc : c.Sound g)
    {entries : List (String × Datum)} (hn : (entries.map (·.1)).Nodup) :
    ∃ c' made values, Exposure g entries c c' made values ∧
      Conversion.frame g c entries =
        (c'.heap.frames.size,
          { c' with heap := (c'.heap.addFrame (frameOf ((entries.map (·.1)).zip values))).2 }) := by
  -- the loop over the entries, from any frame that binds none of their names
  have loop : ∀ (entries : List (String × Datum)) (before : List (String × Value))
      (c : Conversion), c.Sound g → ((before.map (·.1)) ++ entries.map (·.1)).Nodup →
      ∃ c' made values, Exposure g entries c c' made values ∧
        entries.foldl (fun (s : Frame × Conversion) e =>
          (s.1.define e.1 (.known (.single (convert g (depth g) s.2 [.key e.1] e.2).1)),
            (convert g (depth g) s.2 [.key e.1] e.2).2)) (frameOf before, c) =
        (frameOf (before ++ (entries.map (·.1)).zip values), c') := by
    intro entries
    induction entries with
    | nil =>
        intro before c _ _
        exact ⟨c, [], [], .nil g c, by simp⟩
    | cons e entries ih =>
        obtain ⟨name, d⟩ := e
        intro before c hc hn
        have hconv := convert_converts hg c [.key name] d
        obtain ⟨made₁, values₁, h₁⟩ := hconv.done hc nofun
        have hname : name ∉ before.map (·.1) := by
          intro hmem
          have := (List.nodup_append.1 hn).2.2 name hmem name (by simp)
          exact this rfl
        obtain ⟨c', made₂, values, h₂, heq⟩ :=
          ih (before ++ [(name, (convert g (depth g) c [.key name] d).1)])
            (convert g (depth g) c [.key name] d).2 (h₁.unfolds.sound hc) (by simpa using hn)
        refine ⟨c', made₁ ++ made₂, _ :: values, .cons hconv h₁ h₂, ?_⟩
        rw [List.foldl_cons]
        simp only [frameOf_define hname]
        rw [heq]
        simp
  obtain ⟨c', made, values, h, heq⟩ := loop entries [] c hc (by simpa using hn)
  refine ⟨c', made, values, h, ?_⟩
  have heq' : entries.foldl _ (Frame.empty, c) = _ := heq
  rw [Conversion.frame, heq']
  rfl

/-! ## The globals seen from their frame -/

namespace Exposure

section
variable {g : Graph} {entries : List (String × Datum)} {c c' : Conversion}
  {made : List Occurrence} {values : List Value} (h : Exposure g entries c c' made values)
  (hn : (entries.map (·.1)).Nodup)

/-- The heap in which the globals are bound. -/
abbrev heap (entries : List (String × Datum)) (c' : Conversion) (values : List Value) : Heap :=
  (c'.heap.addFrame (frameOf ((entries.map (·.1)).zip values))).2

/-- The frame of the globals is the last one. -/
theorem frame_heap : (heap entries c' values).frame c'.heap.frames.size =
    frameOf ((entries.map (·.1)).zip values) := by
  simp [Heap.frame, heap, Heap.addFrame]

include h

/-- A container that some data became has a path. -/
theorem mem_entries_of_image (hc : c.Sound g) {d : Datum} {v : Value}
    (hi : Image g c'.known made d v) (hv : v.isContainer) :
    v ∈ c'.provenance.entries.map (·.1) := by
  cases hi with
  | scalar _ | hidden _ => cases hv
  | shared _ hl =>
      exact ((h.unfolds.sound hc).known _ (Conversion.mem_of_lookup hl)).2
  | @copied o _ ho =>
      rw [h.unfolds.entries, List.map_append, List.mem_append]
      exact .inr (List.mem_map.2 ⟨_, List.mem_map.2 ⟨o, ho, rfl⟩, rfl⟩)

include hn

/-- Every occurrence is found under its path, and so it can be reached. -/
theorem mem_follow_and_reachable (n : Nat) : ∀ o ∈ made, o.path.length ≤ n → o.path ≠ [] ∧
    o.cell ∈ (heap entries c' values).follow c'.heap.frames.size o.path ∧
    (heap entries c' values).Reachable c'.heap.frames.size o.cell := by
  have hlen := h.length_values
  have hframe : (heap entries c' values).frame c'.heap.frames.size =
      frameOf ((entries.map (·.1)).zip values) := frame_heap
  have hkeys : (((entries.map (·.1)).zip values).map (·.1)).Nodup := by
    rw [List.map_fst_zip (Nat.le_of_eq hlen)]
    exact hn
  -- the length of the path falls from a container to the one around it
  induction n with
  | zero =>
      intro o ho hle
      have hnil : o.path = [] := List.length_eq_zero_iff.1 (Nat.le_zero.1 hle)
      rcases h.placed o ho with hp | ⟨outer, _, e, _, hpath, _⟩
      · obtain ⟨e, _, heq⟩ := List.mem_map.1 (List.of_mem_zip hp).1
        rw [hnil] at heq
        cases heq
      · rw [hnil] at hpath
        exact absurd hpath.symm (by simp [Path.child])
  | succ n ih =>
      intro o ho hle
      rcases h.placed o ho with hp | ⟨outer, hout, e, he, hpath, hcell⟩
      · have hzip : (entries.map fun e => [Segment.key e.1]).zip values =
            ((entries.map (·.1)).zip values).map fun b => ([Segment.key b.1], b.2) := by
          have : (entries.map fun e => [Segment.key e.1]) =
              (entries.map (·.1)).map fun n => [Segment.key n] := by simp
          rw [this, List.zip_map_left]
          rfl
        rw [hzip] at hp
        obtain ⟨b, hb, heq⟩ := List.mem_map.1 hp
        rw [Prod.mk.injEq] at heq
        have hfind : ((heap entries c' values).frame c'.heap.frames.size).find? b.1 =
            some (.known (.single o.cell)) := by
          rw [hframe, ← heq.2]
          exact find?_frameOf hkeys hb
        refine ⟨by rw [← heq.1]; simp, ?_, .bound hfind (by simp)⟩
        rw [← heq.1]
        simp [Heap.follow, hfind]
      · have hlen' : outer.path.length ≤ n := by
          have : o.path.length = outer.path.length + 1 := by simp [hpath, Path.child]
          omega
        obtain ⟨hne, hmem, hreach⟩ := ih outer hout hlen'
        have hcomplete := h.unfolds.complete outer hout
        have hcont : (heap entries c' values).contents outer.cell = some outer.contents :=
          hcomplete.held
        have hget := Occurrence.mem_get_contents hcomplete.visible hcomplete.length_parts he
        refine ⟨by simp [hpath, Path.child], ?_, ?_⟩
        · rw [hpath, hcell, Heap.follow_child hne, Heap.mem_getKey]
          exact ⟨outer.cell, hmem, by rw [Heap.getKeyOf_of_contents hcont]; exact hget⟩
        · refine .held hreach hcont ?_
          rw [Occurrence.holds_contents hcomplete.visible hcomplete.length_parts, hcell,
            ← Occurrence.map_snd_steps hcomplete.length_parts]
          exact List.mem_map_of_mem he

/-- Following the path of an occurrence finds its cell. -/
theorem mem_follow {o : Occurrence} (ho : o ∈ made) :
    o.cell ∈ (heap entries c' values).follow c'.heap.frames.size o.path :=
  (mem_follow_and_reachable h hn _ o ho (Nat.le_refl _)).2.1

omit hn in
/-- What can be reached from the frame of the first globals was made by their conversion. -/
theorem mem_entries_of_reachable (hc : c = .empty) {v : Value}
    (hr : (heap entries c' values).Reachable c'.heap.frames.size v) (hv : v.isContainer) :
    v ∈ c'.provenance.entries.map (·.1) := by
  have hsound : c.Sound g := hc ▸ .empty g
  induction hr with
  | @bound name r v hfind hmem =>
      rw [frame_heap] at hfind
      obtain ⟨w, hw, rfl⟩ := mem_of_find?_frameOf hfind
      rw [Reference.mem_single] at hmem
      subst hmem
      obtain ⟨i, hi, heq⟩ := List.getElem_of_mem (List.of_mem_zip hw).2
      obtain ⟨d, _, himg⟩ : ∃ d ∈ entries.map (·.2), Image g c'.known made d v := by
        have hlen := h.images.length_eq
        exact ⟨_, List.getElem_mem (hlen ▸ hi), heq ▸ (List.forall₂_iff_get.1 h.images).2 i
          (hlen ▸ hi) hi⟩
      exact mem_entries_of_image h hsound himg hv
  | @held u k w hu hk hw ih =>
      have hmem := ih (Heap.isContainer_of_contents hk)
      rw [h.unfolds.entries, hc] at hmem
      obtain ⟨e, he, rfl⟩ := List.mem_map.1 hmem
      obtain ⟨o, ho, rfl⟩ := List.mem_map.1 (by simpa [Conversion.empty, Provenance.empty] using he)
      have hcomplete := h.unfolds.complete o ho
      have hk' : c'.heap.contents o.cell = some k := hk
      rw [hcomplete.held] at hk'
      cases hk'
      rw [Occurrence.holds_contents hcomplete.visible hcomplete.length_parts] at hw
      obtain ⟨i, hi, rfl⟩ := List.getElem_of_mem hw
      have hlen := hcomplete.images.length_eq
      exact mem_entries_of_image h hsound
        ((List.forall₂_iff_get.1 hcomplete.images).2 i (hlen ▸ hi) hi) hv

end

end Exposure

end Host

end FrozenGlobals
