import FrozenGlobals.Proofs.Host.Places

/-!
# Two sets of globals of one graph

Two sets of globals may expose the same data of a graph under the same names. `Unfolded.Paired`
follows the data of the entries they have in common, and pairs the cells it became in both. What is
paired is made from the same container (`Paired.exists_occurrences`), each cell is paired with one
other at most (`Paired.unique`), and paired cells hold alike values (`Paired.alike`).
-/

namespace FrozenGlobals

/-! ## Kinds of contents -/

namespace Contents

def kind : Contents → ValueKind
  | .object _ => .object
  | .array _ => .array

/-- Filling a cell does not change of what kind it is. -/
theorem kind_fill (c : Contents) (steps : List (Segment × Value)) :
    (c.fill steps).kind = c.kind := by
  induction steps generalizing c with
  | nil => rfl
  | cons e steps ih =>
    rw [fill_cons, ih]
    cases c <;> rfl

end Contents

/-- A value has the kind of its contents. -/
theorem Heap.kind_of_contents {h : Heap} {v : Value} {c : Contents} (hc : h.contents v = some c) :
    v.kind = c.kind := by
  cases v with
  | object id =>
    obtain ⟨o, -, rfl⟩ := Option.map_eq_some_iff.1 hc
    rfl
  | array id =>
    obtain ⟨a, -, rfl⟩ := Option.map_eq_some_iff.1 hc
    rfl
  | _ => cases hc

namespace Host

/-! ## Unfolded globals -/

/-- What converting the entries of a root makes, starting from nothing. -/
structure Unfolded (g : Graph) (entries : List (String × Datum)) where
  conversion : Conversion
  made : List Occurrence
  values : List Value
  exposure : Exposure g entries .empty conversion made values
  settled : Settled g conversion made values

namespace Unfolded

variable {g : Graph} {entries entries' : List (String × Datum)}

section
variable (X : Unfolded g entries)

/-- What a conversion has recorded exists. -/
theorem sound : X.conversion.Sound g := X.exposure.unfolds.sound (.empty g)

/-- The containers with a path are the cells of the occurrences. -/
theorem entries_provenance :
    X.conversion.provenance.entries = X.made.map fun o => (o.cell, o.path) := by
  simpa [Conversion.empty, Provenance.empty] using X.exposure.unfolds.entries

/-- The occurrences in the order of the traversal that starts from nothing. -/
theorem visits : Traversal g [] (entries.map fun e => ([.key e.1], e.2))
    (X.made.map fun o => (o.id, o.path)) := by
  have h := X.exposure.visits [] [] .done
  rw [List.append_nil, List.append_nil] at h
  exact h

/-- Cells are found under the paths of their occurrences. -/
theorem find?_cell {o : Occurrence} (ho : o ∈ X.made) :
    X.conversion.provenance.find? o.cell = some o.path := by
  unfold Provenance.find?
  rw [X.entries_provenance, List.find?_map, Option.map_map]
  cases hf : X.made.find? ((fun e : Value × Path => e.1 == o.cell) ∘ fun o => (o.cell, o.path)) with
  | none =>
    have := List.find?_eq_none.1 hf o ho
    simp at this
  | some p =>
    have hp := List.find?_some hf
    simp only [Function.comp_apply, beq_iff_eq] at hp
    obtain rfl := X.exposure.unfolds.eq_of_cell (List.mem_of_find?_eq_some hf) ho hp
    rfl

/-- Occurrences with the same cell are the same. -/
theorem eq_of_cell {o p : Occurrence} (ho : o ∈ X.made) (hp : p ∈ X.made) (h : o.cell = p.cell) :
    o = p := X.exposure.unfolds.eq_of_cell ho hp h

/-- A shared container is met once. -/
theorem eq_of_shares {o p : Occurrence} (ho : o ∈ X.made) (hp : p ∈ X.made) (h : o.id = p.id)
    (hs : g.Shares o.id) : o = p := by
  have hcell := X.settled.named o ho hs
  rw [h, X.settled.named p hp (h ▸ hs)] at hcell
  exact X.eq_of_cell ho hp (Option.some.inj hcell).symm

/-- Every occurrence is complete in the end. -/
theorem complete {o : Occurrence} (ho : o ∈ X.made) : o.Complete g X.conversion X.made :=
  X.exposure.unfolds.complete o ho

/-- The cells of occurrences are containers. -/
theorem isContainer_cell {o : Occurrence} (ho : o ∈ X.made) : o.cell.isContainer :=
  X.exposure.unfolds.isContainer_cell ho

/-- What is known are cells of shared containers. -/
theorem exists_of_known {id : Nat} {v : Value} (h : X.conversion.known.lookup id = some v) :
    ∃ o ∈ X.made, o.cell = v ∧ o.id = id := by
  have hmem := Conversion.mem_of_lookup h
  rw [X.exposure.unfolds.known, List.mem_append, List.mem_reverse, List.mem_map] at hmem
  rcases hmem with ⟨o, ho, heq⟩ | hmem
  · cases heq
    exact ⟨o, (List.mem_filter.1 ho).1, rfl, rfl⟩
  · cases hmem

/-- A value that data became is that of a scalar, or the cell of a container. -/
theorem image_cases {d : Datum} {v : Value} (h : Image g X.conversion.known X.made d v) :
    (v = .primitive (Conversion.scalar d) ∧
      ∀ id k, d = .container id → g.find? id = some k → k.isVisible = false) ∨
    ∃ o ∈ X.made, o.cell = v ∧ d = .container o.id := by
  cases h with
  | scalar hd => exact .inl ⟨rfl, fun id _ h => absurd h (hd id)⟩
  | hidden hid =>
    refine .inl ⟨rfl, fun id k h hk => hid k ?_⟩
    cases h
    exact hk
  | shared _ hl =>
    obtain ⟨o, ho, hcell, rfl⟩ := X.exists_of_known hl
    exact .inr ⟨o, ho, hcell, rfl⟩
  | @copied o _ ho => exact .inr ⟨o, ho, rfl, rfl⟩

/-- The value of an entry. -/
theorem image_entry {i : Nat} {name : String} {d : Datum} {v : Value}
    (he : entries[i]? = some (name, d)) (hv : X.values[i]? = some v) :
    Image g X.conversion.known X.made d v := by
  have hd : (entries.map (·.2))[i]? = some d := by rw [List.getElem?_map, he]; rfl
  obtain ⟨hi, rfl⟩ := List.getElem?_eq_some_iff.1 hd
  obtain ⟨hi', rfl⟩ := List.getElem?_eq_some_iff.1 hv
  exact (List.forall₂_iff_get.1 X.exposure.images).2 i hi hi'

/-- The value of a part. -/
theorem image_part {o : Occurrence} (ho : o ∈ X.made) {i : Nat} {s : Segment} {d : Datum}
    {v : Value} (hd : o.container.parts[i]? = some (s, d)) (hv : o.parts[i]? = some v) :
    Image g X.conversion.known X.made d v := by
  have hd : (o.container.parts.map (·.2))[i]? = some d := by rw [List.getElem?_map, hd]; rfl
  obtain ⟨hi, rfl⟩ := List.getElem?_eq_some_iff.1 hd
  obtain ⟨hi', rfl⟩ := List.getElem?_eq_some_iff.1 hv
  exact (List.forall₂_iff_get.1 (X.complete ho).images).2 i hi hi'

/-! ## Places of copied containers -/

section
variable {o : Occurrence} (ho : o ∈ X.made) (hs : g.Shares o.id = false)
include ho hs

/-- A copied container stands at one entry at most. -/
theorem entry_unique {i j : Nat} (hi : X.values[i]? = some o.cell)
    (hj : X.values[j]? = some o.cell) : i = j := by
  have honce := X.settled.once o ho hs
  rw [standing, List.count_append] at honce
  exact getElem?_inj_of_count (by omega) hi hj

/-- A copied container that stands at an entry is no part of another container. -/
theorem not_mem_parts_of_entry {i : Nat} (hi : X.values[i]? = some o.cell) {p : Occurrence}
    (hp : p ∈ X.made) : o.cell ∉ p.parts := by
  intro hmem
  have honce := X.settled.once o ho hs
  rw [standing, List.count_append] at honce
  have hvalues := List.one_le_count_iff.2 (List.mem_of_getElem? hi)
  have hparts := List.one_le_count_iff.2 (List.mem_flatMap.2 ⟨p, hp, hmem⟩)
  omega

/-- A copied container is one part of one container at most. -/
theorem part_unique {p q : Occurrence} (hp : p ∈ X.made) (hq : q ∈ X.made) {i j : Nat}
    (hi : p.parts[i]? = some o.cell) (hj : q.parts[j]? = some o.cell) : p = q ∧ i = j := by
  have honce := X.settled.once o ho hs
  rw [standing, List.count_append] at honce
  obtain ⟨rfl, hcount⟩ := eq_of_count_flatMap (by omega) hp (List.mem_of_getElem? hi) hq
    (List.mem_of_getElem? hj)
  exact ⟨rfl, getElem?_inj_of_count hcount hi hj⟩

/-- A copied container that stands at an entry is found under its name. -/
theorem path_of_entry {i : Nat} {name : String} {d : Datum} (he : entries[i]? = some (name, d))
    (hi : X.values[i]? = some o.cell) : o.path = [.key name] := by
  rcases X.exposure.placed o ho with hmem | ⟨p, hp, e, he', -, hcell⟩
  · obtain ⟨j, hj⟩ := List.mem_iff_getElem?.1 hmem
    rw [List.getElem?_zip_eq_some] at hj
    obtain rfl := X.entry_unique ho hs hi hj.2
    rw [List.getElem?_map, he] at hj
    exact (Option.some.inj hj.1).symm
  · refine absurd ?_ (X.not_mem_parts_of_entry ho hs hi hp)
    rw [hcell]
    exact (List.of_mem_zip he').2

/-- A copied container that is a part of another is found under its path, one step further. -/
theorem path_of_part {p : Occurrence} (hp : p ∈ X.made) {i : Nat}
    (hi : p.parts[i]? = some o.cell) :
    ∃ s d, p.container.parts[i]? = some (s, d) ∧ o.path = p.path.child s := by
  rcases X.exposure.placed o ho with hmem | ⟨q, hq, e, he, hpath, hcell⟩
  · obtain ⟨j, hj⟩ := List.mem_iff_getElem?.1 hmem
    rw [List.getElem?_zip_eq_some] at hj
    exact absurd (List.mem_of_getElem? hi) (X.not_mem_parts_of_entry ho hs hj.2 hp)
  · obtain ⟨j, hj⟩ := List.mem_iff_getElem?.1 he
    rw [Occurrence.steps, List.getElem?_zip_eq_some, ← hcell] at hj
    obtain ⟨rfl, rfl⟩ := X.part_unique ho hs hp hq hi hj.2
    rw [List.getElem?_map, Option.map_eq_some_iff] at hj
    obtain ⟨⟨s, d⟩, hd, heq⟩ := hj.1
    exact ⟨s, d, hd, by rw [hpath, ← heq]⟩

end

end

/-! ## Pairs -/

/-- The cells that common data became: what entries in common became, and what the parts of paired
containers became. -/
inductive Paired (X : Unfolded g entries) (Y : Unfolded g entries') : Value → Value → Prop
  | entry {i i' : Nat} {name : String} {d : Datum} {v v' : Value} :
      entries[i]? = some (name, d) → X.values[i]? = some v →
      entries'[i']? = some (name, d) → Y.values[i']? = some v' → v.isContainer → Paired X Y v v'
  | part {o o' : Occurrence} {i : Nat} {v v' : Value} : o ∈ X.made → o' ∈ Y.made →
      Paired X Y o.cell o'.cell → o.parts[i]? = some v → o'.parts[i]? = some v' → v.isContainer →
      Paired X Y v v'

variable {X : Unfolded g entries} {Y : Unfolded g entries'}

/-- What one datum became in both: a primitive, or cells of one container. -/
theorem alike_of_image {d : Datum} {v v' : Value} (h : Image g X.conversion.known X.made d v)
    (h' : Image g Y.conversion.known Y.made d v') :
    (v' = v ∧ v.isContainer = false) ∨
      ∃ o ∈ X.made, ∃ o' ∈ Y.made, o.cell = v ∧ o'.cell = v' ∧ o'.id = o.id := by
  rcases X.image_cases h with ⟨rfl, hd⟩ | ⟨o, ho, rfl, rfl⟩
  · rcases Y.image_cases h' with ⟨rfl, -⟩ | ⟨o', ho', rfl, rfl⟩
    · exact .inl ⟨rfl, rfl⟩
    · have := hd _ _ rfl (Y.complete ho').found
      rw [(Y.complete ho').visible] at this
      cases this
  · rcases Y.image_cases h' with ⟨rfl, hd⟩ | ⟨o', ho', rfl, hid⟩
    · have := hd _ _ rfl (X.complete ho).found
      rw [(X.complete ho).visible] at this
      cases this
    · exact .inr ⟨o, ho, o', ho', rfl, rfl, (Datum.container.inj hid).symm⟩

namespace Paired

/-- Occurrences of one container have the same parts to begin with. -/
theorem container_eq {o o' : Occurrence} (ho : o ∈ X.made) (ho' : o' ∈ Y.made)
    (hid : o'.id = o.id) : o'.container = o.container := by
  have h := (Y.complete ho').found
  rw [hid, (X.complete ho).found] at h
  exact (Option.some.inj h).symm

/-- The parts at one place of two occurrences of one container are what one datum became. -/
theorem alike_of_parts {o o' : Occurrence} (ho : o ∈ X.made) (ho' : o' ∈ Y.made)
    (hid : o'.id = o.id) {i : Nat} {v v' : Value} (hv : o.parts[i]? = some v)
    (hv' : o'.parts[i]? = some v') :
    (v' = v ∧ v.isContainer = false) ∨
      ∃ p ∈ X.made, ∃ p' ∈ Y.made, p.cell = v ∧ p'.cell = v' ∧ p'.id = p.id := by
  have hlen := (X.complete ho).length_parts
  obtain ⟨hi, -⟩ := List.getElem?_eq_some_iff.1 hv
  obtain ⟨⟨s, d⟩, hd⟩ : ∃ e, o.container.parts[i]? = some e :=
    ⟨_, List.getElem?_eq_getElem (hlen ▸ hi)⟩
  have hd' := hd
  rw [← container_eq ho ho' hid] at hd'
  exact alike_of_image (X.image_part ho hd hv) (Y.image_part ho' hd' hv')

/-- Paired cells are those of occurrences of one container. -/
theorem exists_occurrences {v v' : Value} (h : Paired X Y v v') :
    ∃ o ∈ X.made, ∃ o' ∈ Y.made, o.cell = v ∧ o'.cell = v' ∧ o'.id = o.id := by
  have hcontainer : ∀ {v v' : Value}, v.isContainer = true →
      ((v' = v ∧ v.isContainer = false) ∨
        ∃ o ∈ X.made, ∃ o' ∈ Y.made, o.cell = v ∧ o'.cell = v' ∧ o'.id = o.id) →
      ∃ o ∈ X.made, ∃ o' ∈ Y.made, o.cell = v ∧ o'.cell = v' ∧ o'.id = o.id := by
    intro v v' hc h
    refine h.resolve_left fun hn => ?_
    rw [hc] at hn
    cases hn.2
  induction h with
  | entry he hv he' hv' hc =>
    exact hcontainer hc (alike_of_image (X.image_entry he hv) (Y.image_entry he' hv'))
  | part ho ho' _ hv hv' hc ih =>
    obtain ⟨p, hp, p', hp', hcell, hcell', hid⟩ := ih
    obtain rfl := X.eq_of_cell hp ho hcell
    obtain rfl := Y.eq_of_cell hp' ho' hcell'
    exact hcontainer hc (alike_of_parts ho ho' hid hv hv')

/-- Paired cells are those of one container of the graph. -/
theorem id_eq {o o' : Occurrence} (ho : o ∈ X.made) (ho' : o' ∈ Y.made)
    (h : Paired X Y o.cell o'.cell) : o'.id = o.id := by
  obtain ⟨p, hp, p', hp', hcell, hcell', hid⟩ := h.exists_occurrences
  obtain rfl := X.eq_of_cell hp ho hcell
  obtain rfl := Y.eq_of_cell hp' ho' hcell'
  exact hid

/-- Pairs may be read from either side. -/
theorem symm {v v' : Value} (h : Paired X Y v v') : Paired Y X v' v := by
  induction h with
  | entry he hv he' hv' hc =>
    have h := Paired.entry (X := X) (Y := Y) he hv he' hv' hc
    obtain ⟨o, ho, o', ho', rfl, rfl, _⟩ := h.exists_occurrences
    exact .entry he' hv' he hv (Y.isContainer_cell ho')
  | part ho ho' h hv hv' hc ih =>
    have h := Paired.part (X := X) (Y := Y) ho ho' h hv hv' hc
    obtain ⟨p, hp, p', hp', rfl, rfl, _⟩ := h.exists_occurrences
    exact .part ho' ho ih hv' hv (Y.isContainer_cell hp')

/-- A cell is paired with one other at most. -/
theorem functional (hn' : (entries'.map (·.1)).Nodup) {v v' u' : Value} (h : Paired X Y v v')
    (hu : Paired X Y v u') : v' = u' := by
  have hshared : ∀ {v v' u' : Value}, Paired X Y v v' → Paired X Y v u' →
      (∀ o ∈ X.made, o.cell = v → g.Shares o.id = false → v' = u') → v' = u' := by
    intro v v' u' h hu hcopied
    obtain ⟨o, ho, o', ho', rfl, rfl, hid⟩ := h.exists_occurrences
    obtain ⟨p, hp, p', hp', hcell, rfl, hid'⟩ := hu.exists_occurrences
    obtain rfl := X.eq_of_cell hp ho hcell
    cases hs : g.Shares p.id with
    | true => rw [Y.eq_of_shares ho' hp' (hid.trans hid'.symm) (hid ▸ hs)]
    | false => exact hcopied p ho rfl hs
  induction h generalizing u' with
  | @entry i i' name d v v' he hv he' hv' hc =>
    refine hshared (.entry he hv he' hv' hc) hu fun o ho hcell hs => ?_
    subst hcell
    cases hu with
    | @entry j j' _ _ _ _ hf hw hf' hw' _ =>
      obtain rfl := X.entry_unique ho hs hv hw
      rw [he] at hf
      cases hf
      have hij : i' = j' := by
        have hi : (entries'.map (·.1))[i']? = some name := by rw [List.getElem?_map, he']; rfl
        have hj : (entries'.map (·.1))[j']? = some name := by rw [List.getElem?_map, hf']; rfl
        exact getElem?_inj_of_count (List.nodup_iff_count_le_one.1 hn' _) hi hj
      subst hij
      exact Option.some.inj (hv'.symm.trans hw')
    | part hp _ _ hw _ _ =>
      exact absurd (List.mem_of_getElem? hw) (X.not_mem_parts_of_entry ho hs hv hp)
  | @part p p' i v v' hp hp' hpair hv hv' hc ih =>
    refine hshared (.part hp hp' hpair hv hv' hc) hu fun o ho hcell hs => ?_
    subst hcell
    cases hu with
    | entry _ hw _ _ _ =>
      exact absurd (List.mem_of_getElem? hv) (X.not_mem_parts_of_entry ho hs hw hp)
    | part hq hq' hpair' hw hw' _ =>
      obtain ⟨rfl, rfl⟩ := X.part_unique ho hs hp hq hv hw
      have hcell := ih hpair'
      obtain rfl := Y.eq_of_cell hp' hq' hcell
      exact Option.some.inj (hv'.symm.trans hw')

/-- Of two pairs the first members are equal exactly if the second ones are. -/
theorem unique (hn : (entries.map (·.1)).Nodup) (hn' : (entries'.map (·.1)).Nodup)
    {v v' u u' : Value} (h : Paired X Y v v') (hu : Paired X Y u u') : v' = u' ↔ v = u := by
  constructor
  · rintro rfl
    exact functional hn h.symm hu.symm
  · rintro rfl
    exact functional hn' h hu

/-- Paired cells hold alike values. -/
theorem parts_alike {o o' : Occurrence} (ho : o ∈ X.made) (ho' : o' ∈ Y.made)
    (h : Paired X Y o.cell o'.cell) :
    List.Forall₂ (fun v v' => (v' = v ∧ v.isContainer = false) ∨ Paired X Y v v') o.parts
      o'.parts := by
  have hid := id_eq ho ho' h
  have hlen : o.parts.length = o'.parts.length := by
    rw [(X.complete ho).length_parts, (Y.complete ho').length_parts, container_eq ho ho' hid]
  refine List.forall₂_iff_get.2 ⟨hlen, fun i hi hi' => ?_⟩
  have hv : o.parts[i]? = some (o.parts.get ⟨i, hi⟩) := List.getElem?_eq_getElem hi
  have hv' : o'.parts[i]? = some (o'.parts.get ⟨i, hi'⟩) := List.getElem?_eq_getElem hi'
  rcases alike_of_parts ho ho' hid hv hv' with h' | ⟨p, hp, -, -, hcell, -, -⟩
  · exact .inl h'
  · exact .inr (.part ho ho' h hv hv' (hcell ▸ X.isContainer_cell hp))

/-- Paired cells are of one kind. -/
theorem kind {v v' : Value} (h : Paired X Y v v') : v'.kind = v.kind := by
  obtain ⟨o, ho, o', ho', rfl, rfl, hid⟩ := h.exists_occurrences
  rw [Heap.kind_of_contents (X.complete ho).held, Heap.kind_of_contents (Y.complete ho').held,
    Occurrence.contents, Occurrence.contents, Contents.kind_fill, Contents.kind_fill,
    container_eq ho ho' hid]

/-- Paired cells are found under the same path if those of shared containers are. -/
theorem path_eq
    (hshared : ∀ o ∈ X.made, ∀ o' ∈ Y.made, o'.id = o.id → g.Shares o.id → o'.path = o.path)
    {v v' : Value} (h : Paired X Y v v') :
    Y.conversion.provenance.find? v' = X.conversion.provenance.find? v := by
  have hpaths : ∀ o ∈ X.made, ∀ o' ∈ Y.made, o.cell = v → o'.cell = v' → o'.path = o.path := by
    induction h with
    | @entry i i' name d v v' he hv he' hv' hc =>
      rintro o ho o' ho' rfl rfl
      have hid := id_eq ho ho' (.entry he hv he' hv' hc)
      cases hs : g.Shares o.id with
      | true => exact hshared o ho o' ho' hid hs
      | false => rw [X.path_of_entry ho hs he hv, Y.path_of_entry ho' (hid ▸ hs) he' hv']
    | @part p p' i v v' hp hp' hpair hv hv' hc ih =>
      rintro o ho o' ho' rfl rfl
      have hid := id_eq ho ho' (.part hp hp' hpair hv hv' hc)
      cases hs : g.Shares o.id with
      | true => exact hshared o ho o' ho' hid hs
      | false =>
        obtain ⟨s, d, hd, hpath⟩ := X.path_of_part ho hs hp hv
        obtain ⟨s', d', hd', hpath'⟩ := Y.path_of_part ho' (hid ▸ hs) hp' hv'
        rw [container_eq hp hp' (id_eq hp hp' hpair), hd] at hd'
        cases hd'
        rw [hpath, hpath', ih p hp p' hp' rfl rfl]
  obtain ⟨o, ho, o', ho', rfl, rfl, -⟩ := h.exists_occurrences
  rw [X.find?_cell ho, Y.find?_cell ho', hpaths o ho o' ho' rfl rfl]

end Paired

end Unfolded

end Host

end FrozenGlobals
