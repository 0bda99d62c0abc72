import FrozenGlobals.Proofs.Analysis.Trace

/-!
# Where changes come from

In a run, whatever changes has an event behind it. Contents of a container change by a write
(`Runs.contents_or_write`), a path is added by a conversion (`Runs.entry_or_convert`), and a frame
of globals changes by a new binding of one of its names (`Runs.frame_or_rebind`). The writes and
bindings of a run are guarded by their own checks: `Runs.write_guarded` and `Runs.rebind_guarded`.
These checks come after the run began (`Runs.opened_le`), so what they report is new in it
(`Runs.reports_of_opened`).
-/

namespace FrozenGlobals

/-- There are new diagnostics in the second of two states. -/
def State.Reports (s s' : State) : Prop :=
  ∃ d own, s'.diagnostics.toList = s.diagnostics.toList ++ d :: own

/-- The state in which the check of a write or of a new binding began. -/
def Event.opened? : Event → Option State
  | .write x => some x.opened
  | .rebind x => some x.opened
  | _ => none

namespace Provenance

theorem find?_isSome_iff {p : Provenance} {v : Value} :
    (p.find? v).isSome ↔ v ∈ p.entries.map (·.1) := by
  simp [find?, List.find?_isSome]

theorem findAny?_isSome_of_mem {p : Provenance} {r : Reference} {v : Value} (hv : v ∈ r)
    (hp : v ∈ p.entries.map (·.1)) : (p.findAny? r).isSome := by
  rw [findAny?, List.findSome?_isSome_iff]
  exact ⟨v, hv, find?_isSome_iff.2 hp⟩

/-- A path that is recorded stays the one that is found. -/
theorem find?_of_isPrefix {p q : Provenance} (h : p.entries <+: q.entries) {v : Value} {path : Path}
    (hv : p.find? v = some path) : q.find? v = some path := by
  obtain ⟨rest, hrest⟩ := h
  obtain ⟨e, he, rfl⟩ := Option.map_eq_some_iff.1 hv
  rw [find?, ← hrest, List.find?_append, he]
  rfl

end Provenance

/-! ## Guards -/

/-- A write in a run that ends in a world. The diagnostics of its own check are kept, and if it
changes a container that has a path there are some, unless the container was thrown after the check
and the target is whatever is thrown. -/
structure Write.Guarded (x : Write) (w : World) : Prop where
  checks : x.opened.Checks x.own x.checked
  written : x.after = { x.before with
    heap := x.before.heap.setKeys (x.target.now x.before) x.key x.values }
  kept : x.checked.diagnostics.toList <+: w.state.diagnostics.toList
  grows : ∃ globals, World.Le ⟨x.before, globals⟩ w
  reported : ∀ v ∈ x.before.provenance.entries.map (·.1),
    x.before.heap.contents v ≠ x.after.heap.contents v →
      x.own ≠ [] ∨ (x.target = .thrown ∧ v ∈ x.before.thrown ∧ v ∉ x.opened.thrown)

/-- A new binding of a global name in a run that ends in a world: it was reported, and the frame has
the names it had. -/
structure Rebinding.Guarded (x : Rebinding) (w : World) : Prop where
  checks : x.opened.Checks x.own x.before
  reported : x.own ≠ []
  kept : x.before.diagnostics.toList <+: w.state.diagnostics.toList
  global : x.frame ∈ w.globals
  written : x.after = { x.before with
    heap := x.before.heap.define x.frame x.name (.known x.value) }
  names : (x.after.heap.frame x.frame).bindings.map (·.1) =
    (x.before.heap.frame x.frame).bindings.map (·.1)

/-- A conversion in a run: it adds paths for containers that were not there before, and the paths
stay. -/
structure Exposing.Additive (x : Exposing) (g : Host.Graph) (s : State) : Prop where
  converts : ∃ root entries, g.globals root = .ok entries ∧
    Host.Conversion.frame g x.before.conversion entries = (x.frame, x.after.conversion)
  added : ∃ made : List Host.Occurrence, x.after.provenance.entries =
      x.before.provenance.entries ++ made.map (fun o => (o.cell, o.path)) ∧
    ∀ o ∈ made, x.before.heap.contents o.cell = none ∧
      (g.Shares o.id → x.before.known.lookup o.id = none)
  kept : x.after.provenance.entries <+: s.provenance.entries

section
variable {setup : Setup} (hg : setup.graph.Grounded) {w w' : World} {es : List Event}
include hg

/-! ## Checks -/

/-- The check of a write or of a new binding in a run came after the run began. -/
theorem Runs.opened_le (h : Runs setup w es w') (hw : w.Ok setup) {e : Event} (he : e ∈ es)
    {s : State} (hs : e.opened? = some s) : ∃ globals, w.Le ⟨s, globals⟩ := by
  induction h with
  | nil => cases he
  | append h₁ h₂ ih₁ ih₂ =>
    obtain ⟨hle₁, hok₁⟩ := h₁.le_ok hg hw
    rcases List.mem_append.1 he with he | he
    · exact ih₁ hw he
    · obtain ⟨globals, hle⟩ := ih₂ hok₁ he
      exact ⟨globals, hle₁.trans hle⟩
  | step h =>
    rw [List.mem_singleton] at he
    subst he
    cases h <;> cases hs
  | @rebind w _ _ _ _ _ _ _ _ _ _ =>
    cases List.mem_singleton.1 he
    cases hs
    exact ⟨w.globals, .refl w⟩
  | @write w own s' es w' target key values hc _ _ hrun _ ih =>
    rcases List.mem_append.1 he with he | he
    · obtain ⟨globals, hle⟩ := ih (hc.ok hw) he
      exact ⟨globals, hc.le.trans hle⟩
    · cases List.mem_singleton.1 he
      cases hs
      exact ⟨w.globals, .refl w⟩

/-- What the check of a write or of a new binding reported is new in the run. -/
theorem Runs.reports_of_opened (h : Runs setup w es w') (hw : w.Ok setup) {e : Event} (he : e ∈ es)
    {s checked : State} {own : List Diagnostic} (hs : e.opened? = some s)
    (hc : s.Checks own checked) (hown : own ≠ [])
    (hkept : checked.diagnostics.toList <+: w'.state.diagnostics.toList) :
    w.state.Reports w'.state := by
  obtain ⟨globals, hle⟩ := h.opened_le hg hw he hs
  obtain ⟨before, hbefore⟩ := hle.diagnostics
  obtain ⟨after, hafter⟩ := hkept
  obtain ⟨d, rest, hd⟩ := List.exists_cons_of_ne_nil
    (List.append_ne_nil_of_right_ne_nil before (List.append_ne_nil_of_left_ne_nil hown after))
  refine ⟨d, rest, ?_⟩
  rw [← hafter, hc.diagnostics, ← hbefore, List.append_assoc, List.append_assoc, hd]

/-! ## Containers -/

/-- A single change leaves the contents of every container alone. -/
theorem Step.contents {e : Event} (h : Step setup w e w') (hw : w.Ok setup) {v : Value}
    {k : Contents} (hv : w.state.heap.contents v = some k) :
    w'.state.heap.contents v = some k := by
  cases h with
  | check h => exact h.heap ▸ hv
  | throws _ | closure _ | accessor | frame _ | bind _ _ => exact hv
  | @object o _ =>
    have hne : v ≠ (w.state.heap.addObject o).1 := by
      rintro rfl
      rw [Heap.contents_addObject_fresh] at hv
      cases hv
    show (w.state.heap.addObject o).2.contents v = _
    rw [Heap.contents_addObject, if_neg hne]
    exact hv
  | @array r _ =>
    have hne : v ≠ (w.state.heap.addArray r).1 := by
      rintro rfl
      rw [Heap.contents_addArray_fresh] at hv
      cases hv
    show (w.state.heap.addArray r).2.contents v = _
    rw [Heap.contents_addArray, if_neg hne]
    exact hv
  | convert hr hc =>
    obtain ⟨made, values, he⟩ := hw.exposed hg hr hc
    exact he.kept v k hv

/-- The contents of a container are what they were, or a write changed them. -/
theorem Runs.contents_or_write (h : Runs setup w es w') (hw : w.Ok setup) {v : Value}
    {k : Contents} (hv : w.state.heap.contents v = some k) :
    w'.state.heap.contents v = some k ∨
      ∃ x, Event.write x ∈ es ∧ x.before.heap.contents v ≠ x.after.heap.contents v := by
  induction h with
  | nil => exact .inl hv
  | append h₁ _ ih₁ ih₂ =>
    rcases ih₁ hw hv with hv₁ | ⟨x, hx, hne⟩
    · rcases ih₂ (h₁.le_ok hg hw).2 hv₁ with hv₂ | ⟨x, hx, hne⟩
      · exact .inl hv₂
      · exact .inr ⟨x, List.mem_append_right _ hx, hne⟩
    · exact .inr ⟨x, List.mem_append_left _ hx, hne⟩
  | step h => exact .inl (h.contents hg hw hv)
  | @rebind w own s frame name r hc _ _ _ _ =>
    refine .inl ?_
    show (s.heap.define frame name (.known r)).contents v = _
    rw [Heap.contents_define, hc.heap]
    exact hv
  | @write w own s es w' target key values hc _ _ hrun _ ih =>
    rcases ih (hc.ok hw) (hc.heap ▸ hv) with hv' | ⟨x, hx, hne⟩
    · by_cases hsame : (w'.state.heap.setKeys (target.now w'.state) key values).contents v = some k
      · exact .inl hsame
      · exact .inr ⟨_, List.mem_append_right _ (List.mem_singleton_self _),
          fun heq => hsame (heq.symm.trans hv')⟩
    · exact .inr ⟨x, List.mem_append_left _ hx, hne⟩

omit hg in
theorem Write.Guarded.mono {x : Write} (h : x.Guarded w) (hle : w.Le w') : x.Guarded w' :=
  { h with
    kept := h.kept.trans hle.diagnostics
    grows := h.grows.imp fun _ hx => hx.trans hle }

/-- Every write of a run is guarded by its own check. -/
theorem Runs.write_guarded (h : Runs setup w es w') (hw : w.Ok setup) {x : Write}
    (hx : Event.write x ∈ es) : x.Guarded w' := by
  induction h with
  | nil => cases hx
  | append h₁ h₂ ih₁ ih₂ =>
    obtain ⟨_, hok₁⟩ := h₁.le_ok hg hw
    rcases List.mem_append.1 hx with hx | hx
    · exact (ih₁ hw hx).mono (h₂.le_ok hg hok₁).1
    · exact ih₂ hok₁ hx
  | step h =>
    rw [List.mem_singleton] at hx
    subst hx
    cases h
  | rebind _ _ _ _ _ => cases List.mem_singleton.1 hx
  | @write w own s es w' target key values hc hown ht hrun _ ih =>
    obtain ⟨hle', hok'⟩ := hrun.le_ok hg (hc.ok hw)
    rcases List.mem_append.1 hx with hx | hx
    · exact (ih (hc.ok hw) hx).mono (.setKeys ..)
    · cases List.mem_singleton.1 hx
      refine ⟨hc, rfl, hle'.diagnostics, ⟨w'.globals, .setKeys ..⟩, fun v hv hne => ?_⟩
      have hle : w.Le w' := hc.le.trans hle'
      -- only possibilities of the target change
      have hmem : v ∈ target.now w'.state := by
        by_contra hnot
        refine hne ?_
        show _ = (w'.state.heap.setKeys _ _ _).contents v
        rw [Heap.contents_setKeys, if_neg hnot]
      -- one that the target had at the check had its path there too
      have hreported : v ∈ target.now w.state → own ≠ [] := by
        intro hold
        obtain ⟨e, he, rfl⟩ := List.mem_map.1 hv
        obtain ⟨k, hk⟩ := Option.isSome_iff_exists.1 (hok'.contents_isSome he)
        have hex := ht _ hold (Heap.isContainer_of_contents hk)
        rcases hle.added e he with hin | hnone
        · exact hown (Provenance.findAny?_isSome_of_mem hold (List.mem_map_of_mem hin))
        · rw [hnone] at hex
          cases hex
      cases target with
      | known r => exact .inl (hreported hmem)
      | thrown =>
        by_cases hold : v ∈ w.state.thrown
        · exact .inl (hreported hold)
        · exact .inr ⟨rfl, hmem, hold⟩

/-! ## Paths -/

/-- A path was there before, or a conversion added it. The container then holds what the conversion
gave it, or a write changed it. -/
theorem Runs.entry_or_convert (h : Runs setup w es w') (hw : w.Ok setup) {v : Value}
    (hv : v ∈ w'.state.provenance.entries.map (·.1)) :
    v ∈ w.state.provenance.entries.map (·.1) ∨
      ∃ x k, Event.convert x ∈ es ∧ x.before.heap.contents v = none ∧
        x.after.heap.contents v = some k ∧
        (w'.state.heap.contents v = some k ∨
          ∃ y, Event.write y ∈ es ∧ y.before.heap.contents v ≠ y.after.heap.contents v) := by
  induction h with
  | nil => exact .inl hv
  | append h₁ h₂ ih₁ ih₂ =>
    obtain ⟨_, hok₁⟩ := h₁.le_ok hg hw
    rcases ih₂ hok₁ hv with hv₂ | ⟨x, k, hx, hnone, hk, hlast⟩
    · rcases ih₁ hw hv₂ with hv₁ | ⟨x, k, hx, hnone, hk, hlast⟩
      · exact .inl hv₁
      · refine .inr ⟨x, k, List.mem_append_left _ hx, hnone, hk, ?_⟩
        rcases hlast with hlast | ⟨y, hy, hne⟩
        · rcases h₂.contents_or_write hg hok₁ hlast with h | ⟨y, hy, hne⟩
          · exact .inl h
          · exact .inr ⟨y, List.mem_append_right _ hy, hne⟩
        · exact .inr ⟨y, List.mem_append_left _ hy, hne⟩
    · refine .inr ⟨x, k, List.mem_append_right _ hx, hnone, hk, ?_⟩
      exact hlast.imp_right fun ⟨y, hy, hne⟩ => ⟨y, List.mem_append_right _ hy, hne⟩
  | @step w e w' h =>
    have hok' := h.ok hg hw
    obtain ⟨entry, hentry, rfl⟩ := List.mem_map.1 hv
    rcases (h.le hg hw).added entry hentry with hold | hnone
    · exact .inl (List.mem_map_of_mem hold)
    · obtain ⟨k, hk⟩ := Option.isSome_iff_exists.1 (hok'.contents_isSome hentry)
      cases h with
      | convert hr hc =>
        exact .inr ⟨_, k, List.mem_singleton_self _, hnone, hk, .inl hk⟩
      | check h => exact .inl (List.mem_map_of_mem (h.provenance ▸ hentry))
      | throws _ | closure _ | accessor | frame _ | bind _ _ | object _ | array _ =>
        exact .inl (List.mem_map_of_mem hentry)
  | rebind hc _ _ _ _ => exact .inl (hc.provenance ▸ hv)
  | @write w own s es w' target key values hc _ _ hrun _ ih =>
    rcases ih (hc.ok hw) hv with hold | ⟨x, k, hx, hnone, hk, hlast⟩
    · exact .inl (hc.provenance ▸ hold)
    · refine .inr ⟨x, k, List.mem_append_left _ hx, hnone, hk, ?_⟩
      rcases hlast with hlast | ⟨y, hy, hne⟩
      · by_cases hsame :
            (w'.state.heap.setKeys (target.now w'.state) key values).contents v = some k
        · exact .inl hsame
        · exact .inr ⟨_, List.mem_append_right _ (List.mem_singleton_self _),
            fun heq => hsame (heq.symm.trans hlast)⟩
      · exact .inr ⟨y, List.mem_append_left _ hy, hne⟩

/-- A container created by a program never gets a path. -/
theorem Runs.allocate_not_mem (h : Runs setup w es w') (hw : w.Ok setup) {v : Value}
    (hv : Event.allocate v ∈ es) :
    (w'.state.heap.contents v).isSome ∧ v ∉ w'.state.provenance.entries.map (·.1) := by
  have hstays : ∀ {w₁ w₂ : World}, w₁.Le w₂ → (w₁.state.heap.contents v).isSome ∧
      v ∉ w₁.state.provenance.entries.map (·.1) → (w₂.state.heap.contents v).isSome ∧
      v ∉ w₂.state.provenance.entries.map (·.1) := by
    rintro w₁ w₂ hle ⟨hsome, hnot⟩
    refine ⟨hle.contents v hsome, fun hmem => ?_⟩
    obtain ⟨e, he, rfl⟩ := List.mem_map.1 hmem
    rcases hle.added e he with hold | hnone
    · exact hnot (List.mem_map_of_mem hold)
    · rw [hnone] at hsome
      cases hsome
  induction h with
  | nil => cases hv
  | append h₁ h₂ ih₁ ih₂ =>
    obtain ⟨_, hok₁⟩ := h₁.le_ok hg hw
    rcases List.mem_append.1 hv with hv | hv
    · exact hstays (h₂.le_ok hg hok₁).1 (ih₁ hw hv)
    · exact ih₂ hok₁ hv
  | @step w e w' h =>
    rw [List.mem_singleton] at hv
    subst hv
    have hfresh : w.state.heap.contents v = none → v ∉ w.state.provenance.entries.map (·.1) :=
      hw.conversion.not_mem_entries
    cases h with
    | object _ =>
      refine ⟨?_, hfresh (Heap.contents_addObject_fresh ..)⟩
      exact Option.isSome_iff_exists.2 ⟨_, (Heap.contents_addObject ..).trans (if_pos rfl)⟩
    | array _ =>
      refine ⟨?_, hfresh (Heap.contents_addArray_fresh ..)⟩
      exact Option.isSome_iff_exists.2 ⟨_, (Heap.contents_addArray ..).trans (if_pos rfl)⟩
  | rebind _ _ _ _ _ => cases List.mem_singleton.1 hv
  | @write w own s es w' target key values hc _ _ hrun hval ih =>
    rcases List.mem_append.1 hv with hv | hv
    · exact hstays (.setKeys ..) (ih (hc.ok hw) hv)
    · cases List.mem_singleton.1 hv

/-- Every conversion of a run only adds paths. -/
theorem Runs.convert_additive (h : Runs setup w es w') (hw : w.Ok setup) {x : Exposing}
    (hx : Event.convert x ∈ es) : x.Additive setup.graph w'.state := by
  induction h with
  | nil => cases hx
  | append h₁ h₂ ih₁ ih₂ =>
    obtain ⟨_, hok₁⟩ := h₁.le_ok hg hw
    rcases List.mem_append.1 hx with hx | hx
    · have hadd := ih₁ hw hx
      exact { hadd with kept := hadd.kept.trans (h₂.le_ok hg hok₁).1.entries }
    · exact ih₂ hok₁ hx
  | step h =>
    rw [List.mem_singleton] at hx
    subst hx
    cases h with
    | convert hr hc =>
      obtain ⟨made, values, he⟩ := hw.exposed hg hr hc
      exact ⟨⟨_, _, hr, hc⟩, ⟨made, he.entries, fun o ho => ⟨he.fresh o ho, he.unseen o ho⟩⟩,
        List.prefix_refl _⟩
  | rebind _ _ _ _ _ => cases List.mem_singleton.1 hx
  | @write w own s es w' target key values hc _ _ hrun _ ih =>
    rcases List.mem_append.1 hx with hx | hx
    · have hadd := ih (hc.ok hw) hx
      exact { hadd with kept := hadd.kept }
    · cases List.mem_singleton.1 hx

/-! ## Frames of globals -/

/-- A single change leaves the frames of globals alone. -/
theorem Step.frame_eq {e : Event} (h : Step setup w e w') (hw : w.Ok setup) {f : Nat}
    (hf : f ∈ w.globals) : w'.state.heap.frame f = w.state.heap.frame f := by
  have hlt := hw.globals f hf
  cases h with
  | check h => rw [h.heap]
  | throws _ | closure _ | accessor | object _ | array _ => rfl
  | frame _ =>
    show (w.state.heap.addFrame _).2.frame f = _
    rw [Heap.frame_addFrame, if_neg (by omega)]
  | bind hloc _ =>
    show (w.state.heap.define _ _ _).frame f = _
    rw [Heap.frame_define, if_neg]
    rintro ⟨rfl, _⟩
    exact hloc.2 hf
  | convert hr hc =>
    obtain ⟨made, values, he⟩ := hw.exposed hg hr hc
    show Heap.frame _ f = _
    rw [Heap.frame, State.withConversion, he.frames, Array.getElem?_push, if_neg (by omega)]
    rfl

/-- A frame of globals keeps its names, and it is what it was unless one of them was bound anew. -/
theorem Runs.frame_or_rebind (h : Runs setup w es w') (hw : w.Ok setup) {f : Nat}
    (hf : f ∈ w.globals) :
    (w'.state.heap.frame f).bindings.map (·.1) = (w.state.heap.frame f).bindings.map (·.1) ∧
      (w'.state.heap.frame f = w.state.heap.frame f ∨
        ∃ x, Event.rebind x ∈ es ∧ x.frame = f) := by
  induction h with
  | nil => exact ⟨rfl, .inl rfl⟩
  | append h₁ h₂ ih₁ ih₂ =>
    obtain ⟨hle₁, hok₁⟩ := h₁.le_ok hg hw
    obtain ⟨hn₁, hr₁⟩ := ih₁ hw hf
    obtain ⟨hn₂, hr₂⟩ := ih₂ hok₁ (hle₁.globals f hf)
    refine ⟨hn₂.trans hn₁, ?_⟩
    rcases hr₁ with heq₁ | ⟨x, hx, hxf⟩
    · rcases hr₂ with heq₂ | ⟨x, hx, hxf⟩
      · exact .inl (heq₂.trans heq₁)
      · exact .inr ⟨x, List.mem_append_right _ hx, hxf⟩
    · exact .inr ⟨x, List.mem_append_left _ hx, hxf⟩
  | step h =>
    have := h.frame_eq hg hw hf
    exact ⟨by rw [this], .inl this⟩
  | @rebind w own s frame name r hc hown hfr hn _ =>
    show ((s.heap.define frame name (.known r)).frame f).bindings.map (·.1) = _ ∧
      ((s.heap.define frame name (.known r)).frame f = _ ∨ _)
    rw [Heap.frame_define]
    by_cases hfe : f = frame
    · subst hfe
      refine ⟨?_, .inr ⟨_, List.mem_singleton_self _, rfl⟩⟩
      have hlt : f < s.heap.frames.size := by
        rw [hc.heap]
        exact hw.globals f hf
      rw [if_pos ⟨rfl, hlt⟩, ← hc.heap]
      exact Frame.keys_setBinding (Frame.find?_isSome_iff.1 hn)
    · rw [if_neg (fun h => hfe h.1), hc.heap]
      exact ⟨rfl, .inl rfl⟩
  | @write w own s es w' target key values hc _ _ hrun _ ih =>
    have hframe : ∀ id, (w'.state.heap.setKeys (target.now w'.state) key values).frame id =
        w'.state.heap.frame id := by
      intro id
      rw [Heap.frame, (Heap.frames_setKeys ..).1]
      rfl
    obtain ⟨hn, hr⟩ := ih (hc.ok hw) hf
    show ((w'.state.heap.setKeys _ _ _).frame f).bindings.map (·.1) = _ ∧
      ((w'.state.heap.setKeys _ _ _).frame f = _ ∨ _)
    rw [hframe]
    rw [hc.heap] at hn hr
    refine ⟨hn, ?_⟩
    rcases hr with heq | ⟨x, hx, hxf⟩
    · exact .inl heq
    · exact .inr ⟨x, List.mem_append_left _ hx, hxf⟩

/-- A frame of globals was one before, or a conversion made it. It then has the names the conversion
gave it, and it is what the conversion made unless a name was bound anew. -/
theorem Runs.global_or_convert (h : Runs setup w es w') (hw : w.Ok setup) {f : Nat}
    (hf : f ∈ w'.globals) :
    f ∈ w.globals ∨ ∃ x, Event.convert x ∈ es ∧ x.frame = f ∧
      (w'.state.heap.frame f).bindings.map (·.1) =
        (x.after.heap.frame f).bindings.map (·.1) ∧
      (w'.state.heap.frame f = x.after.heap.frame f ∨
        ∃ y, Event.rebind y ∈ es ∧ y.frame = f) := by
  induction h with
  | nil => exact .inl hf
  | append h₁ h₂ ih₁ ih₂ =>
    obtain ⟨_, hok₁⟩ := h₁.le_ok hg hw
    rcases ih₂ hok₁ hf with hf₂ | ⟨x, hx, hxf, hn, hlast⟩
    · rcases ih₁ hw hf₂ with hf₁ | ⟨x, hx, hxf, hn, hlast⟩
      · exact .inl hf₁
      · obtain ⟨hn₂, hr₂⟩ := h₂.frame_or_rebind hg hok₁ hf₂
        refine .inr ⟨x, List.mem_append_left _ hx, hxf, hn₂.trans hn, ?_⟩
        rcases hlast with heq | ⟨y, hy, hyf⟩
        · rcases hr₂ with heq₂ | ⟨y, hy, hyf⟩
          · exact .inl (heq₂.trans heq)
          · exact .inr ⟨y, List.mem_append_right _ hy, hyf⟩
        · exact .inr ⟨y, List.mem_append_left _ hy, hyf⟩
    · refine .inr ⟨x, List.mem_append_right _ hx, hxf, hn, ?_⟩
      exact hlast.imp_right fun ⟨y, hy, hyf⟩ => ⟨y, List.mem_append_right _ hy, hyf⟩
  | step h =>
    cases h with
    | convert hr hc =>
      rcases List.mem_cons.1 hf with rfl | hf
      · exact .inr ⟨_, List.mem_singleton_self _, rfl, rfl, .inl rfl⟩
      · exact .inl hf
    | check _ | throws _ | closure _ | accessor | frame _ | bind _ _ | object _ | array _ =>
      exact .inl hf
  | rebind _ _ _ _ _ => exact .inl hf
  | @write w own s es w' target key values hc _ _ hrun _ ih =>
    have hframe : (w'.state.heap.setKeys (target.now w'.state) key values).frame f =
        w'.state.heap.frame f := by
      rw [Heap.frame, (Heap.frames_setKeys ..).1]
      rfl
    rcases ih (hc.ok hw) hf with hf | ⟨x, hx, hxf, hn, hlast⟩
    · exact .inl hf
    · refine .inr ⟨x, List.mem_append_left _ hx, hxf, ?_⟩
      show ((w'.state.heap.setKeys _ _ _).frame f).bindings.map (·.1) = _ ∧
        ((w'.state.heap.setKeys _ _ _).frame f = _ ∨ _)
      rw [hframe]
      exact ⟨hn, hlast.imp_right fun ⟨y, hy, hyf⟩ => ⟨y, List.mem_append_left _ hy, hyf⟩⟩

/-- Every new binding of a global name is guarded by its own report. -/
theorem Runs.rebind_guarded (h : Runs setup w es w') (hw : w.Ok setup) {x : Rebinding}
    (hx : Event.rebind x ∈ es) : x.Guarded w' := by
  induction h with
  | nil => cases hx
  | append h₁ h₂ ih₁ ih₂ =>
    obtain ⟨_, hok₁⟩ := h₁.le_ok hg hw
    rcases List.mem_append.1 hx with hx | hx
    · obtain ⟨hle₂, _⟩ := h₂.le_ok hg hok₁
      have hguard := ih₁ hw hx
      exact { hguard with
        kept := hguard.kept.trans hle₂.diagnostics
        global := hle₂.globals _ hguard.global }
    · exact ih₂ hok₁ hx
  | step h =>
    rw [List.mem_singleton] at hx
    subst hx
    cases h
  | @rebind w own s frame name r hc hown hfr hn _ =>
    cases List.mem_singleton.1 hx
    refine ⟨hc, hown, List.prefix_refl _, hfr, rfl, ?_⟩
    have hlt : frame < s.heap.frames.size := by
      rw [hc.heap]
      exact hw.globals frame hfr
    show ((s.heap.define frame name (.known r)).frame frame).bindings.map (·.1) = _
    rw [Heap.frame_define, if_pos ⟨rfl, hlt⟩]
    exact Frame.keys_setBinding (Frame.find?_isSome_iff.1 hn)
  | write hc _ _ hrun _ ih =>
    rcases List.mem_append.1 hx with hx | hx
    · have hguard := ih (hc.ok hw) hx
      exact { hguard with kept := hguard.kept }
    · cases List.mem_singleton.1 hx

/-- Declarations bind names in frames that never hold globals. -/
theorem Runs.bind_not_mem_globals (h : Runs setup w es w') (hw : w.Ok setup) {f : Nat}
    {name : String} (hf : Event.bind f name ∈ es) :
    f < w'.state.heap.frames.size ∧ f ∉ w'.globals := by
  have hstays : ∀ {w₁ w₂ : World}, w₁.Le w₂ →
      f < w₁.state.heap.frames.size ∧ f ∉ w₁.globals →
      f < w₂.state.heap.frames.size ∧ f ∉ w₂.globals := by
    rintro w₁ w₂ hle ⟨hlt, hnot⟩
    refine ⟨Nat.lt_of_lt_of_le hlt hle.frames, fun hmem => ?_⟩
    rcases hle.fresh f hmem with hold | hnew
    · exact hnot hold
    · omega
  induction h with
  | nil => cases hf
  | append h₁ h₂ ih₁ ih₂ =>
    obtain ⟨_, hok₁⟩ := h₁.le_ok hg hw
    rcases List.mem_append.1 hf with hf | hf
    · exact hstays (h₂.le_ok hg hok₁).1 (ih₁ hw hf)
    · exact ih₂ hok₁ hf
  | step h =>
    rw [List.mem_singleton] at hf
    subst hf
    have hle := h.le hg hw
    cases h with
    | bind hloc _ => exact hstays hle hloc
  | rebind _ _ _ _ _ => cases List.mem_singleton.1 hf
  | write hc _ _ _ _ ih =>
    rcases List.mem_append.1 hf with hf | hf
    · exact hstays (.setKeys ..) (ih (hc.ok hw) hf)
    · cases List.mem_singleton.1 hf

end

end FrozenGlobals
