import FrozenGlobals.Proofs.Analysis.Provenance
import FrozenGlobals.Proofs.Diagnostics
import FrozenGlobals.Proofs.Execution.Statements

/-!
# Soundness on the core

An analysis of a program of the core ends with a report, and every mutation of the globals in any
execution of the program is reported where it happens (`Setup.mutations_reported`).

An execution begins in the store that the globals describe, and an analysis with their conversion.
`hostChart` relates the two: a shared container of the host stands for its one cell, a copied one
for the cell of the occurrence at its place. `covering_ofGlobals` says that the analysis covers the
execution there; from there on `CoreStmt.simulates` does the work.

Regular expressions are not part of the core: they are containers of their own, but the analysis
takes them for primitive values, and what is written to one is lost (`regExpWrite_unreported`).
-/

namespace FrozenGlobals

open Script (Span Stmt Node Hoisting)
open Host (Datum Container Graph Conversion Occurrence Image Exposure)

namespace Execution

/-! ## The globals -/

/-- What stands for the data at an address of the host: the cell of a shared container, what an
entry of the globals became, or what a part of an occurrence became. -/
def hostValue (known : List (Nat × Value)) (made : List Occurrence) (values : List Value) :
    Address → Option Value
  | .shared id => known.lookup id
  | .entry i => values[i]?
  | .part outer i => do
      let u ← hostValue known made values outer
      let o ← made.find? (·.cell == u)
      o.parts[i]?
  | .fresh _ => none

/-- The abstract containers that stand for the containers of the host. -/
def hostChart (g : Graph) (entries : List (String × Datum)) (known : List (Nat × Value))
    (made : List Occurrence) (values : List Value) : Chart :=
  fun x => if (containerAt g entries x).isSome then hostValue known made values x else none

/-- The chart of the host stands for containers of the graph only. -/
theorem hostChart_eq_some {g : Graph} {entries : List (String × Datum)}
    {known : List (Nat × Value)} {made : List Occurrence} {values : List Value} {x : Address}
    {u : Value} (h : hostChart g entries known made values x = some u) :
    ∃ k, containerAt g entries x = some k ∧ hostValue known made values x = some u := by
  unfold hostChart at h
  split at h
  · next hk =>
    obtain ⟨k, hk⟩ := Option.isSome_iff_exists.1 hk
    exact ⟨k, hk, h⟩
  · cases h

/-- The chart of the host stands for every container of the graph that was converted. -/
theorem hostChart_of_container {g : Graph} {entries : List (String × Datum)}
    {known : List (Nat × Value)} {made : List Occurrence} {values : List Value} {x : Address}
    {k : Container} (hk : containerAt g entries x = some k) :
    hostChart g entries known made values x = hostValue known made values x :=
  if_pos (by rw [hk]; rfl)

/-- Data that is copied is a container that is visible and not shared. -/
theorem copied?_eq_some {g : Graph} {e : Datum} {k : Container} (h : copied? g e = some k) :
    ∃ id, e = .container id ∧ g.find? id = some k ∧ k.isVisible ∧ g.Shares id = false := by
  cases e with
  | container id =>
    obtain ⟨hk, hcond⟩ := Option.filter_eq_some_iff.1 h
    rw [Bool.and_eq_true, Bool.not_eq_true'] at hcond
    exact ⟨id, rfl, hk, hcond.1, by simp [Graph.Shares, hk, hcond.2]⟩
  | _ => cases h

/-- Copied data became the cell of one of its occurrences. -/
theorem exists_occurrence {g : Graph} {known : List (Nat × Value)} {made : List Occurrence}
    {e : Datum} {u : Value} (hi : Image g known made e u) {k : Container}
    (hk : copied? g e = some k) : ∃ o ∈ made, g.find? o.id = some k ∧ o.cell = u := by
  obtain ⟨id, rfl, hfind, hvisible, hshares⟩ := copied?_eq_some hk
  cases hi with
  | scalar hd => exact absurd rfl (hd id)
  | hidden hhid =>
    rw [hhid k hfind] at hvisible
    cases hvisible
  | shared hs _ =>
    rw [hshares] at hs
    cases hs
  | copied _ ho => exact ⟨_, ho, hfind, rfl⟩

/-- Filling an object gives an object. -/
theorem exists_fill_object (o : ObjectCell) (steps : List (Segment × Value)) :
    ∃ o', (Contents.object o).fill steps = .object o' := by
  induction steps generalizing o with
  | nil => exact ⟨o, rfl⟩
  | cons e steps ih => exact ih (o.set e.1.toKey (.single e.2))

section
variable {g : Graph} {entries : List (String × Datum)} {c' : Conversion} {made : List Occurrence}
  {values : List Value} (h : Exposure g entries .empty c' made values)
include h

/-- What an entry became. -/
theorem image_of_entry {i : Nat} {e : String × Datum} {u : Value} (he : entries[i]? = some e)
    (hu : values[i]? = some u) : Image g c'.known made e.2 u := by
  obtain ⟨hi, rfl⟩ := List.getElem?_eq_some_iff.1 he
  obtain ⟨hi', rfl⟩ := List.getElem?_eq_some_iff.1 hu
  have himage := (List.forall₂_iff_get.1 h.images).2 i (by simpa using hi) hi'
  rw [List.get_eq_getElem, List.getElem_map] at himage
  exact himage

/-- What a part of an occurrence became. -/
theorem image_of_part {o : Occurrence} (ho : o ∈ made) {i : Nat} {e : Segment × Datum} {u : Value}
    (he : o.container.parts[i]? = some e) (hu : o.parts[i]? = some u) :
    Image g c'.known made e.2 u := by
  obtain ⟨hi, rfl⟩ := List.getElem?_eq_some_iff.1 he
  obtain ⟨hi', rfl⟩ := List.getElem?_eq_some_iff.1 hu
  have himages := (h.unfolds.complete o ho).images
  have himage := (List.forall₂_iff_get.1 himages).2 i (by simpa using hi) hi'
  rw [List.get_eq_getElem, List.getElem_map] at himage
  exact himage

/-- An occurrence is found by its cell. -/
theorem find?_cell {o : Occurrence} (ho : o ∈ made) : made.find? (·.cell == o.cell) = some o := by
  cases hf : made.find? (·.cell == o.cell) with
  | none =>
    have := List.find?_eq_none.1 hf o ho
    simp at this
  | some o' =>
    have hcell : o'.cell = o.cell := by simpa using List.find?_some hf
    rw [List.inj_on_of_nodup_map h.unfolds.distinct (List.mem_of_find?_eq_some hf) ho hcell]

/-- What stands for a container of the host is the cell of an occurrence of it. -/
theorem occurrence_of_hostValue {x : Address} {k : Container} {u : Value}
    (hk : containerAt g entries x = some k) (hu : hostValue c'.known made values x = some u) :
    ∃ o ∈ made, o.container = k ∧ o.cell = u := by
  have hfound : ∀ {o k}, o ∈ made → g.find? o.id = some k → o.container = k := by
    intro o k ho hk
    exact Option.some.inj ((h.unfolds.complete o ho).found.symm.trans hk)
  induction x generalizing k u with
  | shared id =>
    obtain ⟨hk, _⟩ := Option.filter_eq_some_iff.1 hk
    obtain ⟨o, ho, rfl, hcell⟩ := h.mem_made_of_lookup hu
    exact ⟨o, ho, hfound ho hk, hcell⟩
  | entry i =>
    obtain ⟨e, he, hk⟩ := Option.bind_eq_some_iff.1 hk
    obtain ⟨o, ho, hk, hcell⟩ := exists_occurrence (image_of_entry h he hu) hk
    exact ⟨o, ho, hfound ho hk, hcell⟩
  | part outer i ih =>
    obtain ⟨outerContainer, houter, hpart⟩ := Option.bind_eq_some_iff.1 hk
    obtain ⟨e, he, hcopied⟩ := Option.bind_eq_some_iff.1 hpart
    obtain ⟨outerCell, hcell, hfind⟩ := Option.bind_eq_some_iff.1 hu
    obtain ⟨o, ho, rfl, rfl⟩ := ih houter hcell
    obtain ⟨o', ho', hui⟩ := Option.bind_eq_some_iff.1 hfind
    rw [find?_cell h ho] at ho'
    cases ho'
    obtain ⟨inner, hinner, hkinner, hcellinner⟩ :=
      exists_occurrence (image_of_part h ho he hui) hcopied
    exact ⟨inner, hinner, hfound hinner hkinner, hcellinner⟩
  | fresh n => cases hu

omit h in
/-- Data at an address is covered by what it became, if the address stands for that. -/
theorem covers_valueAt {d : Dialect} {y : Address} {e : Datum} {w : Value} {r : Reference}
    (hi : Image g c'.known made e w) (hw : w ∈ r)
    (hy : ∀ k, copied? g e = some k → hostChart g entries c'.known made values y = some w) :
    Covers (hostChart g entries c'.known made values) r (valueAt d g y e) := by
  intro x hx
  cases e with
  | container id =>
    cases hk : g.find? id with
    | none =>
      simp only [valueAt, hk] at hx
      cases hx
    | some k =>
      simp only [valueAt, hk] at hx
      by_cases hs : k.isShared
      · rw [if_pos hs] at hx
        cases hx
        have hat : containerAt g entries (.shared id) = some k :=
          Option.filter_eq_some_iff.2 ⟨hk, hs⟩
        refine ⟨w, hw, (hostChart_of_container hat).trans ?_⟩
        exact hi.lookup_of_shares (by simp [Graph.Shares, hk, hs])
      · rw [if_neg hs] at hx
        by_cases hv : k.isVisible
        · rw [if_pos hv] at hx
          cases hx
          exact ⟨w, hw, hy k (Option.filter_eq_some_iff.2 ⟨hk, by simp [hv, hs]⟩)⟩
        · rw [if_neg hv] at hx
          cases hx
  | _ => cases hx

/-- A part of a container of the host is covered by what it became. -/
theorem covers_part {d : Dialect} {x : Address} {o : Occurrence} (ho : o ∈ made)
    (hk : containerAt g entries x = some o.container)
    (hu : hostValue c'.known made values x = some o.cell) {i : Nat} {e : Segment × Datum}
    {w : Value} {r : Reference} (he : o.container.parts[i]? = some e) (hwi : o.parts[i]? = some w)
    (hw : w ∈ r) :
    Covers (hostChart g entries c'.known made values) r (valueAt d g (.part x i) e.2) := by
  refine covers_valueAt (image_of_part h ho he hwi) hw fun k hcopied => ?_
  have hat : containerAt g entries (.part x i) = some k := by
    simp only [containerAt, hk, Option.bind_some, he, hcopied]
  rw [hostChart_of_container hat]
  simp [hostValue, hu, find?_cell h ho, hwi]

/-- The cell of an occurrence covers the container of the host that it stands for. -/
theorem cellCovers_contents (d : Dialect) {x : Address} {o : Occurrence} (ho : o ∈ made)
    (hk : containerAt g entries x = some o.container)
    (hu : hostValue c'.known made values x = some o.cell) :
    CellCovers (hostChart g entries c'.known made values) o.contents
      (cellOf d g x o.container) := by
  have hcomplete := h.unfolds.complete o ho
  have hlen := hcomplete.length_parts
  have hread : ∀ {i : Nat} {e : Segment × Datum}, o.container.parts[i]? = some e →
      ∃ w, o.parts[i]? = some w ∧ (e.1, w) ∈ o.steps := by
    intro i e he
    obtain ⟨hi, rfl⟩ := List.getElem?_eq_some_iff.1 he
    refine ⟨o.parts[i], List.getElem?_eq_getElem (hlen ▸ hi), ?_⟩
    rw [Occurrence.steps, List.mem_iff_getElem]
    exact ⟨i, by simpa [hlen] using hi, by simp⟩
  cases hc : o.container with
  | object props absent =>
    obtain ⟨cell, hcell⟩ := exists_fill_object .empty o.steps
    have hcontents : o.contents = .object cell := by
      rw [Occurrence.contents, hc]
      exact hcell
    rw [hcontents]
    refine .object rfl fun key v hv => ?_
    obtain ⟨i, hi, hv⟩ := Option.bind_eq_some_iff.1 hv
    obtain ⟨e, he, rfl⟩ := Option.map_eq_some_iff.1 hv
    rw [← hc] at he
    obtain ⟨w, hwi, hstep⟩ := hread he
    refine covers_part h ho hk hu he hwi ?_
    have hkey : e.1 = .key key := by
      rw [List.findIdx?_eq_some_iff_getElem] at hi
      obtain ⟨hlt, hkey, _⟩ := hi
      rw [hc, List.getElem?_eq_getElem hlt] at he
      cases he
      simpa using hkey
    have hget := Occurrence.mem_get_contents hcomplete.visible hlen hstep
    rw [hkey, hcontents] at hget
    exact hget
  | array items shared =>
    have hparts : o.parts.length = items.length := by
      rw [hlen, hc]
      simp [Container.parts]
    have hcontents : o.contents = .array ⟨o.parts.foldl (fun r w => r.union (.single w)) .empty,
        false⟩ := by
      rw [Occurrence.contents, Occurrence.steps_array hc hparts, hc]
      exact Contents.fill_array
    rw [hcontents]
    refine .array rfl fun key v hv => ?_
    obtain ⟨i, _, hv⟩ := Option.bind_eq_some_iff.1 hv
    obtain ⟨e, he, rfl⟩ := Option.map_eq_some_iff.1 hv
    have hpart : o.container.parts[i]? = some (.any, e) := by
      simp [hc, Container.parts, he]
    obtain ⟨w, hwi, _⟩ := hread hpart
    refine covers_part h ho hk hu hpart hwi ?_
    exact (Contents.mem_foldl_union_single o.parts .empty).2 (.inr (List.mem_of_getElem? hwi))
  | keyedBy kind =>
    have hvisible := hcomplete.visible
    rw [hc] at hvisible
    cases hvisible

end

/-- A name of the globals is one of their entries. -/
theorem ofGlobals_cases (d : Dialect) (g : Graph) (entries : List (String × Datum))
    (declared : List String) (name : String) :
    (name ∉ entries.map (·.1) ∧ (Store.ofGlobals d g entries declared).globals name = .absent) ∨
    ∃ i e, entries[i]? = some e ∧ e.1 = name ∧
      (Store.ofGlobals d g entries declared).globals name =
        .bound (valueAt d g (.entry i) e.2) := by
  cases hi : entries.findIdx? fun e => e.1 = name with
  | none =>
    refine .inl ⟨fun hmem => ?_, ?_⟩
    · obtain ⟨e, he, heq⟩ := List.mem_map.1 hmem
      have := List.findIdx?_eq_none_iff.1 hi e he
      simp [heq] at this
    · simp [Store.ofGlobals, hi]
  | some i =>
    obtain ⟨hlt, hname, _⟩ := List.findIdx?_eq_some_iff_getElem.1 hi
    refine .inr ⟨i, entries[i], List.getElem?_eq_getElem hlt, by simpa using hname, ?_⟩
    simp [Store.ofGlobals, hi, hlt]

/-- An analysis that converted the globals and opened an empty frame for the program covers the
store that the globals describe. -/
theorem covering_ofGlobals {g : Graph} {entries : List (String × Datum)} {c' : Conversion}
    {made : List Occurrence} {values : List Value} (h : Exposure g entries .empty c' made values)
    (hn : (entries.map (·.1)).Nodup) (d : Dialect) (declared : List String) {a : State}
    {p frame : Nat} (hcontents : a.heap.contents = c'.heap.contents)
    (hprovenance : a.provenance = c'.provenance)
    (hframe : a.heap.frame frame = Host.frameOf ((entries.map (·.1)).zip values))
    (hprogram : a.heap.frame p = .empty) :
    Covering [] p frame (hostChart g entries c'.known made values) a
      (Store.ofGlobals d g entries declared) := by
  have hlen := h.length_values
  have hkeys : (((entries.map (·.1)).zip values).map (·.1)).Nodup := by
    rw [List.map_fst_zip (Nat.le_of_eq hlen)]
    exact hn
  refine ⟨?cells, ?owned, ?old, .nil, ?program, ?created, ?globals, ?named⟩
  case cells =>
    intro x u hu
    obtain ⟨k, hk, hu⟩ := hostChart_eq_some hu
    obtain ⟨o, ho, rfl, rfl⟩ := occurrence_of_hostValue h hk hu
    refine ⟨cellOf d g x o.container, o.contents, ?_, ?_, cellCovers_contents h d ho hk hu⟩
    · simp [Store.ofGlobals, hk]
    · rw [hcontents]
      exact (h.unfolds.complete o ho).held
  case owned =>
    intro x u hu _
    obtain ⟨k, hk, hu⟩ := hostChart_eq_some hu
    obtain ⟨o, ho, _, rfl⟩ := occurrence_of_hostValue h hk hu
    rw [hprovenance, Provenance.find?_isSome_iff, h.unfolds.entries]
    refine List.mem_map.2 ⟨(o.cell, o.path), List.mem_append_right _ ?_, rfl⟩
    exact List.mem_map_of_mem ho
  case old =>
    rintro _ u hu n rfl
    obtain ⟨k, hk, _⟩ := hostChart_eq_some hu
    cases hk
  case program =>
    intro name v hv
    simp only [Store.ofGlobals, Scope.declaring] at hv
    split at hv <;> cases hv
  case created =>
    intro name _ hne
    rw [hprogram] at hne
    exact absurd rfl hne
  case globals =>
    intro name v hv
    rcases ofGlobals_cases d g entries declared name with ⟨_, habs⟩ | ⟨i, e, he, rfl, hbound⟩
    · rw [habs] at hv
      cases hv
    · rw [hbound] at hv
      cases hv
      obtain ⟨hi, rfl⟩ := List.getElem?_eq_some_iff.1 he
      rw [List.length_map] at hlen
      have hvi : values[i]? = some values[i] := List.getElem?_eq_getElem (hlen ▸ hi)
      refine ⟨.single values[i], ?_, ?_⟩
      · rw [hframe]
        refine Host.find?_frameOf hkeys ?_
        rw [List.mem_iff_getElem]
        exact ⟨i, by simpa [hlen] using hi, by simp⟩
      · refine covers_valueAt (image_of_entry h he hvi) (Reference.mem_single.2 rfl) fun k hk => ?_
        have hat : containerAt g entries (.entry i) = some k := by
          simp only [containerAt, he, Option.bind_some, hk]
        exact (hostChart_of_container hat).trans hvi
  case named =>
    intro name habs
    rw [hframe]
    rcases ofGlobals_cases d g entries declared name with ⟨hnot, _⟩ | ⟨_, _, _, _, hbound⟩
    · cases hfind : (Host.frameOf ((entries.map (·.1)).zip values)).find? name with
      | none => rfl
      | some o =>
        have hmem := Frame.mem_bindings_of_find? hfind
        obtain ⟨b, hb, heq⟩ := List.mem_map.1 hmem
        cases heq
        exact absurd (List.of_mem_zip hb).1 hnot
    · rw [hbound] at habs
      cases habs

end Execution

/-! ## Programs -/

namespace Execution

/-- A computation of a program that is entered ends where it ends, back in the program before. -/
theorem inUnit_of_ok {α : Type} {setup : Setup} {unit : Nat} {x : Run α} {a a' : State} {r : α}
    (h : x setup { a with unit } = .ok r a') :
    Run.inUnit unit x setup a = .ok r { a' with unit := a.unit } := by
  show Run.restoring x _ setup { a with unit } = _
  rw [Run.restoring, h]

/-- The levels of an analysis are enough for each statement of the analyzed program. -/
theorem height_le_fuel {setup : Setup} {main : Prepared} (hmain : setup.programs[0]? = some main)
    {s : Stmt} (hs : s ∈ main.program.body) : (Node.stmt s).height ≤ setup.fuel := by
  have hchild : (Node.stmt s).height < (Node.program main.program.body).height :=
    Node.height_lt_of_mem_children (by simpa [Node.children] using hs)
  have hprogram : (Node.program main.program.body).height ≤ setup.height := by
    refine le_foldl_max (.inr (List.mem_map.2 ⟨main, ?_, rfl⟩))
    exact Array.mem_toList_iff.2 (Array.mem_of_getElem? hmain)
  have hfuel : setup.height + 16 ≤ setup.fuel := by
    refine Nat.le_mul_of_pos_left _ ?_
    omega
  omega

/-- The program itself and every block of it declare nothing on entry. -/
theorem emptyScope_of_core {setup : Setup} {main : Prepared}
    (hmain : setup.programs[0]? = some main) (hcore : ∀ s ∈ main.program.body, CoreStmt s)
    {start : Int}
    (hs : start = Hoisting.root ∨ ∃ s ∈ main.program.body, (Node.stmt s).Opens start) :
    EmptyScope setup start := by
  obtain ⟨t, ht, hv, hf⟩ :=
    Hoisting.find?_of_undeclaring (fun s hs => (hcore s hs).undeclaring) hs
  exact ⟨main, t, hmain, main.hoisting_eq ▸ ht, hv, hf⟩

/-- A run of the program covers every execution of it. -/
theorem runProgram_runs {setup : Setup} {main : Prepared} (hcancel : setup.canceled = false)
    (hmain : setup.programs[0]? = some main) (hcore : ∀ s ∈ main.program.body, CoreStmt s)
    {entries : List (String × Datum)} {c' : Conversion} {made : List Occurrence}
    {values : List Value} (h : Exposure setup.graph entries .empty c' made values)
    (hn : (entries.map (·.1)).Nodup) (d : Dialect) {a : State} {frame : Nat}
    (ha : Ready [frame] a) (hcontents : a.heap.contents = c'.heap.contents)
    (hprovenance : a.provenance = c'.provenance)
    (hframe : a.heap.frame frame = Host.frameOf ((entries.map (·.1)).zip values)) :
    ∃ r a', setup.evaluator.runProgram 0 [frame] setup a = .ok r a' ∧
      ∀ span ∈ (d.run setup.graph entries main.program.body).mutations, Reported a' span := by
  obtain ⟨t, htemplate, hv, hf⟩ :=
    template_eq (emptyScope_of_core hmain hcore (.inl rfl)) ha.plain
  have hinst := instantiate_eq setup hv hf [frame] a
  have hne : frame ≠ a.heap.frames.size := Nat.ne_of_lt (ha.exist frame (by simp))
  have hsim : ∀ s ∈ main.program.body,
      SimulatesStmt setup d a.heap.frames.size frame setup.evaluator s := by
    intro s hs
    refine (hcore s hs).simulates hcancel (fun start ho => ?_) (height_le_fuel hmain hs)
    exact emptyScope_of_core hmain hcore (.inr ⟨s, hs, ho⟩)
  obtain ⟨r, a', hwalk, _, hlead⟩ :=
    walkAll_runs hsim (main.program.body.length == 1) [] ha.addFrame
  refine ⟨r, { a' with unit := a.unit }, ?_, fun span hspan => ?_⟩
  · have hself : { a with unit := 0 } = a := by rw [← ha.plain.unit]
    refine inUnit_of_ok ?_
    rw [hself, Run.bind_of_ok htemplate, Run.bind_of_ok hinst, Run.read_bind, hmain]
    exact hwalk
  · have hcov : Covering [] a.heap.frames.size frame _ _ _ :=
      covering_ofGlobals h hn d (Dialect.declaredNames main.program.body)
        (a := { a with heap := (a.heap.addFrame .empty).2 }) hcontents hprovenance
        (by rw [Heap.frame_addFrame, if_neg hne]; exact hframe)
        (by rw [Heap.frame_addFrame, if_pos rfl])
    rcases (hlead _ _ hcov).reported span hspan with hnone | hrep
    · cases hnone
    · exact hrep

/-- An analysis may begin to run its program once the globals are converted. -/
theorem ready_withConversion {g : Graph} {entries : List (String × Datum)} {c' : Conversion}
    {made : List Occurrence} {values : List Value} (h : Exposure g entries .empty c' made values) :
    Ready [c'.heap.frames.size]
      (State.start.withConversion { c' with heap := Exposure.heap entries c' values }) := by
  refine ⟨⟨h.unfolds.closures, fun f b hb => ?_, rfl, rfl⟩, by simp, fun f hf => ?_⟩
  · have hframe : (Exposure.heap entries c' values).frame f = _ := Heap.frame_addFrame c'.heap _ f
    have hb' : b ∈ ((Exposure.heap entries c' values).frame f).bindings := hb
    rw [hframe] at hb'
    split at hb'
    · obtain ⟨e, _, rfl⟩ := List.mem_map.1 hb'
      exact ⟨_, rfl⟩
    · rw [Heap.frame, h.unfolds.frames] at hb'
      cases hb'
  · rw [List.mem_singleton.1 hf]
    simp [State.withConversion, Exposure.heap, Heap.addFrame]

end Execution

open Execution in
/-- An analysis of a program of the core against valid globals ends with a report. Whatever the
dialect, every node at which an execution of the program mutates the globals has a diagnostic of its
own, and the report keeps it or one that it meets. -/
theorem Setup.mutations_reported {setup : Setup} (hg : setup.graph.Grounded)
    (hcancel : setup.canceled = false) {main : Prepared} (hmain : setup.programs[0]? = some main)
    (hcore : ∀ s ∈ main.program.body, CoreStmt s) {globals : Datum}
    {entries : List (String × Datum)} (hr : setup.graph.globals globals = .ok entries)
    (d : Dialect) :
    ∃ report a, setup.analyze globals = (.ok report, a) ∧
      ∀ span ∈ (d.run setup.graph entries main.program.body).mutations,
        ∃ x ∈ a.diagnostics, x.span = span ∧ ∃ y ∈ report.diagnostics, x.conflicts y := by
  have hn := Graph.nodup_globals hr
  obtain ⟨c', made, values, h, heq⟩ := Conversion.exists_exposure hg (.empty setup.graph) hn
  have hnew := newGlobals_of_ok hr heq
  obtain ⟨a₁, hlog₁, hnotes₁⟩ := Run.log_eq setup .info (fun s => ("Starting analysis",
    [("globals", .ofNat (s.heap.frame c'.heap.frames.size).bindings.length),
     ("containers", .ofNat s.provenance.size),
     ("statements", .ofNat main.program.body.length)]))
    (State.start.withConversion { c' with heap := Exposure.heap entries c' values })
  have hready : Ready [c'.heap.frames.size] a₁ :=
    (ready_withConversion h).grown (.of_notes hnotes₁ : Grown 0 0 [] _ a₁)
  obtain ⟨r, a₂, hrun, hrep⟩ := runProgram_runs hcancel hmain hcore h hn d hready
    (by rw [hnotes₁.heap]; rfl) (by rw [hnotes₁.provenance]; rfl)
    (by rw [hnotes₁.heap]; exact Exposure.frame_heap)
  obtain ⟨a₃, hlog₂, hnotes₂⟩ := Run.log_eq setup .info (fun s => ("Analysis complete",
    [("raw", .ofNat s.diagnostics.size),
     ("diagnostics", .ofNat (Diagnostic.dedupe a₂.diagnostics.toList).length),
     ("warnings", .ofNat s.warnings.size), ("calls", .ofNat s.calls), ("elapsed", .elapsed)])) a₂
  have hreport : setup.report globals setup .start =
      .ok ⟨Diagnostic.dedupe a₂.diagnostics.toList, a₂.warnings.toList⟩ a₃ := by
    unfold Setup.report
    rw [hmain]
    refine (Run.bind_of_ok hnew).trans ((Run.bind_of_ok hlog₁).trans ?_)
    refine (Run.bind_of_ok hrun).trans ?_
    rw [Run.get_bind]
    exact Run.bind_of_ok hlog₂
  refine ⟨⟨Diagnostic.dedupe a₂.diagnostics.toList, a₂.warnings.toList⟩, a₃, ?_, fun span hs => ?_⟩
  · rw [Setup.analyze, Run.outcome, hreport]
  · obtain ⟨x, hx, hspan⟩ := hrep span hs
    have hkept : a₃.diagnostics = a₂.diagnostics := by
      have := hnotes₂.diagnostics
      rw [List.append_nil] at this
      exact Array.toList_inj.1 this
    refine ⟨x, hkept ▸ hx, hspan, ?_⟩
    exact Diagnostic.exists_conflicts_dedupe (Array.mem_toList_iff.2 hx)

open Execution in
/-- A dialect in which operators compute nothing. -/
def Execution.Dialect.plain : Dialect where
  scalar _ := .undefined
  bigInt _ := 0
  numeral := Number.Binary64.text
  numeral_ofNat _ hn := Number.Binary64.text_ofNat hn
  constant _ := none
  truthy _ := true
  unary _ _ _ := some .undefined
  binary _ _ _ _ := some .undefined
  step _ _ _ := some (.undefined, .undefined)
  template _ _ _ := some (.string "")
  property _ _ := some .undefined
  name _ _ := none
  length _ _ := none

/-- The statements of `const a = g; a.x = 1;`. -/
def aliasedWriteBody : List Stmt :=
  [.declareLexical ⟨0, 11⟩
    [.mk (.leaf (.identifier ⟨"a", ⟨6, 7⟩⟩)) (some (.identifier ⟨"g", ⟨10, 11⟩⟩))],
   .expression (.assign ⟨13, 20⟩ .plain
    (.leaf (.dot ⟨13, 16⟩ (.identifier ⟨"a", ⟨13, 14⟩⟩) "x")) (.number ⟨19, 20⟩ (some (.ofNat 1))))]

/-- The program `const a = g; a.x = 1;` against globals in which `g` is an empty object. -/
def aliasedWrite : Setup where
  options := .standard
  programs := #[.ofProgram ⟨"script", "const a = g; a.x = 1;", aliasedWriteBody⟩]
  graph := ⟨#[.object [("g", .container 1)] false, .object [] false]⟩
  resolver := none
  canceled := false

/-- The write through the alias is executed, and the analysis reports it. -/
theorem mutations_reported_aliasedWrite :
    (Execution.Dialect.plain.run aliasedWrite.graph [("g", .container 1)]
      aliasedWriteBody).mutations = [⟨13, 20⟩] ∧
    ∃ report a, aliasedWrite.analyze (.container 0) = (.ok report, a) ∧
      ∃ x ∈ a.diagnostics, x.span = ⟨13, 20⟩ ∧ ∃ y ∈ report.diagnostics, x.conflicts y := by
  have hcore : ∀ s ∈ aliasedWriteBody, Execution.CoreStmt s := by
    intro s hs
    simp only [aliasedWriteBody, List.mem_cons, List.not_mem_nil, or_false] at hs
    rcases hs with rfl | rfl
    · refine .declareLexical fun b hb => ?_
      rw [List.mem_singleton.1 hb]
      refine ⟨by decide, fun e he => ?_⟩
      cases he
      exact .identifier (by decide)
    · exact .expression (.assignMember rfl (.dot (by decide) (.identifier (by decide))) .number)
  have hmutations : (Execution.Dialect.plain.run aliasedWrite.graph [("g", .container 1)]
      aliasedWriteBody).mutations = [⟨13, 20⟩] := by decide +kernel
  have hsort : Graph.sortedEntries [("g", .container 1)] = [("g", .container 1)] := by
    simp [Graph.sortedEntries]
  have hglobals : aliasedWrite.graph.globals (.container 0) = .ok [("g", .container 1)] :=
    congrArg Except.ok hsort
  have hgrounded : aliasedWrite.graph.Grounded := Graph.grounded_of_shared (by decide)
  obtain ⟨report, a, heq, hrep⟩ := Setup.mutations_reported hgrounded rfl rfl hcore hglobals
    Execution.Dialect.plain
  refine ⟨hmutations, report, a, heq, hrep ⟨13, 20⟩ ?_⟩
  exact hmutations ▸ List.mem_singleton_self _

/-- The statements of `const r = /x/; r.a = g; r.a.b = 1;`. -/
def regExpWriteBody : List Stmt :=
  [.declareLexical ⟨0, 13⟩
    [.mk (.leaf (.identifier ⟨"r", ⟨6, 7⟩⟩)) (some (.regExp ⟨10, 13⟩))],
   .expression (.assign ⟨15, 22⟩ .plain
    (.leaf (.dot ⟨15, 18⟩ (.identifier ⟨"r", ⟨15, 16⟩⟩) "a")) (.identifier ⟨"g", ⟨21, 22⟩⟩)),
   .expression (.assign ⟨24, 33⟩ .plain
    (.leaf (.dot ⟨24, 29⟩ (.dot ⟨24, 27⟩ (.identifier ⟨"r", ⟨24, 25⟩⟩) "a") "b"))
    (.number ⟨32, 33⟩ (some (.ofNat 1))))]

/-- The program `const r = /x/; r.a = g; r.a.b = 1;` against globals in which `g` is an empty
object. -/
def regExpWrite : Setup :=
  { aliasedWrite with
    programs := #[.ofProgram ⟨"script", "const r = /x/; r.a = g; r.a.b = 1;", regExpWriteBody⟩] }

/-- An execution mutates `g` through a property of a regular expression, and the analysis reports
nothing. -/
theorem regExpWrite_unreported :
    (Execution.Dialect.plain.run regExpWrite.graph [("g", .container 1)]
      regExpWriteBody).mutations = [⟨24, 33⟩] ∧
    (regExpWrite.analyze (.container 0)).1 = .ok ⟨[], []⟩ := by
  decide +kernel

end FrozenGlobals
