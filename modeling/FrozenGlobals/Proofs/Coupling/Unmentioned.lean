import FrozenGlobals.Proofs.Coupling.Twins
import FrozenGlobals.Proofs.Diagnostics
import FrozenGlobals.Proofs.Host.Withheld

/-!
# Globals that are not mentioned

A global that a program does not mention should make no difference to its analysis. It makes none to
the failure the analysis ends with, to its warnings and to where its diagnostics stand; and none to
their messages and paths either, if the global shares no container with the others:
`Setup.analyze_unmentioned`.
-/

namespace FrozenGlobals

open Run
open Script (Span Node Expr Stmt Hoisting)

/-! ## Globals before an analysis -/

theorem Naming.Lawful.held_fill {M : Naming} (hM : M.Lawful) {c c' : Contents}
    {values values' : List Value} (h : M.Held c c') (hv : List.Forall₂ M.value values values')
    (segments : List Segment) :
    M.Held (c.fill (segments.zip values)) (c'.fill (segments.zip values')) := by
  induction hv generalizing c c' segments with
  | nil => simpa using h
  | cons hv _ ih =>
    cases segments with
    | nil => exact h
    | cons s segments => exact ih (hM.held_set h s.toKey (refs_single hv)) segments

namespace Host.Unfolded

variable {g : Graph} {entries entries' : List (String × Datum)}

/-- What is known of values when globals were converted. -/
def content (X : Unfolded g entries) : Content :=
  (State.start.withConversion { X.conversion with
    heap := Exposure.heap entries X.conversion X.values }).content

/-- The names of the globals. -/
abbrev frame (X : Unfolded g entries) : Frame := frameOf ((entries.map (·.1)).zip X.values)

theorem map_fst_frame (X : Unfolded g entries) :
    ((entries.map (·.1)).zip X.values).map (·.1) = entries.map (·.1) :=
  List.map_fst_zip (Nat.le_of_eq X.exposure.length_values)

/-- There is one frame to begin with. -/
theorem find?_frame (X : Unfolded g entries) (f : Nat) (name : String) :
    (X.content.heap.frame f).find? name = if f = 0 then X.frame.find? name else none := by
  have hframes : X.conversion.heap.frames = #[] := X.exposure.unfolds.frames
  show ((X.conversion.heap.addFrame X.frame).2.frame f).find? name = _
  rw [Heap.frame_addFrame, hframes]
  show (if f = 0 then X.frame else X.conversion.heap.frame f).find? name = _
  split
  · rfl
  · rw [Heap.frame, hframes]
    rfl

/-- A global is bound to the value it became. -/
theorem exists_value (X : Unfolded g entries) (hn : (entries.map (·.1)).Nodup) {name : String}
    {d : Datum} (h : (name, d) ∈ entries) : ∃ (i : Nat) (v : Value), entries[i]? = some (name, d) ∧
      X.values[i]? = some v ∧ X.frame.find? name = some (.known (.single v)) := by
  obtain ⟨i, hi⟩ := List.mem_iff_getElem?.1 h
  have hname : (entries.map (·.1))[i]? = some name := by rw [List.getElem?_map, hi]; rfl
  obtain ⟨hlt, -⟩ := List.getElem?_eq_some_iff.1 hname
  obtain ⟨v, hv⟩ : ∃ v, X.values[i]? = some v :=
    ⟨_, List.getElem?_eq_getElem (X.exposure.length_values ▸ hlt)⟩
  refine ⟨i, v, hi, hv, find?_frameOf (by rwa [X.map_fst_frame]) ?_⟩
  exact List.mem_of_getElem? (List.getElem?_zip_eq_some.2 ⟨hname, hv⟩)

/-- No other names are bound. -/
theorem find?_eq_none (X : Unfolded g entries) {name : String}
    (h : ∀ d, (name, d) ∉ entries) : X.frame.find? name = none := by
  refine Option.not_isSome_iff_eq_none.1 fun hsome => ?_
  have hmem := Frame.find?_isSome_iff.1 hsome
  rw [frame, frameOf, List.map_map] at hmem
  obtain ⟨e, he, rfl⟩ := List.mem_map.1 (X.map_fst_frame ▸ hmem)
  exact h e.2 he

/-- Globals are converted to begin with. -/
theorem exists_newGlobals {setup : Setup} {root : Datum} (hg : setup.graph.Grounded)
    (hroot : setup.graph.globals root = .ok entries) :
    ∃ X : Unfolded setup.graph entries, newGlobals root setup .start =
      .ok 0 (State.start.withConversion { X.conversion with
        heap := Exposure.heap entries X.conversion X.values }) := by
  obtain ⟨c, made₀, values, hexposure, hframe⟩ :=
    Conversion.exists_exposure hg (.empty _) (Graph.nodup_globals hroot)
  obtain ⟨made, hexposure, hsettled⟩ := hexposure.converts.settled (.empty _)
  refine ⟨⟨c, made, values, hexposure, hsettled⟩, ?_⟩
  have hstart : State.start.conversion = Conversion.empty := rfl
  have hframes : c.heap.frames.size = 0 := by
    rw [hexposure.unfolds.frames]
    rfl
  rw [newGlobals_eq, hroot]
  dsimp only
  rw [hstart, hframe, hframes]

/-- The cells that common entries became. -/
def pairing (X : Unfolded g entries) (Y : Unfolded g entries') (hn : (entries.map (·.1)).Nodup)
    (hn' : (entries'.map (·.1)).Nodup) : Pairing X.conversion Y.conversion
      (∀ v v', Paired X Y v v' →
        Y.conversion.provenance.find? v' = X.conversion.provenance.find? v) where
  pairs := Paired X Y
  kind h := h.kind
  unique h hu := h.unique hn hn' hu
  left h := by
    obtain ⟨o, ho, -, -, rfl, -⟩ := h.exists_occurrences
    rw [X.find?_cell ho]
    rfl
  right h := by
    obtain ⟨-, -, o', ho', -, rfl, -⟩ := h.exists_occurrences
    rw [Y.find?_cell ho']
    rfl
  path hexact h := hexact _ _ h
  recorded := X.sound.entries
  recorded' := Y.sound.entries

/-! ### Contents at the start -/

section
variable {X : Unfolded g entries} {Y : Unfolded g entries'} {hn : (entries.map (·.1)).Nodup}
  {hn' : (entries'.map (·.1)).Nodup} {setup : Setup} {hidden : String}

/-- What one datum became in both are twins. -/
theorem twin_of_alike {v v' : Value}
    (h : (v' = v ∧ v.isContainer = false) ∨ Paired X Y v v') : (X.pairing Y hn hn').Twin v v' := by
  rcases h with ⟨rfl, hc⟩ | h
  · exact .same hc
  · exact .old h

/-- Paired cells are filled alike. -/
theorem held_contents {o o' : Occurrence} (ho : o ∈ X.made) (ho' : o' ∈ Y.made)
    (h : Paired X Y o.cell o'.cell) :
    ((X.pairing Y hn hn').naming setup hidden).Held o.contents o'.contents := by
  have hblank : ((X.pairing Y hn hn').naming setup hidden).Held o.container.blank
      o.container.blank := by
    cases o.container with
    | array _ _ => exact .array false .nil
    | object _ _ | keyedBy _ => exact .object Naming.Lawful.cells_empty
  have hparts : List.Forall₂ (X.pairing Y hn hn').Twin o.parts o'.parts :=
    (Paired.parts_alike ho ho' h).imp fun v v' => twin_of_alike
  unfold Occurrence.contents Occurrence.steps
  rw [Paired.container_eq ho ho' (Paired.id_eq ho ho' h)]
  exact Pairing.lawful_naming.held_fill hblank hparts _

theorem alike_content
    (hentries : ∀ e : String × Datum, e.1 ≠ hidden → (e ∈ entries ↔ e ∈ entries')) :
    (X.pairing Y hn hn').Alike setup hidden X.content Y.content where
  objects := ⟨0, rfl, rfl⟩
  arrays := ⟨0, rfl, rfl⟩
  functions := by
    show Y.conversion.heap.closures.size = X.conversion.heap.closures.size
    rw [X.exposure.unfolds.closures, Y.exposure.unfolds.closures]
  frames := by
    show (Y.conversion.heap.frames.push _).size = (X.conversion.heap.frames.push _).size
    rw [Array.size_push, Array.size_push, X.exposure.unfolds.frames, Y.exposure.unfolds.frames]
  held {v v'} h := by
    show Option.Rel _ (X.conversion.heap.contents v) (Y.conversion.heap.contents v')
    have hnone : ∀ {h : Heap} {v : Value}, v.isContainer = false → h.contents v = none := by
      rintro h (_ | _ | _ | _ | _ | _) hv <;> first | rfl | cases hv
    cases h with
    | same hv =>
      rw [hnone hv, hnone hv]
      exact .none
    | old h =>
      obtain ⟨o, ho, o', ho', rfl, rfl, -⟩ := Paired.exists_occurrences h
      rw [(X.complete ho).held, (Y.complete ho').held]
      exact .some (held_contents ho ho' h)
    | object k =>
      rw [Heap.contents_object_add, Heap.contents_object_add]
      exact .none
    | array k =>
      rw [Heap.contents_array_add, Heap.contents_array_add]
      exact .none
  closures id := by
    show Option.Rel _ X.conversion.heap.closures[id]? Y.conversion.heap.closures[id]?
    rw [X.exposure.unfolds.closures, Y.exposure.unfolds.closures]
    exact .none
  bindings f name hname := by
    rw [X.find?_frame, Y.find?_frame]
    split
    · by_cases hd : ∃ d, (name, d) ∈ entries
      · obtain ⟨d, hd⟩ := hd
        obtain ⟨i, v, hi, hv, hfind⟩ := X.exists_value hn hd
        obtain ⟨i', v', hi', hv', hfind'⟩ := Y.exists_value hn' ((hentries _ hname).1 hd)
        rw [hfind, hfind']
        refine .some (.known (.cons (twin_of_alike ?_) .nil))
        rcases alike_of_image (X.image_entry hi hv) (Y.image_entry hi' hv') with h |
          ⟨o, ho, -, -, hcell, -⟩
        · exact .inl h
        · exact .inr (.entry hi hv hi' hv' (hcell ▸ X.isContainer_cell ho))
      · rw [X.find?_eq_none fun d h => hd ⟨d, h⟩,
          Y.find?_eq_none fun d h => hd ⟨d, (hentries _ hname).2 h⟩]
        exact .none
    · exact .none
  thrown := .nil
  provenance := ⟨rfl, rfl⟩
  diagnostics := ⟨rfl, fun _ => rfl⟩
  warnings := rfl

end

end Host.Unfolded

/-! ## Analyses -/

namespace Setup

/-- A global that the program does not mention makes no difference to the failure the analysis ends
with, or to its warnings and the ranges of its diagnostics; and to no part of the diagnostics if it
shares no container with the other globals. -/
theorem analyze_unmentioned {setup : Setup} {root root' : Host.Datum} {name : String}
    {entries : List (String × Host.Datum)} (hg : setup.graph.Grounded)
    (hresolver : setup.resolver = none)
    (hname : ∀ p, setup.programs[0]? = some p →
      name ∉ (Node.program p.program.body).identifiers)
    (hroot : setup.graph.globals root = .ok entries)
    (hroot' : setup.graph.globals root' = .ok (entries.filter (·.1 ≠ name))) :
    ((∃ f, (setup.analyze root).1 = .error f ∧ (setup.analyze root').1 = .error f) ∨
      ∃ r r', (setup.analyze root).1 = .ok r ∧ (setup.analyze root').1 = .ok r' ∧
        r'.warnings = r.warnings ∧ r'.diagnostics.map (·.span) = r.diagnostics.map (·.span)) ∧
    (setup.graph.Apart entries name → (setup.analyze root').1 = (setup.analyze root).1) := by
  have hn := Host.Graph.nodup_globals hroot
  have hn' := Host.Graph.nodup_globals hroot'
  obtain ⟨X, hX⟩ := Host.Unfolded.exists_newGlobals hg hroot
  obtain ⟨Y, hY⟩ := Host.Unfolded.exists_newGlobals hg hroot'
  have hentries : ∀ e : String × Host.Datum, e.1 ≠ name →
      (e ∈ entries ↔ e ∈ entries.filter (·.1 ≠ name)) := by
    intro e he
    simp [he]
  have hstart : ((X.pairing Y hn hn').matching setup name).coupling.Ends 0 () (fun _ f f' => f' = f)
      (newGlobals root setup .start) (newGlobals root' setup .start) := by
    rw [hX, hY]
    exact ⟨(), trivial, ⟨Host.Unfolded.alike_content hentries, ⟨rfl, rfl, rfl, rfl, rfl, rfl, rfl,
      rfl, rfl⟩⟩, rfl, rfl⟩
  have hclear : ∀ p, setup.programs[0]? = some p →
      ((X.pairing Y hn hn').matching setup name).clear 0 (.program p.program.body) :=
    fun p hp => ⟨hname p hp, hname⟩
  rw [analyze_eq, analyze_eq]
  rcases (Pairing.lawful hresolver).ends (n := setup.fuel) hstart hclear with
    ⟨f, h, h'⟩ | ⟨c, c', hc, h, h'⟩
  · rw [h, h']
    exact ⟨.inl ⟨f, rfl, rfl⟩, fun _ => rfl⟩
  · obtain ⟨hspans, hexact⟩ := hc.diagnostics
    rw [h, h']
    have hwarnings : c'.warnings.toList = c.warnings.toList := congrArg Array.toList hc.warnings
    refine ⟨.inr ⟨_, _, rfl, rfl, hwarnings, Diagnostic.spans_dedupe ?_⟩, fun ha => ?_⟩
    · rw [← Array.toList_map, ← Array.toList_map, hspans]
    · rw [Content.report, Content.report, hwarnings, hexact fun v v' h => h.path_eq_of_apart hn ha]

end Setup

/-- The program `h.x = 1;`, with data for two sets of globals: one with `g` and `h`, and one without
`g`. -/
def unmentioned : Setup where
  options := Options.standard
  programs := #[.ofProgram ⟨"script", "h.x = 1;",
    [.expression (.assign ⟨0, 7⟩ .plain (.leaf (.dot ⟨0, 3⟩ (.identifier ⟨"h", ⟨0, 1⟩⟩) "x"))
      (.number ⟨6, 7⟩ (some (.ofNat 1))))]⟩]
  graph := ⟨#[.object [("g", .container 2), ("h", .container 3)] false,
    .object [("h", .container 3)] false, .object [] false, .array [] false]⟩
  resolver := none
  canceled := false

/-- An object and an empty array share no container. -/
theorem apart_unmentioned :
    unmentioned.graph.Apart [("g", .container 2), ("h", .container 3)] "g" := by
  have hself : ∀ {id inner : Nat}, id = 2 ∨ id = 3 →
      unmentioned.graph.Holds (.container id) inner → inner = id := by
    intro id inner hid h
    cases h with
    | self => rfl
    | part hk hmem _ =>
      have hparts : (unmentioned.graph.find? id).map Host.Container.parts = some [] := by
        rcases hid with rfl | rfl
        · decide +kernel
        · rfl
      rw [hk] at hparts
      rw [Option.some.inj hparts] at hmem
      cases hmem
  intro e he hname e' he' hname' id _ hid hid'
  obtain rfl : e = ("g", .container 2) := by
    rcases List.mem_cons.1 he with rfl | he
    · rfl
    · obtain rfl := List.mem_singleton.1 he
      exact absurd hname (by decide)
  obtain rfl : e' = ("h", .container 3) := by
    rcases List.mem_cons.1 he' with rfl | he'
    · exact absurd rfl hname'
    · exact List.mem_singleton.1 he'
  have hid := hself (.inl rfl) hid
  have hid' := hself (.inr rfl) hid'
  omega

theorem analyze_unmentioned_object :
    let entries : List (String × Host.Datum) := [("g", .container 2), ("h", .container 3)]
    unmentioned.graph.Grounded ∧ unmentioned.resolver = none ∧
    (∀ p, unmentioned.programs[0]? = some p → "g" ∉ (Node.program p.program.body).identifiers) ∧
    unmentioned.graph.globals (.container 0) = .ok entries ∧
    unmentioned.graph.globals (.container 1) = .ok (entries.filter (·.1 ≠ "g")) ∧
    unmentioned.graph.Apart entries "g" ∧
    (unmentioned.analyze (.container 1)).1 = (unmentioned.analyze (.container 0)).1 ∧
    (unmentioned.analyze (.container 1)).1.toOption =
      some ⟨[⟨"Cannot assign to property of global value h", ⟨0, 7⟩, "h"⟩], []⟩ := by
  have hg : unmentioned.graph.Grounded := Host.Graph.grounded_of_shared (by decide)
  have hname : ∀ p, unmentioned.programs[0]? = some p →
      "g" ∉ (Node.program p.program.body).identifiers := by
    intro p hp
    obtain rfl := Option.some.inj hp
    decide +kernel
  have hroot : unmentioned.graph.globals (.container 0) =
      .ok [("g", .container 2), ("h", .container 3)] :=
    congrArg Except.ok (by simp [Host.Graph.sortedEntries, List.mergeSort])
  have hroot' : unmentioned.graph.globals (.container 1) = .ok [("h", .container 3)] := by
    decide +kernel
  exact ⟨hg, rfl, hname, hroot, hroot', apart_unmentioned,
    (Setup.analyze_unmentioned hg rfl hname hroot hroot').2 apart_unmentioned, by decide +kernel⟩

end FrozenGlobals
