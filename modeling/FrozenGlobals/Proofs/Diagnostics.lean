import FrozenGlobals.Diagnostic
import Mathlib.Data.List.Basic

/-!
# Which diagnostics are kept

Of diagnostics whose ranges meet, an analysis reports the first. Whether the diagnostic at a
position is kept depends on those at earlier positions only (`Diagnostic.keptAt_iff`), and
`Diagnostic.dedupe` puts the kept ones in order. `Diagnostic.dedupe_law` says what that means for
the input and for the output.
-/

namespace FrozenGlobals

open Script (Span)

namespace Script.Span

/-- A range ends before the other one begins, and lies before it also if both are empty. -/
structure Precedes (s o : Span) : Prop where
  stop_le : s.stop ≤ o.start
  before : s.start < o.start ∨ s.start = o.start ∧ s.stop < o.stop

/-- Ranges one behind the other have no byte in common. -/
theorem Precedes.disjoint {s o : Span} (h : s.Precedes o) : s.overlaps o = false := by
  have := h.stop_le
  simp only [overlaps, Bool.and_eq_false_iff, decide_eq_false_iff_not]
  omega

end Script.Span

namespace Diagnostic

/-! ## Conflicts -/

/-- A diagnostic meets itself. -/
theorem conflicts_self (d : Diagnostic) : d.conflicts d := by
  simp [conflicts, Span.contains]

/-- Meeting is symmetric. -/
theorem conflicts_comm (d e : Diagnostic) : d.conflicts e = e.conflicts d := by
  have hoverlaps : d.span.overlaps e.span = e.span.overlaps d.span := by
    rw [Bool.eq_iff_iff]
    simp only [Span.overlaps, Bool.and_eq_true, decide_eq_true_eq]
    omega
  simp only [conflicts, hoverlaps, Bool.or_assoc, Bool.or_comm (d.span.contains e.span)]

/-- Of two ranges that do not meet, the one that starts first ends before the other begins. -/
theorem precedes_of_not_conflicts {d e : Diagnostic} (hd : d.span.start ≤ d.span.stop)
    (he : e.span.start ≤ e.span.stop) (hbefore : before d e) (hconf : d.conflicts e = false) :
    d.span.Precedes e.span := by
  simp only [conflicts, Span.overlaps, Span.contains, Bool.or_eq_false_iff, Bool.and_eq_false_iff,
    decide_eq_false_iff_not] at hconf
  simp only [before, Bool.or_eq_true, Bool.and_eq_true, beq_iff_eq, decide_eq_true_eq] at hbefore
  constructor <;> omega

/-! ## Keeping the first -/

/-- What is kept stays kept. -/
theorem subset_keepFirst {ds kept : List Diagnostic} : kept ⊆ keepFirst kept ds := by
  induction ds generalizing kept with
  | nil => exact List.Subset.refl kept
  | cons d ds ih =>
    rw [keepFirst]
    split
    · exact ih
    · exact fun e he => ih (List.mem_append_left [d] he)

/-- A diagnostic is kept, or it meets one that is. -/
theorem exists_conflicts_keepFirst {ds : List Diagnostic} (kept : List Diagnostic) {d : Diagnostic}
    (h : d ∈ ds) :
    ∃ e ∈ keepFirst kept ds, d.conflicts e := by
  induction ds generalizing kept with
  | nil => cases h
  | cons d' ds ih =>
    rw [keepFirst]
    rcases List.mem_cons.1 h with rfl | h
    · by_cases hany : kept.any d.conflicts
      · obtain ⟨e, he, hconf⟩ := List.any_eq_true.1 hany
        rw [if_pos hany]
        exact ⟨e, subset_keepFirst he, hconf⟩
      · rw [if_neg hany]
        exact ⟨d, subset_keepFirst (List.mem_append_right kept (by simp)), d.conflicts_self⟩
    · exact ih _ h

/-- A diagnostic is reported, or it meets one that is. -/
theorem exists_conflicts_dedupe {ds : List Diagnostic} {d : Diagnostic} (h : d ∈ ds) :
    ∃ e ∈ dedupe ds, d.conflicts e := by
  obtain ⟨e, he, hconf⟩ := exists_conflicts_keepFirst [] h
  exact ⟨e, List.mem_mergeSort.2 he, hconf⟩

/-- Diagnostics in two lists are kept as those in one list after the other. -/
theorem keepFirst_append (kept ds es : List Diagnostic) :
    keepFirst kept (ds ++ es) = keepFirst (keepFirst kept ds) es := by
  induction ds generalizing kept with
  | nil => rfl
  | cons d ds ih => rw [List.cons_append, keepFirst, keepFirst, ih]

/-- Diagnostics that do not meet are all kept. -/
theorem keepFirst_of_pairwise {kept ds : List Diagnostic}
    (h : (kept ++ ds).Pairwise fun d e => d.conflicts e = false) :
    keepFirst kept ds = kept ++ ds := by
  induction ds generalizing kept with
  | nil => rw [keepFirst, List.append_nil]
  | cons d ds ih =>
    have hnone : kept.any d.conflicts = false := by
      refine List.any_eq_false.2 fun e he => ?_
      rw [conflicts_comm, (List.pairwise_append.1 h).2.2 e he d List.mem_cons_self]
      exact Bool.false_ne_true
    rw [keepFirst, hnone, if_neg Bool.false_ne_true, ih (by rwa [List.append_assoc]),
      List.append_assoc, List.singleton_append]

/-- No kept diagnostics meet. -/
theorem pairwise_keepFirst {kept : List Diagnostic} (ds : List Diagnostic)
    (h : kept.Pairwise fun d e => d.conflicts e = false) :
    (keepFirst kept ds).Pairwise fun d e => d.conflicts e = false := by
  induction ds generalizing kept with
  | nil => exact h
  | cons d ds ih =>
    rw [keepFirst]
    refine ih ?_
    split
    next => exact h
    next hnone =>
      refine List.pairwise_append.2 ⟨h, List.pairwise_singleton .., fun e he d' hd' => ?_⟩
      rw [List.mem_singleton.1 hd', conflicts_comm]
      exact Bool.not_eq_true _ ▸ List.any_eq_false.1 (Bool.not_eq_true _ ▸ hnone) e he

/-! ## Ranges -/

/-- Which ranges are kept does not depend on what else diagnostics say. -/
theorem spans_keepFirst {ds es : List Diagnostic} (h : ds.map (·.span) = es.map (·.span)) :
    ∀ {kept kept' : List Diagnostic}, kept.map (·.span) = kept'.map (·.span) →
      (keepFirst kept ds).map (·.span) = (keepFirst kept' es).map (·.span) := by
  induction ds generalizing es with
  | nil =>
    cases es with
    | nil => exact fun h => h
    | cons e es => cases h
  | cons d ds ih =>
    cases es with
    | nil => cases h
    | cons e es =>
      obtain ⟨hspan, hrest⟩ : d.span = e.span ∧ ds.map (·.span) = es.map (·.span) :=
        List.cons.inj h
      intro kept kept' hkept
      have hany : kept.any d.conflicts = kept'.any e.conflicts := by
        have hconflicts : ∀ (d : Diagnostic) (kept : List Diagnostic), kept.any d.conflicts =
            (kept.map (·.span)).any fun s => d.span.overlaps s || d.span.contains s ||
              s.contains d.span := by
          intro d kept
          rw [List.any_map]
          rfl
        rw [hconflicts, hconflicts, hkept, hspan]
      rw [keepFirst, keepFirst, hany]
      refine ih hrest ?_
      split
      · exact hkept
      · rw [List.map_append, List.map_append, hkept, List.map_singleton, List.map_singleton, hspan]

/-- Which ranges are kept depends on ranges only. -/
theorem spans_dedupe {ds es : List Diagnostic} (h : ds.map (·.span) = es.map (·.span)) :
    (dedupe ds).map (·.span) = (dedupe es).map (·.span) := by
  have hsort : ∀ kept : List Diagnostic, (kept.mergeSort before).map (·.span) =
      (kept.map (·.span)).mergeSort fun s t =>
        s.start < t.start || (s.start == t.start && s.stop ≤ t.stop) :=
    fun kept => List.map_mergeSort fun d _ e _ => rfl
  unfold dedupe
  rw [hsort, hsort, spans_keepFirst h rfl]

/-! ## Positions -/

/-- Whether the diagnostic at a position is kept. -/
def keptAt (ds : List Diagnostic) (i : Nat) : Bool :=
  ds[i]?.any fun d => !(keepFirst [] (ds.take i)).any d.conflicts

variable {ds : List Diagnostic}

/-- One more diagnostic is kept or dropped without a change to those kept before. -/
theorem keepFirst_take_succ {i : Nat} {d : Diagnostic} (hd : ds[i]? = some d) :
    keepFirst [] (ds.take (i + 1)) =
      keepFirst [] (ds.take i) ++ if keptAt ds i then [d] else [] := by
  rw [List.take_add_one, hd, keepFirst_append, keptAt, hd]
  simp only [Option.toList, keepFirst, Option.any_some]
  split <;> simp_all

/-- Diagnostics kept so far stand at earlier positions. -/
theorem mem_keepFirst_take {i : Nat} {e : Diagnostic} :
    e ∈ keepFirst [] (ds.take i) ↔ ∃ j < i, keptAt ds j ∧ ds[j]? = some e := by
  induction i with
  | zero => simp [keepFirst]
  | succ i ih =>
    have hsplit : (∃ j < i + 1, keptAt ds j ∧ ds[j]? = some e) ↔
        (∃ j < i, keptAt ds j ∧ ds[j]? = some e) ∨ keptAt ds i ∧ ds[i]? = some e := by
      constructor
      · rintro ⟨j, hj, h⟩
        rcases Nat.lt_succ_iff_lt_or_eq.1 hj with hj | rfl
        · exact .inl ⟨j, hj, h⟩
        · exact .inr h
      · rintro (⟨j, hj, h⟩ | h)
        · exact ⟨j, Nat.lt_succ_of_lt hj, h⟩
        · exact ⟨i, Nat.lt_succ_self i, h⟩
    rw [hsplit, ← ih]
    cases hd : ds[i]? with
    | none =>
      rw [List.take_add_one, hd]
      simp [keptAt, hd]
    | some d =>
      rw [keepFirst_take_succ hd, List.mem_append]
      cases keptAt ds i <;> simp [eq_comm]

/-- A diagnostic is kept unless it meets one that is kept and stands before it. -/
theorem keptAt_iff {i : Nat} {d : Diagnostic} (hd : ds[i]? = some d) :
    keptAt ds i ↔ ∀ j < i, ∀ e, keptAt ds j → ds[j]? = some e → d.conflicts e = false := by
  have hkept : keptAt ds i ↔ ∀ e ∈ keepFirst [] (ds.take i), d.conflicts e = false := by
    simp [keptAt, hd]
  rw [hkept]
  simp only [mem_keepFirst_take]
  exact ⟨fun h j hj e hk he => h e ⟨j, hj, hk, he⟩, fun h e ⟨j, hj, hk, he⟩ => h j hj e hk he⟩

/-- The diagnostics at kept positions, in the order of the input. -/
theorem keepFirst_eq_filter (ds : List Diagnostic) :
    keepFirst [] ds = (ds.zipIdx.filter fun p => keptAt ds p.2).map (·.1) := by
  have htake : ∀ i, keepFirst [] (ds.take i) =
      ((ds.zipIdx.take i).filter fun p => keptAt ds p.2).map (·.1) := by
    intro i
    induction i with
    | zero => rfl
    | succ i ih =>
      rw [List.take_add_one (l := ds.zipIdx), List.getElem?_zipIdx, Nat.zero_add]
      cases hd : ds[i]? with
      | none =>
        rw [List.take_add_one, hd]
        simpa using ih
      | some d =>
        rw [keepFirst_take_succ hd, ih, List.filter_append, List.map_append]
        cases hk : keptAt ds i <;> simp [hk]
  have hall := htake ds.length
  rwa [List.take_length, List.take_of_length_le (Nat.le_of_eq List.length_zipIdx)] at hall

/-! ## Order -/

/-- Reported diagnostics are those kept, in another order. -/
theorem perm_dedupe (ds : List Diagnostic) : (dedupe ds).Perm (keepFirst [] ds) :=
  List.mergeSort_perm ..

/-- Diagnostics are reported in order of their ranges. -/
theorem pairwise_before_dedupe (ds : List Diagnostic) :
    (dedupe ds).Pairwise fun d e => before d e := by
  refine List.pairwise_mergeSort (fun a b c hab hbc => ?_) (fun a b => ?_) _
  · simp only [before, Bool.or_eq_true, Bool.and_eq_true, beq_iff_eq, decide_eq_true_eq] at *
    omega
  · simp only [before, Bool.or_eq_true, Bool.and_eq_true, beq_iff_eq, decide_eq_true_eq]
    omega

/-- No two diagnostics that are reported meet. -/
theorem pairwise_conflicts_dedupe (ds : List Diagnostic) :
    (dedupe ds).Pairwise fun d e => d.conflicts e = false :=
  ((perm_dedupe ds).pairwise_iff fun h => (conflicts_comm ..).trans h).2
    (pairwise_keepFirst ds .nil)

/-- Reported ranges stand one behind the other. -/
theorem pairwise_precedes_dedupe (h : ∀ d ∈ ds, d.span.start ≤ d.span.stop) :
    (dedupe ds).Pairwise fun d e => d.span.Precedes e.span := by
  have hmem : ∀ d ∈ dedupe ds, d ∈ ds := by
    intro d hd
    rw [(perm_dedupe ds).mem_iff, keepFirst_eq_filter] at hd
    obtain ⟨⟨d, i⟩, hp, rfl⟩ := List.mem_map.1 hd
    exact List.fst_mem_of_mem_zipIdx (List.mem_of_mem_filter hp)
  refine ((pairwise_before_dedupe ds).and (pairwise_conflicts_dedupe ds)).imp_of_mem ?_
  rintro d e hd he ⟨hbefore, hconf⟩
  exact precedes_of_not_conflicts (h d (hmem d hd)) (h e (hmem e he)) hbefore hconf

/-- What is reported stays as it is. -/
theorem dedupe_dedupe (ds : List Diagnostic) : dedupe (dedupe ds) = dedupe ds := by
  have hkeep : keepFirst [] (dedupe ds) = dedupe ds :=
    keepFirst_of_pairwise (pairwise_conflicts_dedupe ds)
  rw [dedupe, hkeep]
  exact List.mergeSort_of_pairwise (pairwise_before_dedupe ds)

/-- Of the diagnostics of an analysis, those at some positions are reported, each once and nothing
else: exactly those that do not meet a reported one at an earlier position, among them the first.
The reported ranges are disjoint and stand one behind the other, and to report them again changes
nothing. -/
theorem dedupe_law (ds : List Diagnostic) (h : ∀ d ∈ ds, d.span.start ≤ d.span.stop) :
    (∃ kept : Nat → Bool,
      (dedupe ds).Perm ((ds.zipIdx.filter fun p => kept p.2).map (·.1)) ∧
      ∀ i d, ds[i]? = some d →
        (kept i ↔ ∀ j < i, ∀ e, kept j → ds[j]? = some e → d.conflicts e = false)) ∧
    ((dedupe ds).Pairwise fun d e =>
      d.span.overlaps e.span = false ∧ d.span.Precedes e.span) ∧
    (∀ d ∈ ds.head?, d ∈ dedupe ds) ∧
    (dedupe ds = [] ↔ ds = []) ∧
    dedupe (dedupe ds) = dedupe ds := by
  have hfirst : ∀ d ∈ ds.head?, d ∈ dedupe ds := by
    cases ds with
    | nil => exact nofun
    | cons d rest =>
      intro _ hd
      obtain rfl := Option.some.inj hd
      rw [(perm_dedupe _).mem_iff, keepFirst]
      exact subset_keepFirst List.mem_cons_self
  refine ⟨⟨keptAt ds, ?_, fun i d => keptAt_iff⟩, ?_, hfirst, ⟨fun hnil => ?_, ?_⟩,
    dedupe_dedupe ds⟩
  · exact keepFirst_eq_filter ds ▸ perm_dedupe ds
  · exact (pairwise_precedes_dedupe h).imp fun hp => ⟨hp.disjoint, hp⟩
  · cases ds with
    | nil => rfl
    | cons d rest =>
      have hd := hfirst d rfl
      rw [hnil] at hd
      cases hd
  · rintro rfl
    exact List.mergeSort_nil

/-- Of five diagnostics, the second meets the first, and the last one the third, which is empty. -/
theorem dedupe_law_meeting :
    let ds : List Diagnostic := [⟨"a", ⟨4, 9⟩, "g"⟩, ⟨"b", ⟨6, 12⟩, "h"⟩, ⟨"c", ⟨2, 2⟩, ""⟩,
      ⟨"d", ⟨9, 12⟩, "h"⟩, ⟨"e", ⟨0, 2⟩, "g"⟩]
    (∀ d ∈ ds, d.span.start ≤ d.span.stop) ∧
    (dedupe ds).map (·.message) = ["c", "a", "d"] ∧ dedupe (dedupe ds) = dedupe ds ∧
    (dedupe ds).Pairwise fun d e => d.span.overlaps e.span = false ∧ d.span.Precedes e.span := by
  intro ds
  have h : ∀ d ∈ ds, d.span.start ≤ d.span.stop := by decide
  obtain ⟨-, hpairwise, -, -, hagain⟩ := dedupe_law ds h
  have hkept : keepFirst [] ds = [⟨"a", ⟨4, 9⟩, "g"⟩, ⟨"c", ⟨2, 2⟩, ""⟩, ⟨"d", ⟨9, 12⟩, "h"⟩] := by
    decide
  refine ⟨h, ?_, hagain, hpairwise⟩
  rw [dedupe, hkept]
  simp [List.mergeSort, List.MergeSort.Internal.splitInTwo, before]

end Diagnostic

end FrozenGlobals
