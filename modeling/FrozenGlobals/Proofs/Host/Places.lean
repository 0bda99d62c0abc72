import FrozenGlobals.Proofs.Host.Globals
import Mathlib.Data.List.Nodup

/-!
# Where cells stand

A container that is shared becomes one cell, wherever it occurs. One that is copied becomes a cell
at each place where it occurs, so its cell stands at one place only: `Settled` says so, and
`ConvertsAll.settled` that every conversion of globals is settled. The cells of shared containers
are those that are known in the end.
-/

namespace FrozenGlobals

/-! ## Places in lists -/

section
variable {α β : Type} [DecidableEq α]

/-- What occurs once stands at one place. -/
theorem getElem?_inj_of_count {l : List α} {a : α} (h : l.count a ≤ 1) {i j : Nat}
    (hi : l[i]? = some a) (hj : l[j]? = some a) : i = j := by
  induction l generalizing i j with
  | nil => cases hi
  | cons b l ih =>
    have hrest : ∀ k : Nat, l[k]? = some a → 1 ≤ l.count a := fun k hk =>
      List.one_le_count_iff.2 (List.mem_of_getElem? hk)
    rw [List.count_cons] at h
    cases i with
    | zero =>
      cases j with
      | zero => rfl
      | succ j =>
        obtain rfl := Option.some.inj hi
        have := hrest j hj
        simp at h
        omega
    | succ i =>
      cases j with
      | zero =>
        obtain rfl := Option.some.inj hj
        have := hrest i hi
        simp at h
        omega
      | succ j => rw [ih (by omega) hi hj]

/-- What occurs once in several lists occurs once in one of them, and in no other. -/
theorem eq_of_count_flatMap {l : List β} {f : β → List α} {a : α}
    (h : (l.flatMap f).count a ≤ 1) {b b' : β} (hb : b ∈ l) (ha : a ∈ f b) (hb' : b' ∈ l)
    (ha' : a ∈ f b') : b = b' ∧ (f b).count a ≤ 1 := by
  induction l with
  | nil => cases hb
  | cons c l ih =>
    rw [List.flatMap_cons, List.count_append] at h
    have hrest : ∀ d ∈ l, a ∈ f d → 1 ≤ (l.flatMap f).count a := fun d hd had =>
      List.one_le_count_iff.2 (List.mem_flatMap.2 ⟨d, hd, had⟩)
    have hhead : a ∈ f c → 1 ≤ (f c).count a := List.one_le_count_iff.2
    rcases List.mem_cons.1 hb with heq | hbl
    · subst heq
      rcases List.mem_cons.1 hb' with rfl | hbl'
      · exact ⟨rfl, by omega⟩
      · have := hrest b' hbl' ha'
        have := hhead ha
        omega
    · rcases List.mem_cons.1 hb' with heq | hbl'
      · subst heq
        have := hrest b hbl ha
        have := hhead ha'
        omega
      · exact ih (by omega) hbl hbl'

end

theorem exists_of_mem_right {α β : Type} {R : α → β → Prop} {l : List α} {l' : List β}
    (h : List.Forall₂ R l l') {b : β} (hb : b ∈ l') : ∃ a ∈ l, R a b := by
  induction h with
  | nil => cases hb
  | cons hr _ ih =>
    rcases List.mem_cons.1 hb with rfl | hb
    · exact ⟨_, List.mem_cons_self, hr⟩
    · obtain ⟨a, ha, hr⟩ := ih hb
      exact ⟨a, List.mem_cons_of_mem _ ha, hr⟩

namespace Host

/-- The values at all places of a conversion: what its data became, and what the parts of the
containers became that it met. -/
def standing (made : List Occurrence) (values : List Value) : List Value :=
  values ++ made.flatMap Occurrence.parts

/-- The cells of copied containers stand at one place, and those of shared ones are known. -/
structure Settled (g : Graph) (c : Conversion) (made : List Occurrence) (values : List Value) :
    Prop where
  once : ∀ o ∈ made, g.Shares o.id = false → (standing made values).count o.cell ≤ 1
  named : ∀ o ∈ made, g.Shares o.id → c.known.lookup o.id = some o.cell

namespace Conversion

variable {g : Graph} {c c₁ c₂ : Conversion} {filling : Option Value}

/-- A container that stands somewhere was met, or was known before. -/
theorem Unfolds.met_or_known {made : List Occurrence} (hu : Unfolds g filling c c₁ made)
    {data : List Datum} {values : List Value}
    (hi : List.Forall₂ (Image g c₁.known made) data values) {v : Value}
    (hv : v ∈ standing made values) (hc : v.isContainer) :
    v ∈ made.map (·.cell) ∨ v ∈ c.known.map (·.2) := by
  obtain ⟨d, hd⟩ : ∃ d, Image g c₁.known made d v := by
    rcases List.mem_append.1 hv with hv | hv
    · obtain ⟨d, -, hd⟩ := exists_of_mem_right hi hv
      exact ⟨d, hd⟩
    · obtain ⟨o, ho, hv⟩ := List.mem_flatMap.1 hv
      obtain ⟨d, -, hd⟩ := exists_of_mem_right (hu.complete o ho).images hv
      exact ⟨d, hd⟩
  cases hd with
  | scalar _ | hidden _ => cases hc
  | shared _ hl =>
    have hmem := mem_of_lookup hl
    rw [hu.known, List.mem_append, List.mem_reverse, List.mem_map] at hmem
    rcases hmem with ⟨o, ho, heq⟩ | hmem
    · cases heq
      exact .inl (List.mem_map_of_mem (List.mem_filter.1 ho).1)
    · exact .inr (List.mem_map.2 ⟨_, hmem, rfl⟩)
  | copied _ ho => exact .inl (List.mem_map_of_mem ho)

theorem Unfolds.isContainer_cell {made : List Occurrence} (hu : Unfolds g filling c c₁ made)
    {o : Occurrence} (ho : o ∈ made) : o.cell.isContainer :=
  Heap.isContainer_of_contents (hu.complete o ho).held

theorem Unfolds.eq_of_cell {made : List Occurrence} (hu : Unfolds g filling c c₁ made)
    {o p : Occurrence} (ho : o ∈ made) (hp : p ∈ made) (h : o.cell = p.cell) : o = p :=
  List.inj_on_of_nodup_map hu.distinct ho hp h

/-- What is known exists. -/
theorem Sound.isSome_of_known (hc : c.Sound g) {v : Value} (hv : v ∈ c.known.map (·.2)) :
    (c.heap.contents v).isSome := by
  obtain ⟨e, he, rfl⟩ := List.mem_map.1 hv
  obtain ⟨_, hmem⟩ := hc.known e he
  obtain ⟨e', he', heq⟩ := List.mem_map.1 hmem
  exact heq ▸ hc.entries e' he'

end Conversion

namespace Settled

open Conversion

variable {g : Graph} {c c₁ c₂ : Conversion} {filling : Option Value}

theorem nil (g : Graph) (c : Conversion) (values : List Value) : Settled g c [] values :=
  ⟨fun _ h => (List.not_mem_nil h).elim, fun _ h => (List.not_mem_nil h).elim⟩

/-- Parts of a conversion that follow each other. No cell that is copied in one of them stands at a
place of the other. -/
theorem append {made₁ made₂ : List Occurrence} {values₁ values₂ : List Value}
    {data₁ data₂ : List Datum} (hc : c.Sound g) (hu₁ : Unfolds g filling c c₁ made₁)
    (hu₂ : Unfolds g filling c₁ c₂ made₂)
    (hi₁ : List.Forall₂ (Image g c₁.known made₁) data₁ values₁)
    (hi₂ : List.Forall₂ (Image g c₂.known made₂) data₂ values₂)
    (h₁ : Settled g c₁ made₁ values₁) (h₂ : Settled g c₂ made₂ values₂) :
    Settled g c₂ (made₁ ++ made₂) (values₁ ++ values₂) := by
  have hcount : ∀ v, (standing (made₁ ++ made₂) (values₁ ++ values₂)).count v =
      (standing made₁ values₁).count v + (standing made₂ values₂).count v := by
    intro v
    simp only [standing, List.flatMap_append, List.count_append]
    omega
  constructor
  · intro o ho hs
    rw [hcount]
    rcases List.mem_append.1 ho with ho | ho
    · have hnot : o.cell ∉ standing made₂ values₂ := by
        intro hmem
        rcases hu₂.met_or_known hi₂ hmem (hu₁.isContainer_cell ho) with hmem | hmem
        · obtain ⟨p, hp, heq⟩ := List.mem_map.1 hmem
          have hfresh := hu₂.fresh p hp
          rw [heq, (hu₁.complete o ho).held] at hfresh
          cases hfresh
        · rw [hu₁.known, List.map_append, List.mem_append, List.map_reverse, List.mem_reverse,
            List.map_map, List.mem_map] at hmem
          rcases hmem with ⟨p, hp, heq⟩ | hmem
          · obtain ⟨hp, hshared⟩ := List.mem_filter.1 hp
            obtain rfl := hu₁.eq_of_cell hp ho heq
            rw [hs] at hshared
            cases hshared
          · have hsome := hc.isSome_of_known hmem
            rw [hu₁.fresh o ho] at hsome
            cases hsome
      rw [List.count_eq_zero.2 hnot]
      exact h₁.once o ho hs
    · have hnot : o.cell ∉ standing made₁ values₁ := by
        intro hmem
        have hsome : (c₁.heap.contents o.cell).isSome := (hu₁.allocated _).2
          ((hu₁.met_or_known hi₁ hmem (hu₂.isContainer_cell ho)).symm.imp_left hc.isSome_of_known)
        rw [hu₂.fresh o ho] at hsome
        cases hsome
      rw [List.count_eq_zero.2 hnot, Nat.zero_add]
      exact h₂.once o ho hs
  · intro o ho hs
    rcases List.mem_append.1 ho with ho | ho
    · exact hu₂.keeps _ _ (h₁.named o ho hs)
    · exact h₂.named o ho hs

/-- A container and what its parts became. -/
theorem container {made : List Occurrence} {values : List Value} {p : Path} {id : Nat}
    {k : Container} (hc : c.Sound g) (hk : g.find? id = some k) (hv : k.isVisible)
    (h : Done g (.parts (c.enter k id p).1 p k.parts) (c.enter k id p).1 (c.enter k id p).2 c₁ made
      values) (hs : Settled g c₁ made values) :
    Settled g c₁ (⟨id, k, p, (c.enter k id p).1, values⟩ :: made) [(c.enter k id p).1] := by
  have hfresh := enter_fresh hv c id p
  have hcont := enter_contents hv c id p
  have hknown := enter_known hv c id p
  have hshare : g.Shares id = k.isShared := by simp [Graph.Shares, hk]
  have hnot : ∀ o ∈ made, o.cell ≠ (c.enter k id p).1 := by
    intro o ho heq
    have := h.unfolds.fresh o ho
    rw [heq, hcont, if_pos rfl] at this
    cases this
  have hcount : ∀ v, (standing (⟨id, k, p, (c.enter k id p).1, values⟩ :: made)
      [(c.enter k id p).1]).count v =
        (standing made values).count v + if (c.enter k id p).1 = v then 1 else 0 := by
    intro v
    simp [standing, List.count_cons]
  constructor
  · rintro o (_ | ⟨_, ho⟩) hcopied
    · have hnone : (c.enter k id p).1 ∉ standing made values := by
        intro hmem
        have hcell : (c.enter k id p).1.isContainer := by
          have hblank := hcont (c.enter k id p).1
          rw [if_pos rfl] at hblank
          exact Heap.isContainer_of_contents hblank
        rcases h.unfolds.met_or_known h.images hmem hcell with hmem | hmem
        · obtain ⟨o, ho, heq⟩ := List.mem_map.1 hmem
          exact hnot o ho heq
        · have hcopy : k.isShared = false := hshare ▸ hcopied
          rw [hknown, hcopy] at hmem
          have hsome := hc.isSome_of_known hmem
          rw [hfresh] at hsome
          cases hsome
      simp [hcount, List.count_eq_zero.2 hnone]
    · rw [hcount, if_neg (hnot o ho).symm]
      exact hs.once o ho hcopied
  · rintro o (_ | ⟨_, ho⟩) hshared
    · refine h.unfolds.keeps _ _ ?_
      have hcopy : k.isShared = true := hshare ▸ hshared
      rw [hknown, if_pos hcopy, List.lookup_cons, beq_self_eq_true]
    · exact hs.named o ho hshared

end Settled

/-- Every task that is done is settled. -/
theorem Conversion.Converts.settled {g : Graph} {c c' : Conversion} {t : Task} {v : Value}
    (h : Converts g c t v c') (hc : c.Sound g)
    (ha : ∀ w, t.filling = some w → (c.heap.contents w).isSome) :
    ∃ made values, Done g t v c c' made values ∧ Settled g c' made values := by
  induction h with
  | @scalar c _ _ hd => exact ⟨_, _, .leaf (.scalar hd) fun _ _ => .scalar hd, .nil g c _⟩
  | @known c p id v hl =>
    have hmem := mem_of_lookup hl
    exact ⟨_, _, .leaf (.shared (hc.known _ hmem).1 hl) fun _ _ =>
      .again (List.mem_map.2 ⟨_, hmem, rfl⟩), .nil g c _⟩
  | @hidden c _ _ _ hid => exact ⟨_, _, .leaf (.hidden hid) fun _ _ => .hidden hid, .nil g c _⟩
  | @container c p id k c' hn hk hv _ ih =>
    obtain ⟨made, values, hd, hs⟩ := ih (hc.enter hk hv p) fun w hw => by
      cases hw
      rw [enter_contents hv, if_pos rfl]
      rfl
    exact ⟨_, _, hd.container hc hn hk hv, .container hc hk hv hd hs⟩
  | @nil c v p =>
    obtain ⟨k, hk⟩ := Option.isSome_iff_exists.1 (ha v rfl)
    exact ⟨[], [], ⟨.refl g _ c, .nil, fun _ h => (List.not_mem_nil h).elim, fun _ _ h => h,
      by simp [Task.Yields, hk]⟩, .nil g c _⟩
  | @cons c v p s d rest w c₁ c₂ _ _ ih₁ ih₂ =>
    have hv := ha v rfl
    obtain ⟨made₁, values₁, hd₁, hs₁⟩ := ih₁ hc fun _ h => by cases h
    have hu : Unfolds g (some v) c (c₁.write v s.toKey w) made₁ := by
      simpa using (hd₁.unfolds.weaken (some v)).trans (.write g c₁ v s.toKey w) fun u hu => by
        cases hu
        exact hv
    obtain ⟨made₂, values₂, hd₂, hs₂⟩ := ih₂ (hu.sound hc) fun u hw => by
      cases hw
      exact (hu.allocated v).2 (.inl hv)
    have hw : values₁ = [w] := hd₁.yields
    subst hw
    refine ⟨_, _, .cons hv hd₁ hd₂, Settled.append hc hu hd₂.unfolds hd₁.images hd₂.images ?_ hs₂⟩
    exact ⟨hs₁.once, hs₁.named⟩

/-- Every conversion of globals is settled. -/
theorem ConvertsAll.settled {g : Graph} {c c' : Conversion} {entries : List (String × Datum)}
    {values : List Value} (h : ConvertsAll g c entries values c') (hc : c.Sound g) :
    ∃ made, Exposure g entries c c' made values ∧ Settled g c' made values := by
  induction h with
  | nil => exact ⟨[], .nil g _, .nil g _ _⟩
  | cons hconv _ ih =>
    obtain ⟨made₁, values₁, hd, hs⟩ := hconv.settled hc fun _ h => by cases h
    obtain ⟨made₂, he, hs₂⟩ := ih (hd.unfolds.sound hc)
    have hv : values₁ = _ := hd.yields
    subst hv
    exact ⟨_, .cons hconv hd he,
      Settled.append hc hd.unfolds he.unfolds hd.images he.images hs hs₂⟩

end Host

end FrozenGlobals
