import FrozenGlobals.Proofs.Host.Pairs

/-!
# Globals with an entry left out

Containers are found under the first path that leads to them, so the paths of globals may change if
one entry is left out: if it holds shared containers that others hold, too. If it holds none of
them, nothing is found under another path (`Unfolded.Paired.path_eq_of_apart`): the traversal of the
other entries does not meet what the traversal of the one entered (`Traversal.visits_filter`).
-/

namespace FrozenGlobals.Host

/-- Data holds a container, directly or further inside. -/
inductive Graph.Holds (g : Graph) : Datum → Nat → Prop
  | self (id : Nat) : Holds g (.container id) id
  | part {id inner : Nat} {k : Container} {s : Segment} {d : Datum} : g.find? id = some k →
      (s, d) ∈ k.parts → Holds g d inner → Holds g (.container id) inner

/-- The data of an entry shares no container with that of the others. -/
def Graph.Apart (g : Graph) (entries : List (String × Datum)) (name : String) : Prop :=
  ∀ e ∈ entries, e.1 = name → ∀ e' ∈ entries, e'.1 ≠ name → ∀ id, g.Shares id = true →
    g.Holds e.2 id → ¬ g.Holds e'.2 id

namespace Traversal

variable {g : Graph} {seen seen' : List Nat} {pending : List (Path × Datum)}
  {out out' : List (Nat × Path)}

/-- Only what the data holds is met. -/
theorem holds_of_mem (h : Traversal g seen pending out) {e : Nat × Path} (he : e ∈ out) :
    ∃ p ∈ pending, g.Holds p.2 e.1 := by
  induction h with
  | done => cases he
  | scalar _ _ ih | hidden _ _ ih | again _ _ ih =>
    obtain ⟨p, hp, hholds⟩ := ih he
    exact ⟨p, List.mem_cons_of_mem _ hp, hholds⟩
  | @enter _ q id k rest _ hk _ _ _ ih =>
    rcases List.mem_cons.1 he with rfl | he
    · exact ⟨_, List.mem_cons_self, .self id⟩
    · obtain ⟨p, hp, hholds⟩ := ih he
      rcases List.mem_append.1 hp with hp | hp
      · obtain ⟨part, hpart, rfl⟩ := List.mem_map.1 hp
        exact ⟨_, List.mem_cons_self, .part hk hpart hholds⟩
      · exact ⟨p, List.mem_cons_of_mem _ hp, hholds⟩

/-- Of what was entered before, only that matters which the data holds. -/
theorem congr (h : Traversal g seen pending out)
    (hseen : ∀ id, (∃ p ∈ pending, g.Holds p.2 id) → (id ∈ seen' ↔ id ∈ seen)) :
    Traversal g seen' pending out := by
  induction h generalizing seen' with
  | done => exact .done
  | scalar hd _ ih => exact .scalar hd (ih fun id ⟨p, hp, h⟩ => hseen id ⟨p, .tail _ hp, h⟩)
  | hidden hid _ ih => exact .hidden hid (ih fun id ⟨p, hp, h⟩ => hseen id ⟨p, .tail _ hp, h⟩)
  | @again _ _ id _ _ hid _ ih =>
    exact .again ((hseen id ⟨_, .head _, .self id⟩).2 hid)
      (ih fun id ⟨p, hp, h⟩ => hseen id ⟨p, .tail _ hp, h⟩)
  | @enter seen q id k rest _ hk hv hid _ ih =>
    refine .enter hk hv (fun hmem => hid ((hseen id ⟨_, .head _, .self id⟩).1 hmem)) (ih ?_)
    rintro other ⟨p, hp, hholds⟩
    have hother : other ∈ seen' ↔ other ∈ seen := by
      refine hseen other ?_
      rcases List.mem_append.1 hp with hp | hp
      · obtain ⟨part, hpart, rfl⟩ := List.mem_map.1 hp
        exact ⟨_, .head _, .part hk hpart hholds⟩
      · exact ⟨p, .tail _ hp, hholds⟩
    split
    · rw [List.mem_cons, List.mem_cons, hother]
    · exact hother

/-- A traversal takes one course. -/
theorem deterministic (h : Traversal g seen pending out) (h' : Traversal g seen pending out') :
    out = out' := by
  induction h generalizing out' with
  | done => cases h'; rfl
  | scalar hd _ ih =>
    cases h' with
    | scalar _ h' => exact ih h'
    | hidden _ h' | again _ h' => exact ih h'
    | enter => exact absurd rfl (hd _)
  | hidden hid _ ih =>
    cases h' with
    | scalar hd => exact absurd rfl (hd _)
    | hidden _ h' | again _ h' => exact ih h'
    | enter hk hv => rw [hid _ hk] at hv; cases hv
  | again hid _ ih =>
    cases h' with
    | scalar hd => exact absurd rfl (hd _)
    | hidden _ h' | again _ h' => exact ih h'
    | enter _ _ hnot => exact absurd hid hnot
  | enter hk hv hnot _ ih =>
    cases h' with
    | scalar hd => exact absurd rfl (hd _)
    | hidden hid => rw [hid _ hk] at hv; cases hv
    | again hid => exact absurd hid hnot
    | enter hk' _ _ h' =>
      obtain rfl := Option.some.inj (hk.symm.trans hk')
      rw [ih h']

/-- A traversal of data after data. The shared containers that the first part met are entered when
the second one starts. -/
theorem split {first second : List (Path × Datum)} (h : Traversal g seen (first ++ second) out) :
    ∃ out₁ out₂ seen₁, Traversal g seen first out₁ ∧ Traversal g seen₁ second out₂ ∧
      out = out₁ ++ out₂ ∧
      ∀ id, id ∈ seen₁ ↔ id ∈ seen ∨ g.Shares id = true ∧ id ∈ out₁.map (·.1) := by
  generalize hpending : first ++ second = pending at h
  induction h generalizing first with
  | @done seen =>
    obtain ⟨rfl, rfl⟩ := List.append_eq_nil_iff.1 hpending
    exact ⟨[], [], seen, .done, .done, rfl, by simp⟩
  | scalar hd h ih =>
    rcases first with _ | ⟨e, first⟩
    · obtain rfl : second = _ := hpending
      exact ⟨[], _, _, .done, .scalar hd h, rfl, by simp⟩
    · obtain ⟨rfl, hrest⟩ := List.cons.inj hpending
      obtain ⟨out₁, out₂, seen₁, h₁, h₂, rfl, hseen⟩ := ih hrest
      exact ⟨out₁, out₂, seen₁, .scalar hd h₁, h₂, rfl, hseen⟩
  | hidden hid h ih =>
    rcases first with _ | ⟨e, first⟩
    · obtain rfl : second = _ := hpending
      exact ⟨[], _, _, .done, .hidden hid h, rfl, by simp⟩
    · obtain ⟨rfl, hrest⟩ := List.cons.inj hpending
      obtain ⟨out₁, out₂, seen₁, h₁, h₂, rfl, hseen⟩ := ih hrest
      exact ⟨out₁, out₂, seen₁, .hidden hid h₁, h₂, rfl, hseen⟩
  | again hid h ih =>
    rcases first with _ | ⟨e, first⟩
    · obtain rfl : second = _ := hpending
      exact ⟨[], _, _, .done, .again hid h, rfl, by simp⟩
    · obtain ⟨rfl, hrest⟩ := List.cons.inj hpending
      obtain ⟨out₁, out₂, seen₁, h₁, h₂, rfl, hseen⟩ := ih hrest
      exact ⟨out₁, out₂, seen₁, .again hid h₁, h₂, rfl, hseen⟩
  | @enter _ q id k _ _ hk hv hnot h ih =>
    rcases first with _ | ⟨e, first⟩
    · obtain rfl : second = _ := hpending
      exact ⟨[], _, _, .done, .enter hk hv hnot h, rfl, by simp⟩
    · obtain ⟨rfl, hrest⟩ := List.cons.inj hpending
      obtain ⟨out₁, out₂, seen₁, h₁, h₂, rfl, hseen⟩ :=
        @ih (k.parts.map (fun e => (q.child e.1, e.2)) ++ first)
          (by rw [List.append_assoc]; exact congrArg _ hrest)
      refine ⟨(id, q) :: out₁, out₂, seen₁, .enter hk hv hnot h₁, h₂, rfl, fun other => ?_⟩
      have hshare : g.Shares id = k.isShared := by simp [Graph.Shares, hk]
      rw [hseen other, List.map_cons, List.mem_cons]
      by_cases heq : other = id
      · subst heq
        rw [hshare]
        cases k.isShared <;> simp
      · cases k.isShared <;> simp [heq]

/-- Without an entry that shares no container with the others, the others are met as before. -/
theorem visits_filter {entries : List (String × Datum)} {name : String}
    (hn : (entries.map (·.1)).Nodup) (ha : g.Apart entries name)
    (h : Traversal g [] (entries.map fun e => ([.key e.1], e.2)) out)
    (h' : Traversal g [] ((entries.filter (·.1 ≠ name)).map fun e => ([.key e.1], e.2)) out') :
    out' ⊆ out := by
  by_cases hname : name ∈ entries.map (·.1)
  · obtain ⟨e, he, rfl⟩ := List.mem_map.1 hname
    obtain ⟨before, after, rfl⟩ := List.append_of_mem he
    have hne : ∀ f ∈ before ++ after, f.1 ≠ e.1 := by
      rw [List.map_append, List.map_cons, List.nodup_middle, ← List.map_append,
        List.nodup_cons] at hn
      exact fun f hf heq => hn.1 (heq ▸ List.mem_map_of_mem hf)
    have hfilter : (before ++ e :: after).filter (·.1 ≠ e.1) = before ++ after := by
      rw [List.filter_append, List.filter_cons_of_neg (by simp), ← List.filter_append]
      exact List.filter_eq_self.2 fun f hf => decide_eq_true (hne f hf)
    rw [hfilter, List.map_append] at h'
    rw [List.map_append, List.map_cons] at h
    obtain ⟨out₁, outs, seen₁, h₁, hrest, rfl, hseen₁⟩ := h.split
    obtain ⟨out₀, out₂, seen₂, h₀, h₂, rfl, hseen₂⟩ :=
      @split _ _ _ [([.key e.1], e.2)] _ hrest
    obtain ⟨out₁', out₂', seen₁', h₁', h₂', rfl, hseen₁'⟩ := h'.split
    obtain rfl := h₁.deterministic h₁'
    -- what the entry adds to what was entered does not matter to the entries after it
    have hafter : Traversal g seen₂ (after.map fun e => ([.key e.1], e.2)) out₂' := by
      refine h₂'.congr fun id hid => ?_
      rw [hseen₂, hseen₁, hseen₁', or_iff_left_iff_imp]
      rintro ⟨hs, hmem⟩
      obtain ⟨p, hp, hholds⟩ := hid
      obtain ⟨f, hf, rfl⟩ := List.mem_map.1 hp
      obtain ⟨met, hmet, rfl⟩ := List.mem_map.1 hmem
      obtain ⟨q, hq, hheld⟩ := h₀.holds_of_mem hmet
      obtain rfl := List.mem_singleton.1 hq
      have hf' : f ∈ before ++ after := List.mem_append_right _ hf
      exact absurd hholds (ha e he rfl f (by simp_all) (hne f hf') _ hs hheld)
    obtain rfl := h₂.deterministic hafter
    exact List.append_subset.2 ⟨List.subset_append_left _ _,
      List.Subset.trans (List.subset_append_right _ _) (List.subset_append_right _ _)⟩
  · have hfilter : entries.filter (·.1 ≠ name) = entries :=
      List.filter_eq_self.2 fun e he => decide_eq_true fun heq =>
        hname (heq ▸ List.mem_map_of_mem he)
    rw [hfilter] at h'
    rw [h.deterministic h']
    exact List.Subset.refl _

end Traversal

/-- Without an entry that shares no container with the others, nothing that both expose is found
under another path. -/
theorem Unfolded.Paired.path_eq_of_apart {g : Graph} {entries : List (String × Datum)}
    {name : String} {X : Unfolded g entries} {Y : Unfolded g (entries.filter (·.1 ≠ name))}
    (hn : (entries.map (·.1)).Nodup) (ha : g.Apart entries name) {v v' : Value}
    (h : Paired X Y v v') :
    Y.conversion.provenance.find? v' = X.conversion.provenance.find? v := by
  refine h.path_eq fun o ho o' ho' hid hs => ?_
  have hmem := Traversal.visits_filter hn ha X.visits Y.visits (List.mem_map_of_mem ho')
  obtain ⟨p, hp, heq⟩ := List.mem_map.1 hmem
  obtain ⟨hpid, hpath⟩ := Prod.mk.inj heq
  rw [← hpath, X.eq_of_shares hp ho (hpid.trans hid) (hpid.trans hid ▸ hs)]

end FrozenGlobals.Host
