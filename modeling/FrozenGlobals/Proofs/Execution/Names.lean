import FrozenGlobals.Proofs.Analysis.Writing
import FrozenGlobals.Proofs.Execution.Core
import FrozenGlobals.Proofs.Execution.Covering

/-!
# Names

What a name stands for in an execution is among what it stands for in an analysis that covers it
(`Covering.owner?_of_find`), and a name written by both is covered again (`Covering.assign`). A name
that is a global in the execution is found in the frame of the globals by the analysis, which
reports the write.
-/

namespace FrozenGlobals

namespace Heap

/-- Frames that do not bind a name are passed over. -/
theorem owner?_append {h : Heap} {name : String} {fs : List Nat}
    (hn : ∀ f ∈ fs, (h.frame f).find? name = none) (rest : List Nat) :
    h.owner? (fs ++ rest) name = h.owner? rest name := by
  have hnone : fs.find? (fun id => ((h.frame id).find? name).isSome) = none := by
    rw [List.find?_eq_none]
    intro f hf
    rw [hn f hf]
    simp
  rw [owner?, List.find?_append, hnone, Option.none_or]
  rfl

/-- The innermost frame that binds a name owns it. -/
theorem owner?_cons_of_isSome {h : Heap} {name : String} {f : Nat}
    (hf : ((h.frame f).find? name).isSome) (rest : List Nat) :
    h.owner? (f :: rest) name = some f := by
  rw [owner?, List.find?_cons, hf]

/-- What a name is bound to is found in the frame that owns it. -/
theorem lookup?_of_owner? {h : Heap} {stack : Stack} {name : String} {f : Nat}
    (ho : h.owner? stack name = some f) : h.lookup? stack name = (h.frame f).find? name := by
  induction stack with
  | nil => cases ho
  | cons f' stack ih =>
    rw [owner?, List.find?_cons] at ho
    rw [lookup?, List.findSome?_cons]
    cases hf : (h.frame f').find? name with
    | some o =>
      simp only [hf, Option.isSome_some] at ho
      cases ho
      exact hf.symm
    | none =>
      simp only [hf, Option.isSome_none] at ho
      exact ih ho

/-- A name has a binding exactly if a frame owns it. -/
theorem lookup?_eq_none_iff {h : Heap} {stack : Stack} {name : String} :
    h.lookup? stack name = none ↔ h.owner? stack name = none := by
  simp [lookup?, owner?]

/-- A name without an owner is bound in none of the frames. -/
theorem find?_of_owner?_none {h : Heap} {stack : Stack} {name : String}
    (ho : h.owner? stack name = none) : ∀ f ∈ stack, (h.frame f).find? name = none := by
  intro f hf
  have := List.find?_eq_none.1 ho f hf
  simpa using this

/-- A name bound in the frame that owns it, or in any frame if none does, is found there. -/
theorem lookup?_define {h : Heap} {stack : Stack} {name : String} {f : Nat} (o : Operand)
    (hf : f ∈ stack) (ho : ∀ f', h.owner? stack name = some f' → f' = f)
    (hlt : f < h.frames.size) : (h.define f name o).lookup? stack name = some o := by
  induction stack with
  | nil => cases hf
  | cons f' stack ih =>
    rw [lookup?, List.findSome?_cons, frame_define]
    by_cases heq : f' = f
    · rw [if_pos ⟨heq, hlt⟩, Frame.find?_define, if_pos rfl]
    · have hnone : (h.frame f').find? name = none := by
        cases hb : (h.frame f').find? name with
        | none => rfl
        | some o' => exact absurd (ho f' (owner?_cons_of_isSome (by simp [hb]) stack)) heq
      have hpass : h.owner? (f' :: stack) name = h.owner? stack name :=
        owner?_append (by simpa using hnone : ∀ f ∈ [f'], (h.frame f).find? name = none) stack
      rw [if_neg fun hand => heq hand.1, hnone]
      rw [hpass] at ho
      exact ih ((List.mem_cons.1 hf).resolve_left (Ne.symm heq)) ho

end Heap

namespace Execution

open Script (Span)

/-- A name that is declared and initialized has a value. -/
theorem Slot.exists_of_ne {s : Slot} (ha : s ≠ .absent) (hp : s ≠ .pending) :
    ∃ v, s = .bound v := by
  cases s with
  | absent => exact absurd rfl ha
  | pending => exact absurd rfl hp
  | bound v => exact ⟨v, rfl⟩

/-- Scopes are searched from the innermost on. -/
theorem slotIn_append (name : String) (l l' : List Scope) :
    Store.slotIn name (l ++ l') =
      if Store.slotIn name l = .absent then Store.slotIn name l' else Store.slotIn name l := by
  induction l with
  | nil => rfl
  | cons scope l ih =>
    simp only [List.cons_append, Store.slotIn]
    by_cases h : scope name = .absent
    · simp [h, ih]
    · simp [h]

section
variable {bs : List Nat} {p g : Nat} {m : Chart} {a a' : State} {c : Store} {name : String}

/-- Blocks without a name have frames without it. -/
theorem find?_of_slotIn_absent {scopes : List Scope} {h : Heap}
    (hb : List.Forall₂ (fun f scope => BlockCovers m (h.frame f) scope) bs scopes)
    (habs : Store.slotIn name scopes = .absent) : ∀ f ∈ bs, (h.frame f).find? name = none := by
  induction hb with
  | nil => nofun
  | @cons f scope bs scopes hd _ ih =>
    rw [Store.slotIn] at habs
    by_cases hs : scope name = .absent
    · rw [if_pos hs] at habs
      intro f' hf'
      rcases List.mem_cons.1 hf' with rfl | hf'
      · exact hd.2 name hs
      · exact ih habs f' hf'
    · rw [if_neg hs] at habs
      exact absurd habs hs

/-- The block that gives a name its value has a frame that owns the name. -/
theorem owner?_of_slotIn_bound {scopes : List Scope} {h : Heap} {v : Val}
    (hb : List.Forall₂ (fun f scope => BlockCovers m (h.frame f) scope) bs scopes)
    (hv : Store.slotIn name scopes = .bound v) (rest : List Nat) :
    ∃ f r, h.owner? (bs ++ rest) name = some f ∧ (h.frame f).find? name = some (.known r) ∧
      Covers m r v := by
  induction hb with
  | nil => cases hv
  | @cons f scope bs scopes hd _ ih =>
    rw [Store.slotIn] at hv
    by_cases hs : scope name = .absent
    · rw [if_pos hs] at hv
      obtain ⟨f', r, ho, hr⟩ := ih hv
      refine ⟨f', r, ?_, hr⟩
      have hnone : ∀ f'' ∈ [f], (h.frame f'').find? name = none := by
        simpa using hd.2 name hs
      exact (Heap.owner?_append hnone (bs ++ rest)).trans ho
    · rw [if_neg hs] at hv
      obtain ⟨r, hr, hc⟩ := hd.1 name v hv
      exact ⟨f, r, Heap.owner?_cons_of_isSome (by simp [hr]) (bs ++ rest), hr, hc⟩

/-- A name that is found in the blocks, in the program, or in the globals. -/
theorem find_eq (c : Store) (name : String) :
    c.find name = if Store.slotIn name c.blocks = .absent then
        if c.program name = .absent then c.globals name else c.program name
      else Store.slotIn name c.blocks := by
  rw [Store.find, slotIn_append]
  by_cases hp : c.program name = .absent
  · by_cases hg : c.globals name = .absent
    · simp [Store.slotIn, hp, hg]
    · simp [Store.slotIn, hp, hg]
  · simp [Store.slotIn, hp]

/-- A name is a global if neither blocks nor the program declare it. -/
theorem isGlobal_iff {c : Store} : c.isGlobal name = true ↔
    Store.slotIn name c.blocks = .absent ∧ c.program name = .absent ∧
      c.globals name ≠ .absent := by
  rw [Store.isGlobal, slotIn_append]
  by_cases hb : Store.slotIn name c.blocks = .absent <;>
    by_cases hp : c.program name = .absent <;> simp [Store.slotIn, hb, hp]

/-- The frame that owns a global seen from a place. -/
theorem Covering.owner?_global (h : Covering bs p g m a c)
    (hb : Store.slotIn name c.blocks = .absent) (hp : c.program name = .absent)
    (hg : ((a.heap.frame g).find? name).isSome) :
    a.heap.owner? (bs ++ [p, g]) name = some g := by
  rw [Heap.owner?_append (find?_of_slotIn_absent h.blocks hb)]
  have hpn : ∀ f ∈ [p], (a.heap.frame f).find? name = none := by
    intro f hf
    rw [List.mem_singleton.1 hf]
    cases hpn : (a.heap.frame p).find? name with
    | none => rfl
    | some o =>
      rw [h.created name hp (by rw [hpn]; nofun)] at hg
      cases hg
  exact (Heap.owner?_append hpn [g]).trans (Heap.owner?_cons_of_isSome hg [])

/-- The analysis finds a global of an execution in the frame of the globals. -/
theorem Covering.owner?_of_isGlobal (h : Covering bs p g m a c) {v : Val}
    (hv : c.find name = .bound v) (hglob : c.isGlobal name) :
    a.heap.owner? (bs ++ [p, g]) name = some g := by
  obtain ⟨hb, hp, _⟩ := isGlobal_iff.1 hglob
  rw [find_eq, if_pos hb, if_pos hp] at hv
  obtain ⟨r, hr, _⟩ := h.globals name v hv
  exact h.owner?_global hb hp (by simp [hr])

/-- What a name is in an execution is among what the analysis has for it. -/
theorem Covering.owner?_of_find (h : Covering bs p g m a c) {v : Val}
    (hv : c.find name = .bound v) :
    ∃ f r, a.heap.owner? (bs ++ [p, g]) name = some f ∧
      (a.heap.frame f).find? name = some (.known r) ∧ Covers m r v := by
  rw [find_eq] at hv
  by_cases hb : Store.slotIn name c.blocks = .absent
  · rw [if_pos hb] at hv
    by_cases hp : c.program name = .absent
    · rw [if_pos hp] at hv
      obtain ⟨r, hr, hc⟩ := h.globals name v hv
      exact ⟨g, r, h.owner?_global hb hp (by simp [hr]), hr, hc⟩
    · rw [if_neg hp] at hv
      obtain ⟨r, hr, hc⟩ := h.program name v hv
      refine ⟨p, r, ?_, hr, hc⟩
      rw [Heap.owner?_append (find?_of_slotIn_absent h.blocks hb)]
      exact Heap.owner?_cons_of_isSome (by simp [hr]) [g]
  · rw [if_neg hb] at hv
    exact owner?_of_slotIn_bound h.blocks hv [p, g]

/-- A frame covers a scope in which a name was written to what the frame has for it. -/
theorem FrameCovers.set {f : Frame} {scope : Scope} {v : Val} {r : Reference}
    (h : FrameCovers m f scope) (hr : f.find? name = some (.known r)) (hv : Covers m r v) :
    FrameCovers m f (scope.set name (.bound v)) := by
  intro n v' hv'
  by_cases hn : n = name
  · subst hn
    rw [Scope.set, if_pos rfl] at hv'
    cases hv'
    exact ⟨r, hr, hv⟩
  · rw [Scope.set, if_neg hn] at hv'
    exact h n v' hv'

/-- Writing to a name takes no name away. -/
theorem Scope.absent_of_set {scope : Scope} {n : String} {v : Val}
    (h : scope.set name (.bound v) n = .absent) : scope n = .absent := by
  by_cases hn : n = name
  · rw [Scope.set, if_pos hn] at h
    cases h
  · rwa [Scope.set, if_neg hn] at h

/-- Scopes of blocks after a name among them was written. -/
theorem forall₂_setFirst {scopes : List Scope} {h : Heap} {v w : Val} {r : Reference}
    (hb : List.Forall₂ (fun f scope => BlockCovers m (h.frame f) scope) bs scopes)
    (hw : Store.slotIn name scopes = .bound w) {rest : List Nat}
    (hr : h.lookup? (bs ++ rest) name = some (.known r)) (hv : Covers m r v) :
    List.Forall₂ (fun f scope => BlockCovers m (h.frame f) scope) bs
      (Store.setFirst name v scopes) := by
  induction hb with
  | nil => exact .nil
  | @cons f scope bs scopes hd htl ih =>
    rw [Store.slotIn] at hw
    rw [Store.setFirst]
    rw [List.cons_append, Heap.lookup?, List.findSome?_cons] at hr
    by_cases hs : scope name = .absent
    · rw [if_pos hs] at hw ⊢
      rw [hd.2 name hs] at hr
      exact .cons hd (ih hw hr)
    · rw [if_neg hs] at hw ⊢
      obtain ⟨r', hr', _⟩ := hd.1 name w hw
      rw [hr'] at hr
      cases hr
      exact .cons ⟨hd.1.set hr' hv, fun n hn => hd.2 n (Scope.absent_of_set hn)⟩ htl

/-- A name written by an execution and by an analysis is covered. -/
theorem Covering.assign (h : Covering bs p g m a c) (hf : c.find name ≠ .pending) {v : Val}
    {r : Reference} (hr : a.heap.lookup? (bs ++ [p, g]) name = some (.known r))
    (hv : Covers m r v) : Covering bs p g m a (c.assign name v) := by
  have hlookup : ∀ {f}, a.heap.owner? (bs ++ [p, g]) name = some f →
      (a.heap.frame f).find? name = some (.known r) := by
    intro f ho
    rw [← Heap.lookup?_of_owner? ho]
    exact hr
  rw [find_eq] at hf
  unfold Store.assign
  by_cases hb : Store.slotIn name c.blocks = .absent
  · rw [if_pos hb] at hf
    have hpass : a.heap.owner? (bs ++ [p, g]) name = a.heap.owner? [p, g] name :=
      Heap.owner?_append (find?_of_slotIn_absent h.blocks hb) [p, g]
    rw [if_neg (not_not_intro hb)]
    by_cases hglob : c.program name = .absent ∧ c.globals name ≠ .absent
    · -- a global
      rw [if_pos hglob.1] at hf
      rw [if_pos hglob]
      obtain ⟨w, hw⟩ := Slot.exists_of_ne hglob.2 hf
      obtain ⟨r', hr', _⟩ := h.globals name w hw
      have hg := hlookup (h.owner?_global hb hglob.1 (by simp [hr']))
      exact ⟨h.cells, h.owned, h.old, h.blocks, h.program, h.created, h.globals.set hg hv,
        fun n hn => h.named n (Scope.absent_of_set hn)⟩
    · -- a name of the program
      rw [if_neg hglob]
      have hp : ((a.heap.frame p).find? name).isSome := by
        by_cases hp : c.program name = .absent
        · have hgn : (a.heap.frame g).find? name = none :=
            h.named name (Classical.byContradiction fun hne => hglob ⟨hp, hne⟩)
          cases hpn : (a.heap.frame p).find? name with
          | some o => rfl
          | none =>
            have hnone : a.heap.owner? (bs ++ [p, g]) name = none := by
              rw [hpass, Heap.owner?]
              simp [hpn, hgn]
            rw [← Heap.lookup?_eq_none_iff, hr] at hnone
            cases hnone
        · rw [if_neg hp] at hf
          obtain ⟨w, hw⟩ := Slot.exists_of_ne hp hf
          obtain ⟨r', hr', _⟩ := h.program name w hw
          rw [hr']
          rfl
      have hp' := hlookup (hpass.trans (Heap.owner?_cons_of_isSome hp [g]))
      exact ⟨h.cells, h.owned, h.old, h.blocks, h.program.set hp' hv,
        fun n hn => h.created n (Scope.absent_of_set hn), h.globals, h.named⟩
  · -- a name of a block
    rw [if_neg hb] at hf
    rw [if_pos hb]
    obtain ⟨w, hw⟩ := Slot.exists_of_ne hb hf
    exact ⟨h.cells, h.owned, h.old, forall₂_setFirst h.blocks hw hr hv, h.program, h.created,
      h.globals, h.named⟩

/-! ## Names in executions -/

/-- A name with a value is bound in the frames visible. -/
theorem Covering.meaning_of_find (h : Covering bs p g m a c) {v : Val} {r : Reference}
    (hv : c.find name = .bound v) (hr : a.heap.meaning (bs ++ [p, g]) name = .known r) :
    Covers m r v := by
  obtain ⟨f, r', ho, hr', hc⟩ := h.owner?_of_find hv
  rw [Heap.meaning, Heap.lookup?_of_owner? ho, hr'] at hr
  cases hr
  exact hc

variable {d : Dialect} {span : Span} {r : Reference}

/-- Reading a name yields one of its possibilities. -/
theorem Leads.readName (h : Covering bs p g m a c)
    (hr : a.heap.meaning (bs ++ [p, g]) name = .known r) :
    Leads bs p g a m c (d.readName name) fun m' v => Covers m' r v := by
  unfold Dialect.readName
  refine .get_bind ?_
  cases hf : c.find name with
  | bound v => exact .pure h (h.meaning_of_find hf hr)
  | pending => exact .stop
  | absent =>
    exact (Leads.orStop (Q := fun _ _ => True) h fun _ _ => trivial).andThen
      fun m' c' s _ h' _ => .pure h' (.scalar m' r s)

/-- Whether a name has a value is seen without a change. -/
theorem Leads.peekName (h : Covering bs p g m a c) :
    Leads bs p g a m c (d.peekName name) fun _ _ => True := by
  unfold Dialect.peekName
  refine .get_bind ?_
  cases c.find name with
  | bound v => exact .pure h trivial
  | pending => exact .stop
  | absent => exact .pure h trivial

/-- Writing to a name creates nothing. -/
theorem assign_next (c : Store) (v : Val) : (c.assign name v).next = c.next := by
  unfold Store.assign
  split
  · rfl
  · split <;> rfl

/-- Writing to a name changes no container. -/
theorem assign_cells (c : Store) (v : Val) : (c.assign name v).cells = c.cells := by
  unfold Store.assign
  split
  · rfl
  · split <;> rfl

/-- Writing to a name is no mutation of its own. -/
theorem assign_mutations (c : Store) (v : Val) : (c.assign name v).mutations = c.mutations := by
  unfold Store.assign
  split
  · rfl
  · split <;> rfl

/-- Writing a name that the analysis wrote and, if it is a global, reported. -/
theorem Leads.writeName (h : Covering bs p g m a c) {v : Val}
    (hr : a.heap.lookup? (bs ++ [p, g]) name = some (.known r)) (hv : Covers m r v)
    (hrep : ∀ w, c.find name = .bound w → c.isGlobal name → Reported a span) :
    Leads bs p g a m c (d.writeName span name v) fun _ _ => True := by
  have hassign (c₁ : Store) (hc₁ : c₁ = { c with mutations := c₁.mutations })
      (hf : c.find name ≠ .pending) :
      Leads bs p g a m c₁ (modify (·.assign name v) : Exec Unit) fun _ _ => True := by
    have hf₁ : c₁.find name ≠ .pending := by
      rw [hc₁]
      exact hf
    refine .change (assign_mutations c₁ v) ⟨?_, fun _ _ => rfl, fun x _ _ => ?_⟩
      ((h.recorded hc₁).assign hf₁ hr hv) trivial
    · exact Nat.le_of_eq (assign_next c₁ v).symm
    · rw [assign_cells]
  unfold Dialect.writeName
  refine .get_bind ?_
  cases hf : c.find name with
  | bound w => exact .mutate_bind (hrep w hf) fun c₁ hc₁ => hassign c₁ hc₁ (by rw [hf]; nofun)
  | pending => exact .stop
  | absent =>
    by_cases hconst : (d.constant name).isSome
    · rw [if_pos hconst]
      exact .pure h trivial
    · rw [if_neg hconst]
      exact hassign c rfl (by rw [hf]; nofun)

end

/-! ## Names in analyses -/

section
variable {bs : List Nat} {p g : Nat} {a : State} {name : String} {setup : Setup}

/-- A plain name stands for something known. -/
theorem Plain.meaning_known (h : Plain a) (hn : IsPlainName name) (stack : Stack) :
    ∃ r, a.heap.meaning stack name = .known r := by
  unfold Heap.meaning
  cases hl : a.heap.lookup? stack name with
  | some o =>
    obtain ⟨f, _, hf⟩ := List.exists_of_findSome?_eq_some hl
    obtain ⟨r, hr⟩ := h.known f _ (Frame.mem_bindings_of_find? hf)
    exact ⟨r, hr⟩
  | none =>
    unfold IsPlainName at hn
    rw [hn]
    exact ⟨_, rfl⟩

/-- The frame of the program is not that of the globals. -/
theorem Ready.program_ne_globals (h : Ready (bs ++ [p, g]) a) : p ≠ g := by
  have := (List.nodup_append.1 h.nodup).2.1
  simpa using this

/-- The state after a name was bound in a frame. -/
def bindIn (a : State) (f : Nat) (name : String) (r : Reference) : State :=
  { a with heap := a.heap.define f name (.known r) }

/-- Bindings to what is known keep a state plain. -/
theorem Plain.bindIn (h : Plain a) (f : Nat) (r : Reference) : Plain (bindIn a f name r) := by
  refine ⟨h.closures, fun f' b hb => ?_, h.unit, h.anchors⟩
  rw [Execution.bindIn, Heap.frame_define] at hb
  split at hb
  · rcases Frame.mem_setBinding hb with hb | hb
    · exact h.known f b hb
    · exact ⟨r, hb⟩
  · exact h.known f' b hb

/-- A binding changes no other frame. -/
theorem find?_bindIn_of_ne {f f' : Nat} {r : Reference} (hne : f' ≠ f) (n : String) :
    ((bindIn a f name r).heap.frame f').find? n = (a.heap.frame f').find? n := by
  show ((a.heap.define f name (.known r)).frame f').find? n = _
  rw [Heap.frame_define, if_neg fun h => hne h.1]

/-- A binding is found in its frame, where the other names stay bound as they were. -/
theorem find?_bindIn_self {f : Nat} {r : Reference} (hf : f < a.heap.frames.size) (n : String) :
    ((bindIn a f name r).heap.frame f).find? n =
      if n = name then some (.known r) else (a.heap.frame f).find? n := by
  show ((a.heap.define f name (.known r)).frame f).find? n = _
  rw [Heap.frame_define, if_pos ⟨rfl, hf⟩, Frame.find?_define]

/-- A name bound anew to more than before, or created in the frame of the program. -/
theorem Grown.define (h : Ready (bs ++ [p, g]) a) {f : Nat} {r : Reference}
    (hf : f ∈ bs ++ [p, g])
    (hold : ∀ r', (a.heap.frame f).find? name = some (.known r') → ∀ u ∈ r', u ∈ r)
    (hnew : (a.heap.frame f).find? name = none → f = p ∧ (a.heap.frame g).find? name = none) :
    Grown p g (bs ++ [p, g]) a (bindIn a f name r) where
  plain ha := ha.bindIn f r
  size := by simp [bindIn, Heap.define]
  contents _ ct hct := ⟨ct, hct, .refl ct⟩
  bound f' _ n r' hr' := by
    by_cases hf' : f' = f
    · subst hf'
      rw [find?_bindIn_self (h.exist f' hf)]
      by_cases hn : n = name
      · subst hn
        exact ⟨r, if_pos rfl, hold r' hr'⟩
      · exact ⟨r', (if_neg hn).trans hr', fun _ hu => hu⟩
    · exact ⟨r', (find?_bindIn_of_ne hf' n).trans hr', fun _ hu => hu⟩
  unbound f' _ n hn' := by
    by_cases hf' : f' = f
    · subst hf'
      by_cases hn : n = name
      · subst hn
        exact .inr (hnew hn')
      · rw [find?_bindIn_self (h.exist f' hf), if_neg hn]
        exact .inl hn'
    · exact .inl ((find?_bindIn_of_ne hf' n).trans hn')
  globals n := by
    by_cases hgf : g = f
    · subst hgf
      rw [find?_bindIn_self (h.exist g hf)]
      by_cases hn : n = name
      · subst hn
        rw [if_pos rfl]
        refine ⟨fun hs => absurd hs (Option.some_ne_none _), fun hg => ?_⟩
        exact absurd (hnew hg).1.symm h.program_ne_globals
      · rw [if_neg hn]
    · rw [find?_bindIn_of_ne hgf]
  provenance := rfl
  diagnostics _ hd := hd

/-- The frame in which a name is written: the one that owns it, or that of the program. -/
def writeFrame (h : Heap) (stack : Stack) (p : Nat) (name : String) : Nat :=
  (h.owner? stack name).getD p

/-- Binding a name anew binds it where it is written. -/
theorem rebind_eq (a : State) (r : Reference) :
    Run.rebind name r (bs ++ [p, g]) setup a =
      .ok () (bindIn a (writeFrame a.heap (bs ++ [p, g]) p name) name r) := by
  have howner : Run.owner? (bs ++ [p, g]) name setup a =
      .ok (a.heap.owner? (bs ++ [p, g]) name) a := rfl
  have hprogram : Stack.programFrame? (bs ++ [p, g]) = some p := by
    have heq : bs ++ [p, g] = (bs ++ [p]) ++ [g] := by simp
    rw [heq, World.programFrame?_append (bs ++ [p]) g (by simp)]
    simp
  unfold Run.rebind writeFrame
  rw [Run.bind_of_ok howner]
  cases a.heap.owner? (bs ++ [p, g]) name with
  | some f => rfl
  | none =>
    rw [hprogram]
    rfl

/-- A name is written in one of the frames visible. -/
theorem writeFrame_mem (h : Heap) (bs : List Nat) (p g : Nat) (name : String) :
    writeFrame h (bs ++ [p, g]) p name ∈ bs ++ [p, g] := by
  unfold writeFrame
  cases ho : h.owner? (bs ++ [p, g]) name with
  | some f => exact (Heap.owner?_mem ho).1
  | none => simp

/-- A name is found where it was written. -/
theorem lookup?_writeFrame (h : Ready (bs ++ [p, g]) a) (r : Reference) :
    (bindIn a (writeFrame a.heap (bs ++ [p, g]) p name) name r).heap.lookup? (bs ++ [p, g]) name =
      some (.known r) := by
  have hmem := writeFrame_mem a.heap bs p g name
  refine Heap.lookup?_define _ hmem ?_ (h.exist _ hmem)
  intro f ho
  rw [writeFrame, ho]
  rfl

/-- A name bound to more than it stood for lets the frames grow. -/
theorem grown_writeFrame (h : Ready (bs ++ [p, g]) a) {r : Reference}
    (hold : ∀ r', a.heap.meaning (bs ++ [p, g]) name = .known r' → ∀ u ∈ r', u ∈ r) :
    Grown p g (bs ++ [p, g]) a
      (bindIn a (writeFrame a.heap (bs ++ [p, g]) p name) name r) := by
  refine .define h (writeFrame_mem a.heap bs p g name) ?_ ?_
  · intro r' hr'
    refine hold r' ?_
    cases ho : a.heap.owner? (bs ++ [p, g]) name with
    | some f =>
      rw [writeFrame, ho, Option.getD_some] at hr'
      rw [Heap.meaning, Heap.lookup?_of_owner? ho, hr']
    | none =>
      rw [writeFrame, ho, Option.getD_none, Heap.find?_of_owner?_none ho p (by simp)] at hr'
      cases hr'
  · intro hnone
    cases ho : a.heap.owner? (bs ++ [p, g]) name with
    | some f =>
      have hb := (Heap.owner?_mem ho).2
      rw [writeFrame, ho, Option.getD_some] at hnone
      rw [hnone] at hb
      cases hb
    | none =>
      rw [writeFrame, ho]
      exact ⟨rfl, Heap.find?_of_owner?_none ho g (by simp)⟩

/-- A write to a name adds to what the name stands for, and reports a global. -/
theorem writeName_runs (setup : Setup) (h : Ready (bs ++ [p, g]) a) (hn : IsPlainName name)
    (value : Reference) (site : Site) (violation : Violation) :
    ∃ a' r, Evaluator.writeName name (.known value) (bs ++ [p, g]) site violation setup a =
        .ok () a' ∧
      Grown p g (bs ++ [p, g]) a a' ∧ a'.heap.lookup? (bs ++ [p, g]) name = some (.known r) ∧
      (∀ u ∈ value, u ∈ r) ∧
      (a.heap.owner? (bs ++ [p, g]) name = some g → Reported a' site.span) := by
  obtain ⟨old, hold⟩ := h.plain.meaning_known hn (bs ++ [p, g])
  obtain ⟨own, a₁, hnotes, hown, heq⟩ :=
    Run.writeName_eq setup name (.known value) (bs ++ [p, g]) site violation a
  rw [hold] at heq
  have hgrown : Grown p g (bs ++ [p, g]) a a₁ := .of_notes hnotes
  have h₁ := h.grown hgrown
  have hbound : Grown p g (bs ++ [p, g]) a₁ (bindIn a₁
      (writeFrame a₁.heap (bs ++ [p, g]) p name) name (old.union value)) := by
    refine grown_writeFrame h₁ fun r' hr' u hu => Reference.mem_union.2 (.inl ?_)
    rw [hnotes.heap, hold] at hr'
    cases hr'
    exact hu
  refine ⟨_, _, heq.trans (rebind_eq a₁ _), hgrown.trans hbound, lookup?_writeFrame h₁ _,
    fun u hu => Reference.mem_union.2 (.inr hu), fun ho => ?_⟩
  obtain ⟨d, hd, hspan⟩ := hown g ho (by simp [Stack.globals?])
  rw [h.plain.anchors] at hspan
  refine ⟨d, ?_, hspan⟩
  show d ∈ a₁.diagnostics
  rw [← Array.mem_toList_iff, hnotes.diagnostics]
  exact List.mem_append_right _ hd

end

end Execution

end FrozenGlobals
