import FrozenGlobals.Proofs.Analysis.Traced
import FrozenGlobals.Proofs.Execution.Semantics

/-!
# What an analysis covers

An analysis that walks over a script covers an execution of it. A `Chart` names the abstract
container that stands for each address, and `Covering` relates the state of the analysis to a store:
whatever a name or a property is in the store, the analysis has among the possibilities of the name
or the property. `Grown` says how the state of an analysis grows, and `Covering.grown` that it goes
on covering what it covered.

`Leads` is what is shown of each part of an execution: wherever it ends, the mutations on the way
were reported, and if it ends normally the analysis covers the store it ends in. `Leads.bind`
composes parts.
-/

namespace FrozenGlobals

/-! ## Growing -/

/-- A container holds at least what another held, property by property. -/
inductive Contents.Le : Contents → Contents → Prop
  | object {o o' : ObjectCell} : (∀ k, ∀ v ∈ o.get (.name k), v ∈ o'.get (.name k)) →
      Le (.object o) (.object o')
  | array {a a' : ArrayCell} : (∀ v ∈ a.elements, v ∈ a'.elements) → Le (.array a) (.array a')

/-- A container holds what it holds. -/
theorem Contents.Le.refl (c : Contents) : c.Le c := by
  cases c with
  | object o => exact .object fun _ _ h => h
  | array a => exact .array fun _ h => h

/-- Holding at least as much is transitive. -/
theorem Contents.Le.trans {c₁ c₂ c₃ : Contents} (h : c₁.Le c₂) (h' : c₂.Le c₃) : c₁.Le c₃ := by
  cases h with
  | object h =>
    cases h' with
    | object h' => exact .object fun k v hv => h' k v (h k v hv)
  | array h =>
    cases h' with
    | array h' => exact .array fun v hv => h' v (h v hv)

namespace Execution

open Script (Span)

/-- The state of an analysis that met no functions, and that follows the analyzed program itself. -/
structure Plain (a : State) : Prop where
  closures : a.heap.closures = #[]
  known : ∀ f, ∀ b ∈ (a.heap.frame f).bindings, ∃ r, b.2 = .known r
  unit : a.unit = 0
  anchors : a.anchors = []

/-- How the state of an analysis grows on some frames. Names are added to the frame of the program
only, and only if they are not globals. -/
structure Grown (p g : Nat) (frames : List Nat) (a a' : State) : Prop where
  plain : Plain a → Plain a'
  size : a.heap.frames.size ≤ a'.heap.frames.size
  contents : ∀ u ct, a.heap.contents u = some ct → ∃ ct', a'.heap.contents u = some ct' ∧ ct.Le ct'
  bound : ∀ f ∈ frames, ∀ name r, (a.heap.frame f).find? name = some (.known r) →
    ∃ r', (a'.heap.frame f).find? name = some (.known r') ∧ ∀ u ∈ r, u ∈ r'
  unbound : ∀ f ∈ frames, ∀ name, (a.heap.frame f).find? name = none →
    (a'.heap.frame f).find? name = none ∨ f = p ∧ (a.heap.frame g).find? name = none
  globals : ∀ name, (a'.heap.frame g).find? name = none ↔ (a.heap.frame g).find? name = none
  provenance : a'.provenance = a.provenance
  diagnostics : ∀ d ∈ a.diagnostics, d ∈ a'.diagnostics

namespace Grown

variable {p g : Nat} {frames : List Nat} {a a₁ a₂ : State}

/-- A state grows to itself. -/
theorem refl (a : State) : Grown p g frames a a where
  plain h := h
  size := Nat.le_refl _
  contents _ ct h := ⟨ct, h, .refl ct⟩
  bound _ _ _ r h := ⟨r, h, fun _ hu => hu⟩
  unbound _ _ _ h := .inl h
  globals _ := Iff.rfl
  provenance := rfl
  diagnostics _ h := h

/-- Growth is transitive. -/
theorem trans (h : Grown p g frames a a₁) (h' : Grown p g frames a₁ a₂) :
    Grown p g frames a a₂ where
  plain ha := h'.plain (h.plain ha)
  size := Nat.le_trans h.size h'.size
  contents u ct hc := by
    obtain ⟨ct₁, hc₁, hle₁⟩ := h.contents u ct hc
    obtain ⟨ct₂, hc₂, hle₂⟩ := h'.contents u ct₁ hc₁
    exact ⟨ct₂, hc₂, hle₁.trans hle₂⟩
  bound f hf name r hr := by
    obtain ⟨r₁, hr₁, hle₁⟩ := h.bound f hf name r hr
    obtain ⟨r₂, hr₂, hle₂⟩ := h'.bound f hf name r₁ hr₁
    exact ⟨r₂, hr₂, fun u hu => hle₂ u (hle₁ u hu)⟩
  unbound f hf name hn := by
    rcases h.unbound f hf name hn with hn₁ | hp
    · exact (h'.unbound f hf name hn₁).imp_right fun hp => ⟨hp.1, (h.globals name).1 hp.2⟩
    · exact .inr hp
  globals name := (h'.globals name).trans (h.globals name)
  provenance := h'.provenance.trans h.provenance
  diagnostics d hd := h'.diagnostics d (h.diagnostics d hd)

/-- What grows on some frames grows on fewer of them. -/
theorem subset {frames' : List Nat} (h : Grown p g frames a a₁) (hs : ∀ f ∈ frames', f ∈ frames) :
    Grown p g frames' a a₁ where
  plain := h.plain
  size := h.size
  contents := h.contents
  bound f hf := h.bound f (hs f hf)
  unbound f hf := h.unbound f (hs f hf)
  globals := h.globals
  provenance := h.provenance
  diagnostics := h.diagnostics

/-- Reports change nothing else. -/
theorem of_notes {own : List Diagnostic} (h : a.Notes own a₁) : Grown p g frames a a₁ where
  plain ha := ⟨by rw [h.heap]; exact ha.closures, by rw [h.heap]; exact ha.known,
    by rw [h.unit]; exact ha.unit, by rw [h.anchors]; exact ha.anchors⟩
  size := Nat.le_of_eq (by rw [h.heap])
  contents _ ct hc := ⟨ct, by rw [h.heap]; exact hc, .refl ct⟩
  bound _ _ _ r hr := ⟨r, by rw [h.heap]; exact hr, fun _ hu => hu⟩
  unbound _ _ _ hn := .inl (by rw [h.heap]; exact hn)
  globals _ := by rw [h.heap]
  provenance := h.provenance
  diagnostics d hd := by
    rw [← Array.mem_toList_iff] at hd ⊢
    rw [h.diagnostics]
    exact List.mem_append_left _ hd

end Grown

/-- The frames visible at a place exist and are told apart, and the analysis met no functions. -/
structure Ready (stack : Stack) (a : State) : Prop where
  plain : Plain a
  nodup : stack.Nodup
  exist : ∀ f ∈ stack, f < a.heap.frames.size

/-- Frames stay visible and apart while the analysis goes on. -/
theorem Ready.grown {p g : Nat} {frames : List Nat} {stack : Stack} {a a' : State}
    (h : Ready stack a) (hg : Grown p g frames a a') : Ready stack a' :=
  ⟨hg.plain h.plain, h.nodup, fun f hf => Nat.lt_of_lt_of_le (h.exist f hf) hg.size⟩

/-- A diagnostic was recorded at a range. -/
def Reported (a : State) (span : Span) : Prop := ∃ d ∈ a.diagnostics, d.span = span

/-- What was reported stays reported. -/
theorem Reported.grown {p g : Nat} {frames : List Nat} {a a' : State} {span : Span}
    (h : Reported a span) (hg : Grown p g frames a a') : Reported a' span := by
  obtain ⟨d, hd, hspan⟩ := h
  exact ⟨d, hg.diagnostics d hd, hspan⟩

/-! ## Covering -/

/-- The abstract container that stands for an address, if one does. -/
abbrev Chart := Address → Option Value

def Chart.Le (m m' : Chart) : Prop := ∀ x u, m x = some u → m' x = some u

/-- A value is among possibilities, as far as the analysis tells values apart: primitive values
always are. -/
def Covers (m : Chart) (r : Reference) (v : Val) : Prop := ∀ x, v = .ref x → ∃ u ∈ r, m x = some u

/-- Values without parts are covered by whatever is said of them. -/
theorem Covers.scalar (m : Chart) (r : Reference) (s : Scalar) : Covers m r (.scalar s) := by
  intro _ h
  cases h

/-- What is covered stays covered in a larger chart and among more possibilities. -/
theorem Covers.mono {m m' : Chart} {r r' : Reference} {v : Val} (h : Covers m r v) (hm : m.Le m')
    (hr : ∀ u ∈ r, u ∈ r') : Covers m' r' v := by
  intro x hx
  obtain ⟨u, hu, hmu⟩ := h x hx
  exact ⟨u, hr u hu, hm x u hmu⟩

/-- What is covered stays covered in a larger chart. -/
theorem Covers.le {m m' : Chart} {r : Reference} {v : Val} (h : Covers m r v) (hm : m.Le m') :
    Covers m' r v := h.mono hm fun _ hu => hu

/-- What is covered stays covered among more possibilities. -/
theorem Covers.subset {m : Chart} {r r' : Reference} {v : Val} (h : Covers m r v)
    (hr : ∀ u ∈ r, u ∈ r') : Covers m r' v := h.mono (fun _ _ hu => hu) hr

/-- The properties of a container are among the possibilities of their names. -/
inductive CellCovers (m : Chart) : Contents → Cell → Prop
  | object {o : ObjectCell} {cell : Cell} : cell.shape = .object →
      (∀ k v, cell.props k = some v → Covers m (o.get (.name k)) v) →
      CellCovers m (.object o) cell
  | array {arr : ArrayCell} {cell : Cell} {length : Nat} : cell.shape = .array length →
      (∀ k v, cell.props k = some v → Covers m arr.elements v) → CellCovers m (.array arr) cell

/-- A cell that is covered stays covered in a larger chart, by a container that holds more. -/
theorem CellCovers.mono {m m' : Chart} {ct ct' : Contents} {cell : Cell}
    (h : CellCovers m ct cell) (hm : m.Le m') (hct : ct.Le ct') : CellCovers m' ct' cell := by
  cases h with
  | object hs h =>
    cases hct with
    | object hct => exact .object hs fun k v hv => (h k v hv).mono hm (hct k)
  | array hs h =>
    cases hct with
    | array hct => exact .array hs fun k v hv => (h k v hv).mono hm hct

/-- The values of names are among the possibilities of the names in a frame. -/
def FrameCovers (m : Chart) (f : Frame) (scope : Scope) : Prop :=
  ∀ name v, scope name = .bound v → ∃ r, f.find? name = some (.known r) ∧ Covers m r v

/-- The scope of a block: its frame binds no other names. -/
def BlockCovers (m : Chart) (f : Frame) (scope : Scope) : Prop :=
  FrameCovers m f scope ∧ ∀ name, scope name = .absent → f.find? name = none

/-- An address that was in use before a store was reached. -/
def Store.Has (c : Store) (x : Address) : Prop := ∀ n, x = .fresh n → n < c.next

/-- An analysis in a state covers a store. The frames of the blocks around are `bs`, that of the
program `p` and that of the globals `g`. -/
structure Covering (bs : List Nat) (p g : Nat) (m : Chart) (a : State) (c : Store) : Prop where
  cells : ∀ x u, m x = some u → ∃ cell ct, c.cells x = some cell ∧ a.heap.contents u = some ct ∧
    CellCovers m ct cell
  /-- What the host provided is known to be part of the globals. -/
  owned : ∀ x u, m x = some u → x.isHost → (a.provenance.find? u).isSome
  old : ∀ x u, m x = some u → c.Has x
  blocks : List.Forall₂ (fun f scope => BlockCovers m (a.heap.frame f) scope) bs c.blocks
  program : FrameCovers m (a.heap.frame p) c.program
  /-- A name that the analysis created is no global. -/
  created : ∀ name, c.program name = .absent → (a.heap.frame p).find? name ≠ none →
    (a.heap.frame g).find? name = none
  globals : FrameCovers m (a.heap.frame g) c.globals
  named : ∀ name, c.globals name = .absent → (a.heap.frame g).find? name = none

section
variable {bs : List Nat} {p g : Nat} {m m' : Chart} {a a' : State} {c c' : Store}

/-- A frame covers its scope after the analysis went on. -/
theorem FrameCovers.grown {frames : List Nat} {f : Nat} {scope : Scope}
    (h : FrameCovers m (a.heap.frame f) scope) (hg : Grown p g frames a a') (hf : f ∈ frames) :
    FrameCovers m (a'.heap.frame f) scope := by
  intro name v hv
  obtain ⟨r, hr, hc⟩ := h name v hv
  obtain ⟨r', hr', hle⟩ := hg.bound f hf name r hr
  exact ⟨r', hr', hc.subset hle⟩

/-- A frame covers its scope in a larger chart. -/
theorem FrameCovers.le {f : Frame} {scope : Scope} (h : FrameCovers m f scope) (hm : m.Le m') :
    FrameCovers m' f scope := by
  intro name v hv
  obtain ⟨r, hr, hc⟩ := h name v hv
  exact ⟨r, hr, hc.le hm⟩

/-- What was recorded does not matter. -/
theorem Covering.recorded (h : Covering bs p g m a c)
    (hc : c' = { c with mutations := c'.mutations }) : Covering bs p g m a c' := by
  rw [hc]
  exact ⟨h.cells, h.owned, h.old, h.blocks, h.program, h.created, h.globals, h.named⟩

/-- What holds of the frames of the blocks around and their scopes may be replaced by a
consequence. -/
theorem forall₂_imp {R S : Nat → Scope → Prop} {scopes : List Scope} (h : List.Forall₂ R bs scopes)
    (himp : ∀ f ∈ bs, ∀ scope, R f scope → S f scope) : List.Forall₂ S bs scopes := by
  induction h with
  | nil => exact .nil
  | cons hd _ ih =>
    exact .cons (himp _ List.mem_cons_self _ hd) (ih fun f hf => himp f (List.mem_cons_of_mem _ hf))

/-- An analysis that goes on covers what it covered. -/
theorem Covering.grown (h : Covering bs p g m a c) (hr : Ready (bs ++ [p, g]) a)
    (hg : Grown p g (bs ++ [p, g]) a a') : Covering bs p g m a' c where
  cells x u hu := by
    obtain ⟨cell, ct, hcell, hct, hcov⟩ := h.cells x u hu
    obtain ⟨ct', hct', hle⟩ := hg.contents u ct hct
    exact ⟨cell, ct', hcell, hct', hcov.mono (fun _ _ hx => hx) hle⟩
  owned x u hu hx := by
    rw [hg.provenance]
    exact h.owned x u hu hx
  old := h.old
  blocks := by
    refine forall₂_imp h.blocks fun f hf scope hcov => ?_
    have hmem : f ∈ bs ++ [p, g] := List.mem_append_left _ hf
    refine ⟨hcov.1.grown hg hmem, fun name habs => ?_⟩
    rcases hg.unbound f hmem name (hcov.2 name habs) with hn | ⟨rfl, _⟩
    · exact hn
    · have := (List.nodup_append.1 hr.nodup).2.2 f hf f (by simp)
      exact absurd rfl this
  program := h.program.grown hg (by simp)
  created name habs hne := by
    by_cases hn : (a.heap.frame p).find? name = none
    · rcases hg.unbound p (by simp) name hn with hn' | ⟨_, hglob⟩
      · exact absurd hn' hne
      · exact (hg.globals name).2 hglob
    · exact (hg.globals name).2 (h.created name habs hn)
  globals := h.globals.grown hg (by simp)
  named name habs := (hg.globals name).2 (h.named name habs)

/-! ## Parts of executions -/

/-- A later store with its chart: what the chart said of addresses in use stays, and containers
outside of the chart are left alone. -/
structure Later (m : Chart) (c : Store) (m' : Chart) (c' : Store) : Prop where
  next : c.next ≤ c'.next
  same : ∀ x, c.Has x → m' x = m x
  kept : ∀ x, c.Has x → m x = none → c'.cells x = c.cells x

/-- An address in use stays in use. -/
theorem Store.Has.later {x : Address} (h : c.Has x) (hl : c.next ≤ c'.next) : c'.Has x :=
  fun n hn => Nat.lt_of_lt_of_le (h n hn) hl

/-- A store is later than itself, with the same chart. -/
theorem Later.refl (m : Chart) (c : Store) : Later m c m c :=
  ⟨Nat.le_refl _, fun _ _ => rfl, fun _ _ _ => rfl⟩

/-- Being later is transitive. -/
theorem Later.trans {m₁ m₂ : Chart} {c₁ c₂ : Store} (h : Later m c m₁ c₁)
    (h' : Later m₁ c₁ m₂ c₂) : Later m c m₂ c₂ where
  next := Nat.le_trans h.next h'.next
  same x hx := (h'.same x (hx.later h.next)).trans (h.same x hx)
  kept x hx hm := (h'.kept x (hx.later h.next) ((h.same x hx).trans hm)).trans (h.kept x hx hm)

/-- Charts of later stores are larger. -/
theorem Later.le (h : Later m c m' c') (hc : Covering bs p g m a c) : m.Le m' := by
  intro x u hu
  rw [h.same x (hc.old x u hu)]
  exact hu

/-- A part of an execution under an analysis that ends in the state `a`. Wherever it ends, the
mutations on the way were reported; if it ends normally, the analysis covers the store it ends in,
and its result has a property. -/
structure Leads {α : Type} (bs : List Nat) (p g : Nat) (a : State) (m : Chart) (c : Store)
    (x : Exec α) (Q : Chart → α → Prop) : Prop where
  reported : ∀ span ∈ (endOf x c).mutations, span ∈ c.mutations ∨ Reported a span
  ends : ∀ v c', x c = .ok v c' → ∃ m', Later m c m' c' ∧ Covering bs p g m' a c' ∧ Q m' v

/-- A part that ends normally ends in the store it ends in. -/
theorem endOf_of_ok {α : Type} {x : Exec α} {v : α} (h : x c = .ok v c') : endOf x c = c' := by
  rw [endOf, h]

/-- What follows a part that ended goes on with its value. -/
theorem bind_ok {α β : Type} {x : Exec α} {k : α → Exec β} {v : α} (h : x c = .ok v c') :
    (x >>= k) c = k v c' := by
  show EStateM.bind x k c = _
  rw [EStateM.bind, h]

/-- What follows a part that did not end normally is not executed. -/
theorem bind_error {α β : Type} {x : Exec α} {k : α → Exec β} {e : Unit}
    (h : x c = .error e c') : (x >>= k) c = .error e c' := by
  show EStateM.bind x k c = _
  rw [EStateM.bind, h]

namespace Leads

variable {α β : Type} {x : Exec α} {Q : Chart → α → Prop}

/-- A part that is known to end normally. -/
theorem of_ok {v : α} (heq : x c = .ok v c')
    (hrep : ∀ span ∈ c'.mutations, span ∈ c.mutations ∨ Reported a span)
    (hend : ∃ m', Later m c m' c' ∧ Covering bs p g m' a c' ∧ Q m' v) :
    Leads bs p g a m c x Q where
  reported := by
    rw [endOf_of_ok heq]
    exact hrep
  ends v' c'' heq' := by
    cases heq.symm.trans heq'
    exact hend

/-- A value at hand leaves everything as it is. -/
theorem pure {v : α} (h : Covering bs p g m a c) (hv : Q m v) :
    Leads bs p g a m c (Pure.pure v : Exec α) Q :=
  of_ok rfl (fun _ hs => .inl hs) ⟨m, .refl m c, h, hv⟩

/-- A part that stops has nothing to be covered. -/
theorem stop : Leads bs p g a m c (stop : Exec α) Q where
  reported _ hs := .inl hs
  ends _ _ heq := by cases heq

/-- A part may depend on the store. -/
theorem get_bind {k : Store → Exec α} (h : Leads bs p g a m c (k c) Q) :
    Leads bs p g a m c (get >>= k) Q := ⟨h.reported, h.ends⟩

/-- What the dialect gives, if it gives something. -/
theorem orStop {v? : Option α} (h : Covering bs p g m a c) (hv : ∀ v, v? = some v → Q m v) :
    Leads bs p g a m c (orStop v?) Q := by
  cases v? with
  | none => exact stop
  | some v => exact pure h (hv v rfl)

/-- A change of the store that mutates no globals. -/
theorem change {f : Store → Store} {Q : Chart → Unit → Prop}
    (hmut : (f c).mutations = c.mutations) (hl : Later m c m' (f c))
    (h : Covering bs p g m' a (f c)) (hq : Q m' ()) :
    Leads bs p g a m c (modify f : Exec Unit) Q :=
  of_ok rfl (fun _ hs => .inl (hmut ▸ hs)) ⟨m', hl, h, hq⟩

/-- A mutation that was reported. -/
theorem mutate_bind {isGlobal : Bool} {span : Span} {k : Unit → Exec α}
    (hrep : isGlobal → Reported a span)
    (hk : ∀ c₁, c₁ = { c with mutations := c₁.mutations } → Leads bs p g a m c₁ (k ()) Q) :
    Leads bs p g a m c (mutate isGlobal span >>= k) Q := by
  cases isGlobal with
  | false => exact ⟨(hk c rfl).reported, (hk c rfl).ends⟩
  | true =>
    have h := hk { c with mutations := c.mutations ++ [span] } rfl
    refine ⟨fun s hs => ?_, fun v c' heq => ?_⟩
    · rcases h.reported s hs with hs | hs
      · rcases List.mem_append.1 hs with hs | hs
        · exact .inl hs
        · rw [List.mem_singleton.1 hs]
          exact .inr (hrep rfl)
      · exact .inr hs
    · obtain ⟨m', hl, hcov, hv⟩ := h.ends v c' heq
      exact ⟨m', ⟨hl.next, hl.same, hl.kept⟩, hcov, hv⟩

/-- One part after another. -/
theorem bind {frames : List Nat} {k : α → Exec β} {Q' : Chart → β → Prop}
    (h : Leads bs p g a m c x Q) (hg : Grown p g frames a a')
    (hk : ∀ m' c' v, Later m c m' c' → Covering bs p g m' a c' → Q m' v →
      Leads bs p g a' m' c' (k v) Q') : Leads bs p g a' m c (x >>= k) Q' := by
  cases hx : x c with
  | ok v c' =>
    obtain ⟨m', hl, hcov, hv⟩ := h.ends v c' hx
    have hkv := hk m' c' v hl hcov hv
    have hb : (x >>= k) c = k v c' := bind_ok hx
    refine ⟨fun span hs => ?_, fun w c'' heq => ?_⟩
    · have hs' : span ∈ (endOf (k v) c').mutations := by
        rw [endOf, hb] at hs
        exact hs
      rcases hkv.reported span hs' with hs' | hs'
      · rw [← endOf_of_ok hx] at hs'
        exact (h.reported span hs').imp_right (·.grown hg)
      · exact .inr hs'
    · rw [hb] at heq
      obtain ⟨m'', hl', hcov', hw⟩ := hkv.ends w c'' heq
      exact ⟨m'', hl.trans hl', hcov', hw⟩
  | error e c' =>
    have hb : (x >>= k) c = .error e c' := bind_error hx
    refine ⟨fun span hs => ?_, fun w c'' heq => ?_⟩
    · have hs' : span ∈ (endOf x c).mutations := by
        rw [endOf, hb] at hs
        rw [endOf, hx]
        exact hs
      exact (h.reported span hs').imp_right (·.grown hg)
    · rw [hb] at heq
      cases heq

/-- One part after another, while the analysis stands still. -/
theorem andThen {k : α → Exec β} {Q' : Chart → β → Prop} (h : Leads bs p g a m c x Q)
    (hk : ∀ m' c' v, Later m c m' c' → Covering bs p g m' a c' → Q m' v →
      Leads bs p g a m' c' (k v) Q') : Leads bs p g a m c (x >>= k) Q' :=
  h.bind (Grown.refl a : Grown p g [] a a) hk

/-- The analysis may go on before the next part. -/
theorem grown (h : Leads bs p g a m c x Q) (hr : Ready (bs ++ [p, g]) a)
    (hg : Grown p g (bs ++ [p, g]) a a') : Leads bs p g a' m c x Q where
  reported span hs := (h.reported span hs).imp_right (·.grown hg)
  ends v c' heq := by
    obtain ⟨m', hl, hcov, hv⟩ := h.ends v c' heq
    exact ⟨m', hl, hcov.grown hr hg, hv⟩

/-- The property of the result may be weakened. -/
theorem imp {Q' : Chart → α → Prop} (h : Leads bs p g a m c x Q)
    (hq : ∀ m' v, Q m' v → Q' m' v) : Leads bs p g a m c x Q' where
  reported := h.reported
  ends v c' heq := by
    obtain ⟨m', hl, hcov, hv⟩ := h.ends v c' heq
    exact ⟨m', hl, hcov, hq m' v hv⟩

end Leads

end

end Execution

end FrozenGlobals
