import FrozenGlobals.Proofs.Analysis.Origin
import FrozenGlobals.Proofs.Discipline.Evaluation

/-!
# Everything only grows

Updates are weak: whatever is evaluated, from whatever state, containers keep what they hold, and
what was thrown, reported, warned about and recorded stays. `State.Grows` says so of two states, and
`Setup.everything_grows` of every activity of the evaluation, of whole analyses and of failures too.

Reports are made at the outermost call through which external code is reached, if there is one.
`State.ReportsUnder` keeps track of that, and goes into the same discipline (`Discipline.growth`).
-/

namespace FrozenGlobals

open Run Discipline
open Script (Span Node)

/-! ## Growing containers -/

/-- A container holds in each slot what it held there before. -/
inductive Contents.Grows : Contents → Contents → Prop
  | object {o o' : ObjectCell} :
      (∀ name r, o.slot? name = some r → ∃ r', o'.slot? name = some r' ∧ ∀ v ∈ r, v ∈ r') →
      (∀ r, o.wildcard = some r → ∃ r', o'.wildcard = some r' ∧ ∀ v ∈ r, v ∈ r') →
      Grows (.object o) (.object o')
  | array {a a' : ArrayCell} : (∀ v ∈ a.elements, v ∈ a'.elements) → (a.named → a'.named) →
      Grows (.array a) (.array a')

namespace Contents.Grows

/-- Contents grow to themselves. -/
theorem refl (c : Contents) : c.Grows c := by
  cases c with
  | object o =>
    exact .object (fun _ r h => ⟨r, h, fun _ hv => hv⟩) fun r h => ⟨r, h, fun _ hv => hv⟩
  | array a => exact .array (fun _ h => h) fun h => h

/-- Growth of contents is transitive. -/
theorem trans {c₁ c₂ c₃ : Contents} (h : c₁.Grows c₂) (h' : c₂.Grows c₃) : c₁.Grows c₃ := by
  cases h with
  | object hs hw =>
    cases h' with
    | object hs' hw' =>
      refine .object (fun name r hr => ?_) fun r hr => ?_
      · obtain ⟨r₂, hr₂, hsub⟩ := hs name r hr
        obtain ⟨r₃, hr₃, hsub'⟩ := hs' name r₂ hr₂
        exact ⟨r₃, hr₃, fun v hv => hsub' v (hsub v hv)⟩
      · obtain ⟨r₂, hr₂, hsub⟩ := hw r hr
        obtain ⟨r₃, hr₃, hsub'⟩ := hw' r₂ hr₂
        exact ⟨r₃, hr₃, fun v hv => hsub' v (hsub v hv)⟩
  | array he hn =>
    cases h' with
    | array he' hn' => exact .array (fun v hv => he' v (he v hv)) fun h => hn' (hn h)

/-- A write keeps what was there. -/
theorem set (c : Contents) (k : Key) (r : Reference) : c.Grows (c.set k r) := by
  cases c with
  | object o =>
    cases k with
    | any =>
      refine .object (fun name s hs => ⟨s, hs, fun _ hv => hv⟩) fun s hs => ?_
      refine ⟨_, ObjectCell.wildcard_set_any o r, fun v hv => Reference.mem_union.2 (.inl ?_)⟩
      simpa [hs] using hv
    | name key =>
      refine .object (fun name s hs => ?_) fun s hs => ⟨s, hs, fun _ hv => hv⟩
      rw [ObjectCell.slot?_set_name]
      by_cases hname : name = key
      · subst hname
        rw [if_pos rfl]
        refine ⟨_, rfl, fun v hv => Reference.mem_union.2 (.inl ?_)⟩
        simpa [hs] using hv
      · rw [if_neg hname]
        exact ⟨s, hs, fun _ hv => hv⟩
  | array a =>
    refine .array (fun v hv => ArrayCell.mem_elements_set.2 (.inl hv)) fun h => ?_
    unfold ArrayCell.set
    split
    · exact h
    · simp [h]

end Contents.Grows

namespace Heap

/-- Every container is still there and has grown. -/
def Grows (h h' : Heap) : Prop :=
  ∀ v c, h.contents v = some c → ∃ c', h'.contents v = some c' ∧ c.Grows c'

/-- A heap grows to itself. -/
theorem Grows.refl (h : Heap) : h.Grows h := fun _ c hc => ⟨c, hc, .refl c⟩

/-- Growth of heaps is transitive. -/
theorem Grows.trans {h₁ h₂ h₃ : Heap} (h : h₁.Grows h₂) (h' : h₂.Grows h₃) : h₁.Grows h₃ := by
  intro v c hc
  obtain ⟨c₂, hc₂, hgrows⟩ := h v c hc
  obtain ⟨c₃, hc₃, hgrows'⟩ := h' v c₂ hc₂
  exact ⟨c₃, hc₃, hgrows.trans hgrows'⟩

/-- A heap with the same contents has grown. -/
theorem Grows.of_contents {h h' : Heap} (heq : h'.contents = h.contents) : h.Grows h' :=
  fun v c hc => ⟨c, by rw [heq, hc], .refl c⟩

/-- A new object leaves the other containers as they are. -/
theorem grows_addObject (h : Heap) (o : ObjectCell) : h.Grows (h.addObject o).2 := by
  intro v c hc
  refine ⟨c, ?_, .refl c⟩
  rw [contents_addObject]
  split
  · next heq =>
    rw [heq, contents_addObject_fresh] at hc
    cases hc
  · exact hc

/-- A new array leaves the other containers as they are. -/
theorem grows_addArray (h : Heap) (r : Reference) : h.Grows (h.addArray r).2 := by
  intro v c hc
  refine ⟨c, ?_, .refl c⟩
  rw [contents_addArray]
  split
  · next heq =>
    rw [heq, contents_addArray_fresh] at hc
    cases hc
  · exact hc

/-- A write to one value keeps what all containers hold. -/
theorem grows_setKeyOf (h : Heap) (k : Key) (r : Reference) (v : Value) :
    h.Grows (h.setKeyOf k r v) := by
  intro w c hc
  rw [contents_setKeyOf]
  split
  · next heq =>
    rw [← heq, hc]
    exact ⟨_, rfl, .set c k r⟩
  · exact ⟨c, hc, .refl c⟩

/-- A write to all possibilities of a reference keeps what all containers hold. -/
theorem grows_setKey (h : Heap) (r : Reference) (k : Key) (v : Reference) :
    h.Grows (h.setKey r k v) := by
  intro w c hc
  rw [contents_setKey]
  split
  · rw [hc]
    exact ⟨_, rfl, .set c k v⟩
  · exact ⟨c, hc, .refl c⟩

end Heap

/-! ## Growing conversions -/

/-- The paths recorded stay the ones found. -/
def Provenance.Extends (p q : Provenance) : Prop := p.entries <+: q.entries

/-- Recording a path keeps the paths that were recorded before. -/
theorem Provenance.extends_record (p : Provenance) (v : Value) (path : Path) :
    p.Extends (p.record v path) := by
  unfold record
  split
  · exact List.prefix_refl _
  · exact List.prefix_append _ _

namespace Host.Conversion

/-- A conversion adds containers and paths. It creates no functions. -/
structure Extends (c c' : Conversion) : Prop where
  heap : c.heap.Grows c'.heap
  frames : c.heap.frames.toList <+: c'.heap.frames.toList
  closures : c'.heap.closures = c.heap.closures
  provenance : c.provenance.Extends c'.provenance

/-- A conversion extends itself. -/
theorem Extends.refl (c : Conversion) : c.Extends c :=
  ⟨.refl _, List.prefix_refl _, rfl, List.prefix_refl _⟩

/-- Extending conversions is transitive. -/
theorem Extends.trans {c₁ c₂ c₃ : Conversion} (h : c₁.Extends c₂) (h' : c₂.Extends c₃) :
    c₁.Extends c₃ :=
  ⟨h.heap.trans h'.heap, h.frames.trans h'.frames, h'.closures.trans h.closures,
    h.provenance.trans h'.provenance⟩

/-- Entering a container adds it and its path. -/
theorem extends_enter (c : Conversion) (k : Container) (id : Nat) (path : Path) :
    c.Extends (c.enter k id path).2 := by
  cases k with
  | object entries absent =>
    exact ⟨Heap.grows_addObject _ _, List.prefix_refl _, rfl, Provenance.extends_record ..⟩
  | array items shared =>
    exact ⟨Heap.grows_addArray _ _, List.prefix_refl _, rfl, Provenance.extends_record ..⟩
  | keyedBy kind => exact .refl c

/-- Writing a part of a container adds to what it holds. -/
theorem extends_write (c : Conversion) (v : Value) (k : Key) (part : Value) :
    c.Extends (c.write v k part) := by
  refine ⟨Heap.grows_setKeyOf _ _ _ _, ?_, ?_, List.prefix_refl _⟩
  · cases v <;> exact List.prefix_refl _
  · cases v <;> rfl

section
variable {R : Conversion → Conversion → Prop} (hrefl : ∀ c, R c c)
  (htrans : ∀ {c₁ c₂ c₃}, R c₁ c₂ → R c₂ c₃ → R c₁ c₃)
  (henter : ∀ c k id path, R c (enter c k id path).2)
    (hwrite : ∀ c v k part, R c (c.write v k part))
include hrefl htrans

/-- What single steps keep is kept by a loop. -/
theorem foldl_of_steps {α : Type} {f : Conversion → α → Conversion} (hf : ∀ c x, R c (f c x))
    (xs : List α) (c : Conversion) : R c (xs.foldl f c) := by
  induction xs generalizing c with
  | nil => exact hrefl c
  | cons x xs ih => exact htrans (hf c x) (ih _)

include henter hwrite

/-- A conversion enters containers and writes their parts. -/
theorem convert_of_steps (g : Graph) (levels : Nat) (c : Conversion) (path : Path) (d : Datum) :
    R c (convert g levels c path d).2 := by
  induction levels generalizing c path d with
  | zero => exact hrefl c
  | succ levels ih =>
    cases d with
    | container id =>
      cases hl : c.known.lookup id with
      | some v =>
        rw [convert]
        simp only [hl]
        exact hrefl c
      | none =>
        by_cases hk : ∃ k, g.find? id = some k ∧ k.isVisible
        · obtain ⟨k, hk, hv⟩ := hk
          rw [convert_container hl hk hv]
          refine htrans (henter c k id path) (foldl_of_steps hrefl htrans (fun c part => ?_) _ _)
          exact htrans (ih ..) (hwrite ..)
        · rw [convert_hidden hl fun k hk' => by
            by_contra hne
            exact hk ⟨k, hk', by simpa using hne⟩]
          exact hrefl c
    | _ => exact hrefl c

/-- The globals are converted one after another, and bound in a new frame. -/
theorem frame_of_steps (hframe : ∀ c f, R c { c with heap := (c.heap.addFrame f).2 }) (g : Graph)
    (c : Conversion) (entries : List (String × Datum)) : R c (frame g c entries).2 := by
  have hloop : ∀ (entries : List (String × Datum)) (f : Frame) (c : Conversion),
      R c (entries.foldl (fun fc e =>
        (fc.1.define e.1 (.known (.single (convert g (depth g) fc.2 [.key e.1] e.2).1)),
          (convert g (depth g) fc.2 [.key e.1] e.2).2)) (f, c)).2 := by
    intro entries
    induction entries with
    | nil => exact fun _ c => hrefl c
    | cons e entries ih =>
      exact fun f c => htrans (convert_of_steps hrefl htrans henter hwrite ..) (ih _ _)
  exact htrans (hloop entries Frame.empty c) (hframe ..)

end

/-- Whatever was made before a conversion is kept by it. -/
theorem extends_frame (g : Graph) (c : Conversion) (entries : List (String × Datum)) :
    c.Extends (frame g c entries).2 :=
  frame_of_steps .refl .trans extends_enter extends_write
    (fun _ _ => ⟨.of_contents rfl, Array.toList_push ▸ List.prefix_append _ _, rfl,
      List.prefix_refl _⟩) g c entries

end Host.Conversion

/-! ## Growing states -/

/-- Containers, thrown values, diagnostics, warnings and recorded paths are kept. -/
structure State.Grows (s s' : State) : Prop where
  containers : ∀ v c, s.heap.contents v = some c →
    ∃ c', s'.heap.contents v = some c' ∧ c.Grows c'
  thrown : ∀ v ∈ s.thrown, v ∈ s'.thrown
  diagnostics : s.diagnostics.toList <+: s'.diagnostics.toList
  warnings : s.warnings.toList <+: s'.warnings.toList
  paths : ∀ v path, s.provenance.find? v = some path → s'.provenance.find? v = some path

/-- Under a call of the analyzed program, reports are made there. -/
def State.ReportsUnder (s s' : State) : Prop :=
  ∃ own, s'.diagnostics.toList = s.diagnostics.toList ++ own ∧
    ∀ a ∈ s.anchors.head?, ∀ d ∈ own, d.span = a

namespace State

/-- A state grows to itself. -/
theorem Grows.refl (s : State) : s.Grows s :=
  ⟨Heap.Grows.refl _, fun _ h => h, List.prefix_refl _, List.prefix_refl _, fun _ _ h => h⟩

/-- Growth of states is transitive. -/
theorem Grows.trans {s₁ s₂ s₃ : State} (h : s₁.Grows s₂) (h' : s₂.Grows s₃) : s₁.Grows s₃ :=
  ⟨Heap.Grows.trans h.containers h'.containers, fun v hv => h'.thrown v (h.thrown v hv),
    h.diagnostics.trans h'.diagnostics, h.warnings.trans h'.warnings,
    fun v path hv => h'.paths v path (h.paths v path hv)⟩

/-- Nothing but the heap and bookkeeping changed. -/
theorem Grows.of_heap {s s' : State} (hg : s.heap.Grows s'.heap)
    (ht : s'.thrown = s.thrown := by rfl)
    (hd : s'.diagnostics = s.diagnostics := by rfl) (hw : s'.warnings = s.warnings := by rfl)
    (hp : s'.provenance = s.provenance := by rfl) : s.Grows s' :=
  ⟨hg, fun _ h => ht ▸ h, hd ▸ List.prefix_refl _, hw ▸ List.prefix_refl _, fun _ _ h => hp ▸ h⟩

/-- Every single change lets a state grow. -/
theorem Change.grows {setup : Setup} {scope : Stack → Prop} {code : Nat → Script.Function → Prop}
    {place : Nat → Span → Prop} {s s' : State} (h : Change setup scope code place s s') :
    s.Grows s' := by
  cases h with
  | note => exact .of_heap (.refl _)
  | @warn message _ => exact { Grows.refl s with warnings := by simp }
  | @skip skip _ => exact { Grows.refl s with warnings := skip.warnings_prefix .. }
  | report => exact { Grows.refl s with diagnostics := by simp }
  | throws r =>
    exact { Grows.refl s with thrown := fun v hv => Reference.mem_union.2 (.inl hv) }
  | object o => exact .of_heap (Heap.grows_addObject _ _)
  | array r => exact .of_heap (Heap.grows_addArray _ _)
  | frame f => exact .of_heap (.of_contents rfl)
  | accessor id a => exact .of_heap (.of_contents rfl)
  | define frame name o => exact .of_heap (.of_contents rfl)
  | setKey r k v => exact .of_heap (Heap.grows_setKey _ _ _ _)
  | closure name => exact .of_heap (.of_contents rfl)
  | @convert root entries _ =>
    have h := Host.Conversion.extends_frame setup.graph s.conversion entries
    exact { Grows.refl s with
      containers := h.heap
      paths := fun v path hv => Provenance.find?_of_isPrefix h.provenance hv }

/-- Without new reports there are none under a call. -/
theorem ReportsUnder.of_eq {s s' : State} (h : s'.diagnostics = s.diagnostics) :
    s.ReportsUnder s' := ⟨[], by simp [h], by simp⟩

/-- Reports made after one another under the same call are reports under it. -/
theorem ReportsUnder.trans {s₁ s₂ s₃ : State} (h : s₁.ReportsUnder s₂) (h' : s₂.ReportsUnder s₃)
    (ha : s₂.anchors = s₁.anchors) : s₁.ReportsUnder s₃ := by
  obtain ⟨own, heq, hown⟩ := h
  obtain ⟨own', heq', hown'⟩ := h'
  refine ⟨own ++ own', by rw [heq', heq, List.append_assoc], fun a hmem d hd => ?_⟩
  rcases List.mem_append.1 hd with hd | hd
  · exact hown a hmem d hd
  · exact hown' a (ha ▸ hmem) d hd

/-- Every single change reports under the current call of the analyzed program. -/
theorem Change.reportsUnder {setup : Setup} {scope : Stack → Prop}
    {code : Nat → Script.Function → Prop} {place : Nat → Span → Prop} {s s' : State}
    (h : Change setup scope code place s s') : s.ReportsUnder s' := by
  cases h with
  | @report site path message _ _ =>
    refine ⟨[diagnosticAt s site message path], by simp, fun a ha d hd => ?_⟩
    rw [List.mem_singleton.1 hd, diagnosticAt, Option.mem_def.1 ha]
    rfl
  | _ => exact .of_eq rfl

end State

/-- A state has grown, at the same position, by reports under the calls of that position. -/
structure State.Later (s s' : State) : Prop where
  grows : s.Grows s'
  reports : s.ReportsUnder s'
  position : s'.position = s.position

/-- A state is later than itself. -/
theorem State.Later.refl (s : State) : s.Later s := ⟨.refl s, .of_eq rfl, rfl⟩

/-- Being later is transitive. -/
theorem State.Later.trans {s₁ s₂ s₃ : State} (h : s₁.Later s₂) (h' : s₂.Later s₃) :
    s₁.Later s₃ where
  grows := h.grows.trans h'.grows
  reports := h.reports.trans h'.reports (congrArg Position.anchors h.position)
  position := h'.position.trans h.position

/-- Growth between two states that differ in nothing but bookkeeping from two others. -/
theorem State.Grows.of_grows {s t s' t' : State} (h : t.Grows t')
    (hs : (t.heap, t.thrown, t.diagnostics, t.warnings, t.provenance) =
      (s.heap, s.thrown, s.diagnostics, s.warnings, s.provenance))
    (hs' : (t'.heap, t'.thrown, t'.diagnostics, t'.warnings, t'.provenance) =
      (s'.heap, s'.thrown, s'.diagnostics, s'.warnings, s'.provenance)) : s.Grows s' := by
  simp only [Prod.mk.injEq] at hs hs'
  obtain ⟨hh, ht, hd, hw, hp⟩ := hs
  obtain ⟨hh', ht', hd', hw', hp'⟩ := hs'
  constructor
  · rw [← hh, ← hh']
    exact h.containers
  · rw [← ht, ← ht']
    exact h.thrown
  · rw [← hd, ← hd']
    exact h.diagnostics
  · rw [← hw, ← hw']
    exact h.warnings
  · rw [← hp, ← hp']
    exact h.paths

/-! ## The discipline -/

/-- What is reported on behalf of a call inside external code is reported where that code
reports. -/
theorem State.Later.leave_anchor {s s' : State} {span : Span}
    (h : State.Later { s with anchors := s.position.anchor span :: s.anchors } s') :
    s.Later { s' with anchors := s.anchors } where
  grows := h.grows.of_grows rfl rfl
  reports := by
    obtain ⟨own, heq, hown⟩ := h.reports
    refine ⟨own, heq, fun b hb d hd => hown b ?_ d hd⟩
    simp [Position.anchor, State.position, Option.mem_def.1 hb]
  position := by
    have hp : s'.position = ⟨s.unit, s.depth, s.position.anchor span :: s.anchors⟩ := h.position
    simp only [State.position, Position.mk.injEq] at hp ⊢
    exact ⟨hp.1, hp.2.1, trivial⟩

/-- What happens while another program runs happens later. -/
theorem State.Later.leave_unit {s s' : State} {u : Nat}
    (h : State.Later { s with unit := u } s') : s.Later { s' with unit := s.unit } where
  grows := h.grows.of_grows rfl rfl
  reports := h.reports
  position := by
    have hp : s'.position = ⟨u, s.depth, s.anchors⟩ := h.position
    simp only [State.position, Position.mk.injEq] at hp ⊢
    exact ⟨trivial, hp.2⟩

/-- What happens in a call happens later. -/
theorem State.Later.returned {s s' : State} {key : FunctionKey} (h : (s.called key).Later s') :
    s.Later (s'.returned key) where
  grows := h.grows.of_grows rfl rfl
  reports := h.reports
  position := by
    have hp : s'.position = ⟨s.unit, s.depth + 1, s.anchors⟩ := h.position
    simp only [State.position, State.returned, Position.mk.injEq] at hp ⊢
    exact ⟨hp.1, by omega, hp.2.2⟩

/-- States grow, whatever they are and whatever is evaluated. -/
def Discipline.growth (setup : Setup) : Discipline setup where
  inv _ := True
  le := State.Later
  fails _ := True
  lost _ := False
  scope _ := True
  code _ _ := True
  unit _ := True
  enters _ _ := True
  refl := State.Later.refl
  trans := State.Later.trans
  position h := h.position
  change _ h := ⟨trivial, h.grows, h.reportsUnder, h.position⟩
  inUnit _ _ := ⟨trivial, fun _ h => ⟨trivial, h.leave_unit⟩⟩
  closure _ _ := ⟨trivial, fun _ _ => trivial⟩
  push _ _ := trivial
  framed _ := .inr trivial
  root _ := trivial
  opens _ _ := .inr trivial
  hoisted _ _ _ _ := trivial
  runnable _ := trivial
  external _ := trivial
  missing _ _ := trivial
  expected _ := trivial
  fails_within _ _ := trivial
  lost_within _ h := h

instance (setup : Setup) : (Discipline.growth setup).Alone := ⟨rfl, fun _ _ _ => id, fun _ => id⟩

instance (setup : Setup) : (Discipline.growth setup).Counting :=
  ⟨fun _ _ _ => ⟨trivial, fun _ h => ⟨trivial, h.returned⟩⟩⟩

/-- Everything may be evaluated everywhere. -/
def Licence.all : Licence := ⟨fun _ _ => True, fun _ _ _ => True⟩

/-- A discipline under which everything may be evaluated everywhere. -/
class Discipline.Open {setup : Setup} (D : Discipline setup) : Prop where
  scope : ∀ stack, D.scope stack
  code : ∀ u fn, D.code u fn
  place : ∀ u span, D.place u span
  enters : ∀ u start, D.enters u start
  fails : ∀ f, D.fails f
  anchored : ∀ {s} (span), D.inv s →
    State.Brackets D.inv D.le s { s with anchors := s.position.anchor span :: s.anchors }
      ({ · with anchors := s.anchors })

instance (setup : Setup) : (Discipline.growth setup).Open where
  scope _ := trivial
  code _ _ := trivial
  place _ _ := trivial
  enters _ _ := trivial
  fails _ := trivial
  anchored _ _ := ⟨trivial, fun _ h => ⟨trivial, h.leave_anchor⟩⟩

section
variable {setup : Setup} {D : Discipline setup} [hD : D.Open]
include hD

/-- Where everything may be evaluated, calls may be followed into external code. -/
theorem Licence.follows_all (p : Position) (span : Span) : Licence.all.Follows D p span where
  program _ _ := hD.scope _
  anchor s hs hp := by
    subst hp
    exact hD.anchored span hs
  implement _ _ _ _ _ := trivial
  handler _ _ := trivial

/-- What is licensed everywhere is licensed one level below. -/
theorem Licence.lifts_all : Licence.all.Lifts .all D where
  opens _ _ := hD.enters _ _
  part _ _ _ _ := trivial
  place _ _ := hD.place _ _
  call _ _ := trivial
  site _ := .inr (hD.place _ _)
  function _ := hD.code _ _
  native _ _ _ _ _ := trivial
  enter _ := fun _ _ _ _ _ => trivial
  follow _ _ := follows_all _ _

/-- Two analyses give up where there are no levels left. -/
theorem Evaluator.agrees_zero : Agrees D .all (ofFuel 0) (ofFuel 0) :=
  ⟨fun _ _ => hD.enters _ _, fun _ _ => .throw fun _ _ _ => hD.fails _,
    fun _ _ _ => .throw fun _ _ _ => hD.fails _, fun _ _ => .throw fun _ _ _ => hD.fails _,
    fun _ => .throw fun _ _ _ => hD.fails _⟩

/-- Two analyses agree at every level. -/
theorem Evaluator.agrees_all [D.Level] [D.Counting] (n : Nat) :
    Agrees D .all (ofFuel n) (ofFuel n) := by
  induction n with
  | zero => exact agrees_zero
  | succ n ih => exact ih.step Licence.lifts_all

end

/-- Every level of the evaluation keeps growth. -/
theorem Evaluator.agrees_growth (setup : Setup) (n : Nat) :
    Agrees (Discipline.growth setup) .all (ofFuel n) (ofFuel n) := agrees_all n

/-! ## What grows -/

namespace Setup

/-- The state after a computation, whether it ends or fails. -/
def stateAfter {α : Type} (setup : Setup) (x : Run α) (s : State) : State :=
  match x setup s with
  | .ok _ s' => s'
  | .error _ s' => s'

/-- A computation lets every state grow. -/
def Grows {α : Type} (setup : Setup) (x : Run α) : Prop :=
  ∀ s : State, s.Grows (setup.stateAfter x s)

/-- Where a computation that keeps a discipline ends, if it cannot give up. -/
theorem le_of_keeps {setup : Setup} {D : Discipline setup} [D.Alone] (hlost : ∀ f, ¬ D.lost f)
    {α : Type} {x : Run α} {Q : α → Prop} {s : State} (h : D.AgreeAt s x x Q) :
    D.le s (setup.stateAfter x s) := by
  have h := h.alone
  unfold stateAfter
  cases hx : x setup s with
  | ok a s' =>
    rw [hx] at h
    exact h.2.2.1
  | error e s' =>
    rw [hx] at h
    exact (h.resolve_left (hlost e)).2.2.1

/-- A computation that leads from every state to a greater one keeps a discipline that does not
restrict states and failures. -/
theorem keeps_of_le {setup : Setup} {D : Discipline setup} [D.Alone] (hinv : ∀ s, D.inv s)
    (hfails : ∀ f, D.fails f) {α : Type} {x : Run α} {p : Position}
    (h : ∀ s : State, D.le s (setup.stateAfter x s)) : D.Keeps p x fun _ => True := by
  refine ⟨fun s _ _ => ?_⟩
  have h := h s
  unfold stateAfter at h
  unfold AgreeAt
  rw [Alone.twin (D := D)]
  cases hx : x setup s with
  | ok a s' =>
    rw [hx] at h
    exact ⟨.refl _ _, hinv s', h, trivial⟩
  | error e s' =>
    rw [hx] at h
    exact .inr ⟨.refl _ _, hinv s', h, hfails e⟩

/-- What keeps growth leads to a later state. -/
theorem later_of_keeps {setup : Setup} {α : Type} {x : Run α} {Q : α → Prop}
    (h : ∀ p, (Discipline.growth setup).Keeps p x Q) (s : State) :
    s.Later (setup.stateAfter x s) := le_of_keeps (fun _ => id) ((h s.position).run s trivial rfl)

/-- What keeps growth lets every state grow. -/
theorem grows_of_keeps {setup : Setup} {α : Type} {x : Run α} {Q : α → Prop}
    (h : ∀ p, (Discipline.growth setup).Keeps p x Q) : setup.Grows x := fun s =>
  (later_of_keeps h s).grows

end Setup

/-- The activities of an evaluator lead from every state to one that is related to it. -/
structure Evaluator.Throughout (setup : Setup) (R : State → State → Prop)
    (E : Evaluator) : Prop where
  resolve : ∀ e stack s, R s (setup.stateAfter (E.resolve e stack) s)
  bind : ∀ how target init stack s, R s (setup.stateAfter (E.bind how target init stack) s)
  walk : ∀ fold st stack s, R s (setup.stateAfter (E.walk fold st stack) s)
  invoke : ∀ v c s, R s (setup.stateAfter (E.invoke v c) s)

/-- Such an evaluator keeps a discipline that does not restrict states and failures. -/
theorem Evaluator.Throughout.agrees {setup : Setup} {D : Discipline setup} [D.Alone] {E : Evaluator}
    (hE : E.Throughout setup D.le) (hinv : ∀ s, D.inv s) (hfails : ∀ f, D.fails f)
    (henters : ∀ u start, D.enters u start) : Agrees D .all E E where
  opens _ _ := henters _ _
  resolve _ _ := Setup.keeps_of_le hinv hfails (hE.resolve _ _)
  bind _ _ _ := Setup.keeps_of_le hinv hfails (hE.bind _ _ _ _)
  walk _ _ := Setup.keeps_of_le hinv hfails (hE.walk _ _ _)
  invoke _ := Setup.keeps_of_le hinv hfails (hE.invoke _ _)

namespace Setup

/-- Something is true of every activity, every call, native method and resolution of callbacks at a
level, and of every analysis. -/
structure Everywhere (setup : Setup) (P : ∀ {α : Type}, Run α → Prop) (n : Nat) : Prop where
  resolve : ∀ e stack, P ((Evaluator.ofFuel n).resolve e stack)
  bind : ∀ how target init stack, P ((Evaluator.ofFuel n).bind how target init stack)
  walk : ∀ fold s stack, P ((Evaluator.ofFuel n).walk fold s stack)
  invoke : ∀ v c, P ((Evaluator.ofFuel n).invoke v c)
  call : ∀ span callee args stack, P ((Evaluator.ofFuel n).call span callee args stack)
  callBuiltin : ∀ b c, P ((Evaluator.ofFuel n).callBuiltin b c)
  followCallbacks : ∀ resolver path c, setup.resolver = some resolver →
    P ((Evaluator.ofFuel n).followCallbacks resolver path c)
  report : ∀ globals, P (setup.report globals)
  evaluation : ∀ globals, P (setup.evaluation globals)

/-- What is true of all that keeps an open discipline is true everywhere. -/
theorem everywhere_of_keeps {setup : Setup} {D : Discipline setup} [D.Level] [D.Counting]
    [hD : D.Open] {P : ∀ {α : Type}, Run α → Prop}
    (hP : ∀ {α : Type} {x : Run α} {Q : α → Prop}, (∀ p, D.Keeps p x Q) → P x) (n : Nat) :
    setup.Everywhere P n := by
  have hE : Evaluator.Agrees D .all (.ofFuel n) (.ofFuel n) := Evaluator.agrees_all n
  have hunit : ∀ u, D.unit u := fun u => D.runnable (hD.code u default)
  have hprogram : ∀ p frame, D.Keeps p (setup.evaluator.runProgram 0 [frame]) fun _ => True :=
    fun p frame => (Evaluator.agrees_all setup.fuel).runProgram (hunit 0) (fun _ => hD.scope _)
      fun _ _ => trivial
  exact {
    resolve := fun e stack => hP fun p => hE.resolve (hD.scope _) trivial
    bind := fun how target init stack => hP fun p =>
      hE.bind (hD.scope _) (fun _ _ => hD.place _ _) trivial
    walk := fun fold s stack => hP fun p => hE.walk (hD.scope _) trivial
    invoke := fun v c => hP fun p => hE.invoke trivial
    call := fun span callee args stack => hP fun p => hE.call (hD.scope _)
      ⟨fun _ _ _ => trivial, fun _ => hD.place _ _, fun _ => trivial⟩
      fun _ => Licence.follows_all p span
    callBuiltin := fun b c => hP fun p => hE.callBuiltin (fun _ _ _ _ => trivial) b (hD.place _ _)
    followCallbacks := fun resolver path c hr => hP fun p =>
      hE.followCallbacks hr (Licence.follows_all p _) path
    report := fun globals => hP (Q := fun _ => True) fun p => by
      unfold Setup.report
      cases setup.programs[0]? with
      | none => exact .throw fun _ _ _ => hD.fails _
      | some main =>
        refine (Agree.newGlobals globals).bind fun frame _ => Agree.log.seq ?_
        exact (hprogram p frame).bind fun _ _ => .get fun _ _ _ => Agree.log.seq (.pure trivial)
    evaluation := fun globals => hP (Q := fun _ => True) fun p => by
      have hrun : D.Keeps p (do
          let frame ← newGlobals globals
          return ⟨frame, ← setup.evaluator.runProgram 0 [frame]⟩ : Run Evaluation) fun _ => True :=
        (Agree.newGlobals globals).bind fun frame _ =>
          (hprogram p frame).bind fun _ _ => .pure trivial
      unfold Setup.evaluation
      split
      · exact Agree.bind (Q := fun _ => True) (.throw fun _ _ _ => hD.fails _) fun _ _ => hrun
      · exact hrun }

/-- Everything only grows: from every state, every activity at every level, every call, native
method and resolution of callbacks, and every analysis, keeps all containers with what each of their
slots holds, everything thrown, the diagnostics and warnings as prefixes, and the recorded paths. -/
theorem everything_grows (setup : Setup) (n : Nat) :
    (∀ e stack, setup.Grows ((Evaluator.ofFuel n).resolve e stack)) ∧
    (∀ how target init stack, setup.Grows ((Evaluator.ofFuel n).bind how target init stack)) ∧
    (∀ fold s stack, setup.Grows ((Evaluator.ofFuel n).walk fold s stack)) ∧
    (∀ v c, setup.Grows ((Evaluator.ofFuel n).invoke v c)) ∧
    (∀ span callee args stack,
      setup.Grows ((Evaluator.ofFuel n).call span callee args stack)) ∧
    (∀ b c, setup.Grows ((Evaluator.ofFuel n).callBuiltin b c)) ∧
    (∀ resolver path c, setup.resolver = some resolver →
      setup.Grows ((Evaluator.ofFuel n).followCallbacks resolver path c)) ∧
    ∀ globals, setup.Grows (setup.report globals) ∧ setup.Grows (setup.evaluation globals) := by
  have h : setup.Everywhere setup.Grows n := everywhere_of_keeps grows_of_keeps n
  exact ⟨h.resolve, h.bind, h.walk, h.invoke, h.call, h.callBuiltin, h.followCallbacks,
    fun globals => ⟨h.report globals, h.evaluation globals⟩⟩

end Setup

/-- Globals in which `g` is an empty object. -/
def emptyGlobal : Host.Graph := ⟨#[.object [("g", .container 1)] false, .object [] false]⟩

/-- Globals with one empty object are well-formed. -/
theorem grounded_emptyGlobal : emptyGlobal.Grounded := Host.Graph.grounded_of_shared (by decide)

/-- They have one name, bound to that object. -/
theorem globals_emptyGlobal : emptyGlobal.globals (.container 0) = .ok [("g", .container 1)] := by
  have hsort : Host.Graph.sortedEntries [("g", .container 1)] = [("g", .container 1)] := by
    simp [Host.Graph.sortedEntries]
  exact congrArg Except.ok hsort

/-- Finds a program for one path only. It runs against the globals of the analyzed program. -/
def Resolver.only (path : Path) (unit : Nat) : Resolver := fun p =>
  .ok (if p = path then [⟨some unit, .container 0⟩] else [])

/-- The program `g.f();`. The program `() => g;` is registered for `g.f`, and runs against the same
globals. -/
def handledCall : Setup where
  options := { Options.standard with maxCallDepth := 1 }
  programs := #[
    .ofProgram ⟨"script", "g.f();", [.expression (.call ⟨0, 5⟩
      (.dot ⟨0, 3⟩ (.identifier ⟨"g", ⟨0, 1⟩⟩) "f") [])]⟩,
    .ofProgram ⟨"handler", "() => g;", [.expression (.function (.mk ⟨0, 7⟩ true none
      (.mk ⟨0, 2⟩ [] none) (.expression (.identifier ⟨"g", ⟨6, 7⟩⟩))))]⟩]
  graph := emptyGlobal
  resolver := some (.only [.key "g", .key "f"] 1)
  canceled := false

/-- In this analysis, callbacks let every state grow, whatever path they are found for. -/
theorem everything_grows_handledCall :
    ∃ resolver, handledCall.resolver = some resolver ∧ ∀ n path c,
      handledCall.Grows ((Evaluator.ofFuel n).followCallbacks resolver path c) :=
  ⟨_, rfl, fun n path c =>
    (Setup.everything_grows handledCall n).2.2.2.2.2.2.1 _ path c rfl⟩

end FrozenGlobals
