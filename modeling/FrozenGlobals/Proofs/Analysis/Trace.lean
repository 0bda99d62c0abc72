import FrozenGlobals.Analysis.State
import FrozenGlobals.Proofs.Host.Globals

/-!
# Traces of an analysis

What an analysis does to its state, one change after another. A `World` is a state together with
the frames that hold globals. `Runs setup w events w'` says that a run leads from one world to
another through `events`; its rules are all an analysis can do, and two of them are operations
rather than single changes: a write to containers is preceded by its own check of the target, and so
is a new binding of a global name.

`Runs.le` says how worlds grow, whatever happens. `Runs.contents_or_write`, `Runs.frame_or_rebind`
and `Runs.entry_or_convert` find the event behind every change of a container, of a globals frame
and of the recorded paths.
-/

namespace FrozenGlobals

/-- The possibilities of an operand in a state. -/
def Operand.now (o : Operand) (s : State) : Reference :=
  match o with
  | .known r => r
  | .thrown => s.thrown

/-- A container is in the heap. Other values always are. -/
def Heap.Exists (h : Heap) (v : Value) : Prop := v.isContainer → (h.contents v).isSome

namespace State

/-- What conversions of globals have made so far. -/
def conversion (s : State) : Host.Conversion := ⟨s.heap, s.provenance, s.known⟩

/-- The state after a conversion. -/
def withConversion (s : State) (c : Host.Conversion) : State :=
  { s with heap := c.heap, provenance := c.provenance, known := c.known }

/-- Between two states there was nothing but bookkeeping and the reports `own`. -/
structure Checks (s : State) (own : List Diagnostic) (s' : State) : Prop where
  heap : s'.heap = s.heap
  provenance : s'.provenance = s.provenance
  known : s'.known = s.known
  thrown : s'.thrown = s.thrown
  diagnostics : s'.diagnostics.toList = s.diagnostics.toList ++ own

/-- Nothing was checked between a state and itself. -/
theorem Checks.refl (s : State) : s.Checks [] s := ⟨rfl, rfl, rfl, rfl, by simp⟩

/-- Checks add up, reports in order. -/
theorem Checks.trans {s₁ s₂ s₃ : State} {own own' : List Diagnostic} (h : s₁.Checks own s₂)
    (h' : s₂.Checks own' s₃) : s₁.Checks (own ++ own') s₃ :=
  ⟨h'.heap.trans h.heap, h'.provenance.trans h.provenance, h'.known.trans h.known,
    h'.thrown.trans h.thrown, by rw [h'.diagnostics, h.diagnostics, List.append_assoc]⟩

/-- Bookkeeping and reports do not change what an operand stands for. -/
theorem Checks.now {s s' : State} {own : List Diagnostic} (h : s.Checks own s') (o : Operand) :
    o.now s' = o.now s := by
  cases o with
  | known r => rfl
  | thrown => exact h.thrown

/-- Between two states there was nothing but the reports `own`, in one program and under the same
calls. -/
structure Notes (s : State) (own : List Diagnostic) (s' : State) : Prop extends
    s.Checks own s' where
  unit : s'.unit = s.unit
  anchors : s'.anchors = s.anchors

/-- Nothing was noted between a state and itself. -/
theorem Notes.refl (s : State) : s.Notes [] s := ⟨.refl s, rfl, rfl⟩

/-- Notes add up, reports in order. -/
theorem Notes.trans {s₁ s₂ s₃ : State} {own own' : List Diagnostic} (h : s₁.Notes own s₂)
    (h' : s₂.Notes own' s₃) : s₁.Notes (own ++ own') s₃ :=
  ⟨h.toChecks.trans h'.toChecks, h'.unit.trans h.unit, h'.anchors.trans h.anchors⟩

/-- One of some diagnostics stands where reports about a site go: at the outermost call of the
analyzed program, if there is one. -/
def ReportsAt (s : State) (site : Site) (own : List Diagnostic) : Prop :=
  ∃ d ∈ own, d.span = s.anchors.head?.getD site.span

/-- What stands among some diagnostics is one of them. -/
theorem ReportsAt.ne_nil {s : State} {site : Site} {own : List Diagnostic}
    (h : s.ReportsAt site own) : own ≠ [] := by
  obtain ⟨d, hd, _⟩ := h
  exact List.ne_nil_of_mem hd

/-- What is reported about a site after some reports is reported where it would be before them. -/
theorem Notes.reportsAt_append {s t : State} {site : Site} {own own' : List Diagnostic}
    (h : s.Notes own t) (hown : t.ReportsAt site own') : s.ReportsAt site (own ++ own') := by
  obtain ⟨d, hd, hspan⟩ := hown
  exact ⟨d, List.mem_append_right _ hd, by rw [hspan, h.anchors]⟩

end State

/-- The state of an analysis together with the frames that hold globals. -/
structure World where
  state : State
  globals : List Nat

namespace World

def start : World := ⟨.start, []⟩

/-- The frames visible in a program: some frames of its own inside a frame of globals. -/
def Scope (w : World) (stack : Stack) : Prop :=
  ∃ locals global, stack = locals ++ [global] ∧ locals ≠ [] ∧ global ∈ w.globals ∧
    ∀ f ∈ locals, f < w.state.heap.frames.size ∧ f ∉ w.globals

/-- Every possibility of an operand exists. Those of thrown values are looked after by the world
itself. -/
def Has (w : World) : Operand → Prop
  | .known r => ∀ v ∈ r, w.state.heap.Exists v
  | .thrown => True

/-- How worlds grow: nothing ceases to exist, paths are added for containers that did not exist
before, and frames of globals are new frames. -/
structure Le (w w' : World) : Prop where
  contents : ∀ v, (w.state.heap.contents v).isSome → (w'.state.heap.contents v).isSome
  frames : w.state.heap.frames.size ≤ w'.state.heap.frames.size
  globals : ∀ f ∈ w.globals, f ∈ w'.globals
  fresh : ∀ f ∈ w'.globals, f ∈ w.globals ∨ w.state.heap.frames.size ≤ f
  entries : w.state.provenance.entries <+: w'.state.provenance.entries
  added : ∀ e ∈ w'.state.provenance.entries,
    e ∈ w.state.provenance.entries ∨ w.state.heap.contents e.1 = none
  thrown : ∀ v ∈ w.state.thrown, v ∈ w'.state.thrown
  diagnostics : w.state.diagnostics.toList <+: w'.state.diagnostics.toList

/-- A world grows to itself. -/
theorem Le.refl (w : World) : w.Le w :=
  { contents := fun _ h => h
    frames := Nat.le_refl _
    globals := fun _ h => h
    fresh := fun _ h => .inl h
    entries := List.prefix_refl _
    added := fun _ h => .inl h
    thrown := fun _ h => h
    diagnostics := List.prefix_refl _ }

/-- Growth of worlds is transitive. -/
theorem Le.trans {w₁ w₂ w₃ : World} (h : w₁.Le w₂) (h' : w₂.Le w₃) : w₁.Le w₃ where
  contents v hv := h'.contents v (h.contents v hv)
  frames := Nat.le_trans h.frames h'.frames
  globals f hf := h'.globals f (h.globals f hf)
  fresh f hf := by
    rcases h'.fresh f hf with hf | hf
    · exact h.fresh f hf
    · exact .inr (Nat.le_trans h.frames hf)
  entries := h.entries.trans h'.entries
  added e he := by
    rcases h'.added e he with he | he
    · exact h.added e he
    · refine .inr ?_
      by_contra hne
      have := h.contents e.1 (Option.isSome_iff_ne_none.2 hne)
      rw [he] at this
      cases this
  thrown v hv := h'.thrown v (h.thrown v hv)
  diagnostics := h.diagnostics.trans h'.diagnostics

/-- Values go on existing while a world grows. -/
theorem Le.exists {w w' : World} (h : w.Le w') {v : Value} (hv : w.state.heap.Exists v) :
    w'.state.heap.Exists v := fun hc => h.contents v (hv hc)

/-- Frames that are a scope are one in later worlds. -/
theorem Scope.mono {w w' : World} {stack : Stack} (hs : w.Scope stack) (h : w.Le w') :
    w'.Scope stack := by
  obtain ⟨locals, global, rfl, hne, hg, hl⟩ := hs
  refine ⟨locals, global, rfl, hne, h.globals _ hg, fun f hf => ?_⟩
  obtain ⟨hlt, hnot⟩ := hl f hf
  refine ⟨Nat.lt_of_lt_of_le hlt h.frames, fun hmem => ?_⟩
  rcases h.fresh f hmem with hold | hnew
  · exact hnot hold
  · omega

/-- Operands go on existing while a world grows. -/
theorem Has.mono {w w' : World} {o : Operand} (ho : w.Has o) (h : w.Le w') : w'.Has o := by
  cases o with
  | known r => exact fun v hv => h.exists (ho v hv)
  | thrown => trivial

end World

/-! ## What an analysis can do -/

/-- A write to the containers of an operand: the states before its check, after it, before the
write itself and after it, and the diagnostics of its own check. -/
structure Write where
  opened : State
  checked : State
  before : State
  after : State
  target : Operand
  key : Key
  values : List Reference
  own : List Diagnostic

/-- A new binding of a name in a frame of globals, with the diagnostics of its own check. -/
structure Rebinding where
  opened : State
  before : State
  after : State
  frame : Nat
  name : String
  value : Reference
  own : List Diagnostic

/-- A conversion of globals, and the frame it made. -/
structure Exposing where
  before : State
  after : State
  frame : Nat

/-- What happens in an analysis. -/
inductive Event where
  /-- Bookkeeping, and diagnostics. -/
  | report (own : List Diagnostic)
  | throws (r : Reference)
  /-- A program creates a container. -/
  | allocate (v : Value)
  | closure
  | accessor (id : Nat)
  | frame (id : Nat)
  /-- A name is bound in a frame that holds no globals. -/
  | bind (frame : Nat) (name : String)
  | convert (e : Exposing)
  | rebind (e : Rebinding)
  | write (e : Write)

namespace World

/-- The world with another heap. -/
def withHeap (w : World) (h : Heap) : World := ⟨{ w.state with heap := h }, w.globals⟩

end World

/-- The single changes an analysis makes. -/
inductive Step (setup : Setup) : World → Event → World → Prop
  | check {w own s} : w.state.Checks own s → Step setup w (.report own) ⟨s, w.globals⟩
  | throws {w : World} {r : Reference} : (∀ v ∈ r, w.state.heap.Exists v) →
      Step setup w (.throws r) ⟨{ w.state with thrown := w.state.thrown.union r }, w.globals⟩
  | object {w : World} {o : ObjectCell} : (∀ v, o.Holds v → w.state.heap.Exists v) →
      Step setup w (.allocate (w.state.heap.addObject o).1)
        (w.withHeap (w.state.heap.addObject o).2)
  | array {w : World} {r : Reference} : (∀ v ∈ r, w.state.heap.Exists v) →
      Step setup w (.allocate (w.state.heap.addArray r).1) (w.withHeap (w.state.heap.addArray r).2)
  | closure {w : World} {c : Closure} : w.Scope c.scope →
      Step setup w .closure (w.withHeap (w.state.heap.addClosure c).2)
  | accessor {w : World} {id : Nat} {a : Accessor} :
      Step setup w (.accessor id) (w.withHeap (w.state.heap.markAccessor id a))
  | frame {w : World} {f : Frame} : (∀ b ∈ f.bindings, w.Has b.2) →
      Step setup w (.frame w.state.heap.frames.size) (w.withHeap (w.state.heap.addFrame f).2)
  | bind {w : World} {frame : Nat} {name : String} {o : Operand} :
      frame < w.state.heap.frames.size ∧ frame ∉ w.globals → w.Has o →
      Step setup w (.bind frame name) (w.withHeap (w.state.heap.define frame name o))
  | convert {w : World} {root : Host.Datum} {entries : List (String × Host.Datum)} {id : Nat}
      {c : Host.Conversion} : setup.graph.globals root = .ok entries →
      Host.Conversion.frame setup.graph w.state.conversion entries = (id, c) →
      Step setup w (.convert ⟨w.state, w.state.withConversion c, id⟩)
        ⟨w.state.withConversion c, id :: w.globals⟩

/-- What an analysis can do: single changes, one part after another, and the two operations that
reach globals. A write checks its target first; the rest of the operation may run code in between.
A new binding of a global name comes after a report on it. -/
inductive Runs (setup : Setup) : World → List Event → World → Prop
  | nil {w} : Runs setup w [] w
  | append {w₁ w₂ w₃ es es'} : Runs setup w₁ es w₂ → Runs setup w₂ es' w₃ →
      Runs setup w₁ (es ++ es') w₃
  | step {w e w'} : Step setup w e w' → Runs setup w [e] w'
  | rebind {w : World} {own s frame name r} : w.state.Checks own s → own ≠ [] →
      frame ∈ w.globals → ((s.heap.frame frame).find? name).isSome →
      (∀ v ∈ r, s.heap.Exists v) →
      Runs setup w
        [.rebind ⟨w.state, s, { s with heap := s.heap.define frame name (.known r) }, frame, name,
          r, own⟩]
        ⟨{ s with heap := s.heap.define frame name (.known r) }, w.globals⟩
  | write {w : World} {own s es} {w' : World} {target k values} : w.state.Checks own s →
      ((w.state.provenance.findAny? (target.now w.state)).isSome → own ≠ []) →
      (∀ v ∈ target.now w.state, w.state.heap.Exists v) →
      Runs setup ⟨s, w.globals⟩ es w' →
      (∀ r ∈ values, ∀ v ∈ r, w'.state.heap.Exists v) →
      Runs setup w
        (es ++ [.write ⟨w.state, s, w'.state,
          { w'.state with
            heap := w'.state.heap.setKeys (target.now w'.state) k values },
          target, k, values, own⟩])
        (w'.withHeap (w'.state.heap.setKeys (target.now w'.state) k values))

/-! ## Worlds without loose ends -/

namespace World

/-- Whatever is held, bound or thrown exists, functions see a scope of a program, and what
conversions remember is in the heap. -/
structure Ok (setup : Setup) (w : World) : Prop where
  conversion : w.state.conversion.Sound setup.graph
  held : ∀ v c u, w.state.heap.contents v = some c → c.Holds u → w.state.heap.Exists u
  bound : ∀ id, ∀ b ∈ (w.state.heap.frame id).bindings, w.Has b.2
  thrown : ∀ v ∈ w.state.thrown, w.state.heap.Exists v
  closures : ∀ id c, w.state.heap.closure? id = some c → w.Scope c.scope
  globals : ∀ f ∈ w.globals, f < w.state.heap.frames.size

/-- At the start nothing is held, bound or thrown. -/
theorem Ok.start (setup : Setup) : World.start.Ok setup where
  conversion := .empty setup.graph
  held v c u hv _ := by cases v <;> simp [World.start, State.start, Heap.empty, Heap.contents] at hv
  bound id b hb := by
    simp [World.start, State.start, Heap.empty, Heap.frame, Frame.empty] at hb
  thrown v hv := by simp [World.start, State.start] at hv
  closures id c hc := by simp [World.start, State.start, Heap.empty, Heap.closure?] at hc
  globals f hf := by cases hf

/-- The possibilities of an operand exist. -/
theorem Ok.exists_of_mem {setup : Setup} {w : World} (hw : w.Ok setup) {o : Operand} (ho : w.Has o)
    {v : Value} (hv : v ∈ o.now w.state) : w.state.heap.Exists v := by
  cases o with
  | known r => exact ho v hv
  | thrown => exact hw.thrown v hv

/-- A container with a path exists. -/
theorem Ok.contents_isSome {setup : Setup} {w : World} (hw : w.Ok setup) {e : Value × Path}
    (he : e ∈ w.state.provenance.entries) : (w.state.heap.contents e.1).isSome :=
  hw.conversion.entries e he

/-- A world whose heap, frames and thrown values grew, but in which no path was added. -/
theorem Le.of_heap {w w' : World} (hc : ∀ v, (w.state.heap.contents v).isSome →
      (w'.state.heap.contents v).isSome)
    (hf : w.state.heap.frames.size ≤ w'.state.heap.frames.size) (hg : w'.globals = w.globals)
    (hp : w'.state.provenance = w.state.provenance)
    (ht : ∀ v ∈ w.state.thrown, v ∈ w'.state.thrown)
    (hd : w.state.diagnostics.toList <+: w'.state.diagnostics.toList) : w.Le w' where
  contents := hc
  frames := hf
  globals _ h := hg ▸ h
  fresh _ h := .inl (hg ▸ h)
  entries := hp ▸ List.prefix_refl _
  added _ h := .inl (hp ▸ h)
  thrown := ht
  diagnostics := hd

/-- A world grows if containers stay and frames are added. -/
theorem Le.withHeap {w : World} {h : Heap}
    (hc : ∀ v, (w.state.heap.contents v).isSome → (h.contents v).isSome)
    (hf : w.state.heap.frames.size ≤ h.frames.size) : w.Le (w.withHeap h) :=
  .of_heap hc hf rfl rfl (fun _ h => h) (List.prefix_refl _)

end World

section
variable {setup : Setup}

/-- The part of `World.Ok` that conversions care about does not depend on the heap beyond what
exists. -/
theorem World.Ok.sound_withHeap {w : World} (hw : w.Ok setup) {h : Heap}
    (hc : ∀ v, (w.state.heap.contents v).isSome → (h.contents v).isSome) :
    (w.withHeap h).state.conversion.Sound setup.graph :=
  ⟨fun e he => hc _ (hw.conversion.entries e he), hw.conversion.known⟩

/-- A heap that only gained containers. -/
theorem World.Ok.withHeap {w : World} (hw : w.Ok setup) {h : Heap}
    (hc : ∀ v, (w.state.heap.contents v).isSome → (h.contents v).isSome)
    (hf : h.frames = w.state.heap.frames)
    (hcl : ∀ id c, h.closure? id = some c → w.Scope c.scope)
    (hheld : ∀ v c u, h.contents v = some c → c.Holds u → h.Exists u) :
    (w.withHeap h).Ok setup := by
  have hle : w.Le (w.withHeap h) := .withHeap hc (Nat.le_of_eq (by rw [hf]))
  refine ⟨hw.sound_withHeap hc, hheld, ?_, ?_, ?_, ?_⟩
  · intro id b hb
    have hb' : b ∈ (w.state.heap.frame id).bindings := by
      have : h.frame id = w.state.heap.frame id := by rw [Heap.frame, hf, Heap.frame]
      rwa [← this]
    exact (hw.bound id b hb').mono hle
  · exact fun v hv => hle.exists (hw.thrown v hv)
  · exact fun id c hid => (hcl id c hid).mono hle
  · exact fun f hmem => (congrArg Array.size hf) ▸ hw.globals f hmem

/-- A heap in which only frames changed. -/
theorem World.Ok.withFrames {w : World} (hw : w.Ok setup) {h : Heap}
    (hc : h.contents = w.state.heap.contents)
    (hf : w.state.heap.frames.size ≤ h.frames.size)
    (hcl : h.closures = w.state.heap.closures)
    (hb : ∀ id, ∀ b ∈ (h.frame id).bindings, w.Has b.2) : (w.withHeap h).Ok setup := by
  have hle : w.Le (w.withHeap h) := .withHeap (fun v hv => hc ▸ hv) hf
  refine ⟨hw.sound_withHeap fun v hv => hc ▸ hv, ?_, ?_, ?_, ?_, ?_⟩
  · exact fun v c u hv hu => hle.exists (hw.held v c u (hc ▸ hv) hu)
  · exact fun id b hmem => (hb id b hmem).mono hle
  · exact fun v hv => hle.exists (hw.thrown v hv)
  · intro id c hid
    have : w.state.heap.closure? id = some c := by rw [Heap.closure?, ← hcl]; exact hid
    exact (hw.closures id c this).mono hle
  · exact fun f hmem => Nat.lt_of_lt_of_le (hw.globals f hmem) hf

/-- Bookkeeping and reports let a world grow. -/
theorem State.Checks.le {w : World} {own : List Diagnostic} {s : State}
    (h : w.state.Checks own s) : w.Le ⟨s, w.globals⟩ :=
  .of_heap (fun v hv => h.heap ▸ hv) (Nat.le_of_eq (by rw [h.heap])) rfl h.provenance
    (fun v hv => h.thrown ▸ hv) (h.diagnostics ▸ List.prefix_append _ _)

/-- Bookkeeping and reports keep a world in order. -/
theorem State.Checks.ok {w : World} (hw : w.Ok setup) {own : List Diagnostic} {s : State}
    (h : w.state.Checks own s) : World.Ok setup ⟨s, w.globals⟩ := by
  have hconv : s.conversion = w.state.conversion := by
    simp [State.conversion, h.heap, h.provenance, h.known]
  refine ⟨hconv ▸ hw.conversion, ?_, ?_, ?_, ?_, ?_⟩
  · exact fun v c u hv hu => h.le.exists (hw.held v c u (h.heap ▸ hv) hu)
  · exact fun id b hb => (hw.bound id b (h.heap ▸ hb)).mono h.le
  · exact fun v hv => h.le.exists (hw.thrown v (h.thrown ▸ hv))
  · exact fun id c hc => (hw.closures id c (h.heap ▸ hc)).mono h.le
  · exact fun f hf => by rw [h.heap]; exact hw.globals f hf

/-- Binding a name keeps a world in order. -/
theorem World.Ok.define {w : World} (hw : w.Ok setup) {frame : Nat} {name : String} {o : Operand}
    (ho : w.Has o) : (w.withHeap (w.state.heap.define frame name o)).Ok setup := by
  refine hw.withFrames rfl (by simp [Heap.define]) rfl fun id b hb => ?_
  rw [Heap.frame_define] at hb
  split at hb
  · rcases Frame.mem_setBinding hb with hb | rfl
    · exact hw.bound _ b hb
    · exact ho
  · exact hw.bound id b hb

/-- Writes neither create nor remove containers. -/
theorem Heap.isSome_setKeys {h : Heap} {r : Reference} {k : Key} {values : List Reference}
    {v : Value} : ((h.setKeys r k values).contents v).isSome = (h.contents v).isSome := by
  rw [Heap.contents_setKeys]
  split <;> simp

/-- After writes a container holds what it held and what was written. -/
theorem Contents.holds_of_holds_foldl_set {c : Contents} {k : Key} {values : List Reference}
    {v : Value} (h : (values.foldl (fun c r => c.set k r) c).Holds v) :
    c.Holds v ∨ ∃ r ∈ values, v ∈ r := by
  induction values generalizing c with
  | nil => exact .inl h
  | cons r values ih =>
    rcases ih h with h | ⟨s, hs, hv⟩
    · rcases Contents.holds_of_holds_set h with h | h
      · exact .inl h
      · exact .inr ⟨r, by simp, h⟩
    · exact .inr ⟨s, List.mem_cons_of_mem _ hs, hv⟩

/-- Writes let a world grow. -/
theorem World.Le.setKeys (w : World) (r : Reference) (k : Key) (values : List Reference) :
    w.Le (w.withHeap (w.state.heap.setKeys r k values)) := by
  refine .withHeap (fun v hv => ?_) (Nat.le_of_eq ?_)
  · rw [Heap.isSome_setKeys]
    exact hv
  · rw [(Heap.frames_setKeys ..).1]

/-- Writing what exists keeps a world in order. -/
theorem World.Ok.setKeys {w : World} (hw : w.Ok setup) (r : Reference) (k : Key)
    {values : List Reference} (hv : ∀ s ∈ values, ∀ v ∈ s, w.state.heap.Exists v) :
    (w.withHeap (w.state.heap.setKeys r k values)).Ok setup := by
  have hsome : ∀ v, (w.state.heap.contents v).isSome →
      ((w.state.heap.setKeys r k values).contents v).isSome := fun v h => by
    rw [Heap.isSome_setKeys]
    exact h
  have hex : ∀ {v}, w.state.heap.Exists v → (w.state.heap.setKeys r k values).Exists v :=
    fun hv hc => hsome _ (hv hc)
  refine hw.withHeap hsome (Heap.frames_setKeys ..).1 ?_ ?_
  · intro id c hc
    rw [Heap.closure?, (Heap.frames_setKeys ..).2] at hc
    exact hw.closures id c hc
  · intro u c x hu hx
    rw [Heap.contents_setKeys] at hu
    split at hu
    · obtain ⟨c', hc', rfl⟩ := Option.map_eq_some_iff.1 hu
      rcases Contents.holds_of_holds_foldl_set hx with hx | ⟨s, hs, hx⟩
      · exact hex (hw.held u c' x hc' hx)
      · exact hex (hv s hs x hx)
    · exact hex (hw.held u c x hu hx)

/-! ## How worlds grow -/

/-- What a conversion of globals adds to a world. -/
structure Exposed (g : Host.Graph) (w : World) (c : Host.Conversion) (id : Nat)
    (made : List Host.Occurrence) (values : List Value) (names : List String) : Prop where
  frame : id = w.state.heap.frames.size
  frames : c.heap.frames = w.state.heap.frames.push (Host.frameOf (names.zip values))
  closures : c.heap.closures = w.state.heap.closures
  entries : c.provenance.entries =
    w.state.provenance.entries ++ made.map fun o => (o.cell, o.path)
  fresh : ∀ o ∈ made, w.state.heap.contents o.cell = none
  unseen : ∀ o ∈ made, g.Shares o.id → w.state.known.lookup o.id = none
  kept : ∀ v k, w.state.heap.contents v = some k → c.heap.contents v = some k
  allocated : ∀ v, (c.heap.contents v).isSome ↔
    (w.state.heap.contents v).isSome ∨ v ∈ made.map (·.cell)
  sound : c.Sound g
  exists_value : ∀ v ∈ values, c.heap.Exists v
  exists_part : ∀ o ∈ made, ∀ u, c.heap.contents o.cell = some o.contents ∧
    (o.contents.Holds u → c.heap.Exists u)

/-- A conversion into a world in order adds new containers and a frame. -/
theorem World.Ok.exposed (hg : setup.graph.Grounded) {w : World} (hw : w.Ok setup)
    {root : Host.Datum} {entries : List (String × Host.Datum)} {id : Nat} {c : Host.Conversion}
    (hr : setup.graph.globals root = .ok entries)
    (hc : Host.Conversion.frame setup.graph w.state.conversion entries = (id, c)) :
    ∃ made values, Exposed setup.graph w c id made values (entries.map (·.1)) := by
  obtain ⟨c', made, values, h, heq⟩ :=
    Host.Conversion.exists_exposure hg hw.conversion (Host.Graph.nodup_globals hr)
  rw [heq, Prod.mk.injEq] at hc
  obtain ⟨rfl, rfl⟩ := hc
  have hsound : c'.Sound setup.graph := h.unfolds.sound hw.conversion
  have himage : ∀ {d v}, Host.Image setup.graph c'.known made d v → c'.heap.Exists v := by
    intro d v hi hv
    obtain ⟨e, he, rfl⟩ := List.mem_map.1 (h.mem_entries_of_image hw.conversion hi hv)
    exact hsound.entries e he
  have hframes : c'.heap.frames = w.state.heap.frames := h.unfolds.frames
  refine ⟨made, values, ?_, ?_, h.unfolds.closures, h.unfolds.entries, h.unfolds.fresh,
    fun o ho => h.unfolds.unseen hw.conversion ho, ?_, h.unfolds.allocated,
      ⟨hsound.entries, hsound.known⟩, ?_, ?_⟩
  · rw [hframes]
  · show (c'.heap.frames.push _) = _
    rw [hframes]
  · exact fun v k hv => h.unfolds.kept v k (by simp) hv
  · intro v hv
    obtain ⟨i, hi, rfl⟩ := List.getElem_of_mem hv
    have hlen := h.images.length_eq
    exact himage ((List.forall₂_iff_get.1 h.images).2 i (hlen ▸ hi) hi)
  · intro o ho u
    have hcomplete := h.unfolds.complete o ho
    refine ⟨hcomplete.held, fun hu => ?_⟩
    rw [Host.Occurrence.holds_contents hcomplete.visible hcomplete.length_parts] at hu
    obtain ⟨i, hi, rfl⟩ := List.getElem_of_mem hu
    have hlen := hcomplete.images.length_eq
    exact himage ((List.forall₂_iff_get.1 hcomplete.images).2 i (hlen ▸ hi) hi)

/-- A conversion of globals lets a world grow. -/
theorem Exposed.le {w : World} {c : Host.Conversion} {id : Nat} {made : List Host.Occurrence}
    {values : List Value} {names : List String}
    (h : Exposed setup.graph w c id made values names) :
    w.Le ⟨w.state.withConversion c, id :: w.globals⟩ where
  contents v hv := (h.allocated v).2 (.inl hv)
  frames := by
    show _ ≤ c.heap.frames.size
    rw [h.frames, Array.size_push]
    omega
  globals f hf := List.mem_cons_of_mem _ hf
  fresh f hf := by
    rcases List.mem_cons.1 hf with rfl | hf
    · exact .inr (Nat.le_of_eq h.frame.symm)
    · exact .inl hf
  entries := ⟨_, h.entries.symm⟩
  added e he := by
    have he' : e ∈ c.provenance.entries := he
    rw [h.entries, List.mem_append] at he'
    rcases he' with he' | he'
    · exact .inl he'
    · obtain ⟨o, ho, rfl⟩ := List.mem_map.1 he'
      exact .inr (h.fresh o ho)
  thrown _ hv := hv
  diagnostics := List.prefix_refl _

/-- A conversion of globals keeps a world in order. -/
theorem Exposed.ok {w : World} (hw : w.Ok setup) {c : Host.Conversion} {id : Nat}
    {made : List Host.Occurrence} {values : List Value} {names : List String}
    (h : Exposed setup.graph w c id made values names) :
    World.Ok setup ⟨w.state.withConversion c, id :: w.globals⟩ := by
  have hle := h.le
  refine ⟨h.sound, ?_, ?_, fun v hv => hle.exists (hw.thrown v hv), ?_, ?_⟩
  · intro v k u hv hu
    have hv' : c.heap.contents v = some k := hv
    rcases (h.allocated v).1 (by rw [hv']; rfl) with hold | hnew
    · obtain ⟨k', hk'⟩ := Option.isSome_iff_exists.1 hold
      have := h.kept v k' hk'
      rw [hv'] at this
      cases this
      exact hle.exists (hw.held v k u hk' hu)
    · obtain ⟨o, ho, rfl⟩ := List.mem_map.1 hnew
      obtain ⟨hcont, hpart⟩ := h.exists_part o ho u
      rw [hv'] at hcont
      cases hcont
      exact hpart hu
  · intro f b hb
    have hframe : c.heap.frame f = if f = w.state.heap.frames.size
        then Host.frameOf (names.zip values) else w.state.heap.frame f := by
      rw [← Heap.frame_addFrame, Heap.frame, h.frames]
      rfl
    have hb' : b ∈ (c.heap.frame f).bindings := hb
    rw [hframe] at hb'
    split at hb'
    · obtain ⟨b', hmem, rfl⟩ := List.mem_map.1 hb'
      intro v hv
      rw [Reference.mem_single.1 hv]
      exact h.exists_value _ (List.of_mem_zip hmem).2
    · exact (hw.bound f b hb').mono hle
  · intro f k hk
    have : w.state.heap.closure? f = some k := by
      rw [Heap.closure?, ← h.closures]
      exact hk
    exact (hw.closures f k this).mono hle
  · intro f hf
    show f < c.heap.frames.size
    rw [h.frames, Array.size_push]
    rcases List.mem_cons.1 hf with rfl | hf
    · rw [h.frame]
      omega
    · exact Nat.lt_succ_of_lt (hw.globals f hf)

/-- A new object takes no container away. -/
theorem Heap.isSome_addObject {h : Heap} {o : ObjectCell} {v : Value}
    (hv : (h.contents v).isSome) : ((h.addObject o).2.contents v).isSome := by
  rw [Heap.contents_addObject]
  split
  · rfl
  · exact hv

/-- A new array takes no container away. -/
theorem Heap.isSome_addArray {h : Heap} {r : Reference} {v : Value}
    (hv : (h.contents v).isSome) : ((h.addArray r).2.contents v).isSome := by
  rw [Heap.contents_addArray]
  split
  · rfl
  · exact hv

/-- A single change lets a world grow. -/
theorem Step.le (hg : setup.graph.Grounded) {w w' : World} {e : Event} (h : Step setup w e w')
    (hw : w.Ok setup) : w.Le w' := by
  cases h with
  | check h => exact h.le
  | throws _ =>
    exact .of_heap (fun _ h => h) (Nat.le_refl _) rfl rfl
      (fun v hv => Reference.mem_union.2 (.inl hv)) (List.prefix_refl _)
  | object _ => exact .withHeap (fun _ => Heap.isSome_addObject) (Nat.le_refl _)
  | array _ => exact .withHeap (fun _ => Heap.isSome_addArray) (Nat.le_refl _)
  | closure _ => exact .withHeap (fun _ h => h) (Nat.le_refl _)
  | accessor => exact .withHeap (fun _ h => h) (Nat.le_refl _)
  | frame _ => exact .withHeap (fun _ h => h) (by simp [Heap.addFrame])
  | bind _ _ => exact .withHeap (fun _ h => h) (by simp [Heap.define])
  | convert hr hc =>
    obtain ⟨made, values, he⟩ := hw.exposed hg hr hc
    exact he.le

/-- A single change keeps a world in order. -/
theorem Step.ok (hg : setup.graph.Grounded) {w w' : World} {e : Event} (h : Step setup w e w')
    (hw : w.Ok setup) : w'.Ok setup := by
  have hle := h.le hg hw
  cases h with
  | check h => exact h.ok hw
  | throws hr =>
    refine ⟨hw.conversion, hw.held, hw.bound, fun v hv => ?_, hw.closures, hw.globals⟩
    rcases Reference.mem_union.1 hv with hv | hv
    · exact hw.thrown v hv
    · exact hr v hv
  | object ho =>
    refine hw.withHeap (fun _ => Heap.isSome_addObject) rfl hw.closures fun v c u hv hu => ?_
    rw [Heap.contents_addObject] at hv
    split at hv
    · cases hv
      exact hle.exists (ho u hu)
    · exact hle.exists (hw.held v c u hv hu)
  | array hr =>
    refine hw.withHeap (fun _ => Heap.isSome_addArray) rfl hw.closures fun v c u hv hu => ?_
    rw [Heap.contents_addArray] at hv
    split at hv
    · cases hv
      exact hle.exists (hr u hu)
    · exact hle.exists (hw.held v c u hv hu)
  | @closure c hc =>
    refine hw.withHeap (fun _ h => h) rfl (fun id k hk => ?_) hw.held
    rw [Heap.closure?, Heap.addClosure, Array.getElem?_push] at hk
    split at hk
    · cases hk
      exact hc
    · exact hw.closures id k hk
  | @accessor id a =>
    refine hw.withHeap (fun _ h => h) rfl (fun id' k hk => ?_) hw.held
    rw [Heap.closure?, Heap.markAccessor, Array.getElem?_modify] at hk
    split at hk
    · obtain ⟨k', hk', rfl⟩ := Option.map_eq_some_iff.1 hk
      exact hw.closures id' k' hk'
    · exact hw.closures id' k hk
  | @frame f hf =>
    refine hw.withFrames rfl (by simp [Heap.addFrame]) rfl fun id b hb => ?_
    rw [Heap.frame_addFrame] at hb
    split at hb
    · exact hf b hb
    · exact hw.bound id b hb
  | bind _ ho => exact hw.define ho
  | convert hr hc =>
    obtain ⟨made, values, he⟩ := hw.exposed hg hr hc
    exact he.ok hw

/-- A run lets a world grow and keeps it in order. -/
theorem Runs.le_ok (hg : setup.graph.Grounded) {w w' : World} {es : List Event}
    (h : Runs setup w es w') (hw : w.Ok setup) : w.Le w' ∧ w'.Ok setup := by
  induction h with
  | nil => exact ⟨.refl _, hw⟩
  | append _ _ ih₁ ih₂ =>
    obtain ⟨hle₁, hok₁⟩ := ih₁ hw
    obtain ⟨hle₂, hok₂⟩ := ih₂ hok₁
    exact ⟨hle₁.trans hle₂, hok₂⟩
  | step h => exact ⟨h.le hg hw, h.ok hg hw⟩
  | @rebind w own s frame name r hc _ _ _ hr =>
    have hdef : World.Le ⟨s, w.globals⟩ (World.withHeap ⟨s, w.globals⟩
        (s.heap.define frame name (.known r))) := .withHeap (fun _ h => h) (by simp [Heap.define])
    exact ⟨hc.le.trans hdef, (hc.ok hw).define hr⟩
  | @write w own s es w' target key values hc _ _ _ hv ih =>
    obtain ⟨hle, hok⟩ := ih (hc.ok hw)
    exact ⟨(hc.le.trans hle).trans (.setKeys ..), hok.setKeys _ key hv⟩

end

end FrozenGlobals
