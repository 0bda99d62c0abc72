import FrozenGlobals.Proofs.Analysis.Trace
import FrozenGlobals.Analysis.Evaluator

/-!
# Traced computations

A computation is `Traced` in a world if it leads to another world by a run, whether it ends or
fails, and if it ends its result satisfies a condition there. It never fails because a frame is
missing: the frames of a program always end in those of globals. Computations that only read change
nothing and are computed away; the others compose by `Traced.bind` and the rules for loops, and
brackets keep a trace. The two operations that reach globals have rules of their own,
`Traced.of_write` and `Traced.of_rebind`.
-/

namespace FrozenGlobals

open Run World

/-- No frame was missing where one was needed. -/
def Failure.Framed (e : Failure) : Prop := e ≠ .internal .scopeUnderflow

/-- Notes about callbacks are not about frames. -/
theorem Failure.Framed.within {e : Failure} (h : e.Framed) (path : String) :
    (e.within path).Framed := by
  cases e with
  | internal fault => exact h
  | _ => nofun

/-- A computation leads from a world to another by a run, and a result it ends with satisfies a
condition there. If it fails, then not for want of a frame. -/
def Traced {α : Type} (setup : Setup) (w : World) (x : Run α) (Q : World → α → Prop) : Prop :=
  w.Ok setup → ∃ es w', Runs setup w es w' ∧
    match x setup w.state with
    | .ok a s => w'.state = s ∧ Q w' a
    | .error e s => w'.state = s ∧ e.Framed

namespace World

/-- Every possibility exists. -/
abbrev HasRef (w : World) (r : Reference) : Prop := w.Has (.known r)

/-- The receiver and the arguments of a call exist. -/
def HasCall (w : World) (c : CallSite) : Prop :=
  (∀ o, c.receiver = some o → w.Has o) ∧ ∀ o ∈ c.args, w.Has o

/-- What a call site mentions still exists in later worlds. -/
theorem HasCall.mono {w w' : World} {c : CallSite} (hc : w.HasCall c) (h : w.Le w') :
    w'.HasCall c := ⟨fun o ho => (hc.1 o ho).mono h, fun o ho => (hc.2 o ho).mono h⟩

/-! ## Existing possibilities -/

section
variable {w : World} {r s : Reference} {v : Value}

/-- The empty reference has no possibilities that could be missing. -/
theorem HasRef.empty : w.HasRef .empty := fun v hv => absurd hv (Reference.not_mem_empty v)

/-- A reference of one possibility exists if that possibility does. -/
theorem HasRef.single (hv : w.state.heap.Exists v) : w.HasRef (.single v) :=
  fun _ h => Reference.mem_single.1 h ▸ hv

/-- A union holds nothing that neither of its parts holds. -/
theorem HasRef.union (hr : w.HasRef r) (hs : w.HasRef s) : w.HasRef (r.union s) :=
  fun v hv => (Reference.mem_union.1 hv).elim (hr v) (hs v)

/-- One more possibility that exists does no harm. -/
theorem HasRef.insert (hr : w.HasRef r) (hv : w.state.heap.Exists v) : w.HasRef (r.insert v) :=
  fun u hu => (Reference.mem_insert.1 hu).elim (hr u) fun h => h ▸ hv

/-- The union of references that exist exists. -/
theorem HasRef.unionAll {rs : List Reference} (h : ∀ r ∈ rs, w.HasRef r) :
    w.HasRef (.unionAll rs) := by
  intro v hv
  obtain ⟨r, hr, hv⟩ := Reference.mem_unionAll.1 hv
  exact h r hr v hv

/-- The arrays among possibilities that exist exist. -/
theorem HasRef.arrays (hr : w.HasRef r) : w.HasRef r.arrays :=
  fun v hv => hr v (Reference.mem_arrays.1 hv).1

/-- The containers among possibilities that exist exist. -/
theorem HasRef.containers (hr : w.HasRef r) : w.HasRef r.containers :=
  fun v hv => hr v (Reference.mem_containers.1 hv).1

end

/-- Primitives exist in every heap. -/
theorem exists_primitive {h : Heap} {p : Primitive} : h.Exists (.primitive p) := nofun
/-- Built-ins exist in every heap: they live outside of it. -/
theorem exists_builtin {h : Heap} {b : Builtin} : h.Exists (.builtin b) := nofun
/-- Intrinsics exist in every heap. -/
theorem exists_intrinsic {h : Heap} {i : Intrinsic} : h.Exists (.intrinsic i) := nofun
/-- Functions count as existing in every heap: they hold nothing. -/
theorem exists_function {h : Heap} {id : Nat} : h.Exists (.function id) := nofun

section
variable {w : World}

/-- A primitive alone is a reference that exists. -/
theorem HasRef.ofPrimitive {p : Primitive} : w.HasRef (.ofPrimitive p) := .single exists_primitive
/-- The value `undefined` exists everywhere. -/
theorem HasRef.undefined : w.HasRef .undefined := .ofPrimitive
/-- The primitive that nothing is known of exists everywhere. -/
theorem HasRef.anyPrimitive : w.HasRef .anyPrimitive := .ofPrimitive

/-- The result of a comparison exists everywhere. -/
theorem HasRef.boolean : w.HasRef .boolean := by
  intro v hv
  rw [Reference.boolean, Reference.mem_ofList] at hv
  simp only [List.mem_cons, List.not_mem_nil, or_false] at hv
  rcases hv with rfl | rfl <;> exact exists_primitive

end

section
variable {setup : Setup} {w : World}

/-- The possibilities of an operand at this moment exist. -/
theorem Ok.now (hw : w.Ok setup) {o : Operand} (ho : w.Has o) : w.HasRef (o.now w.state) :=
  fun _ hv => hw.exists_of_mem ho hv

/-- What one value holds exists. -/
theorem Ok.exists_of_mem_getKeyOf (hw : w.Ok setup) {k : Key} {u v : Value}
    (hv : v ∈ w.state.heap.getKeyOf k u) : w.state.heap.Exists v := by
  cases hc : w.state.heap.contents u with
  | some c =>
    rw [Heap.getKeyOf_of_contents hc] at hv
    rcases Contents.holds_of_mem_get hv with hv | ⟨b, rfl⟩ | rfl
    · exact hw.held u c v hc hv
    · exact exists_builtin
    · exact exists_primitive
  | none =>
    cases u with
    | object id =>
      have : w.state.heap.object id = .empty := by
        simp only [Heap.contents, Option.map_eq_none_iff] at hc
        rw [Heap.object, hc]
        rfl
      rw [Heap.getKeyOf, this] at hv
      have hempty : ObjectCell.empty.get k = .empty := by cases k <;> rfl
      rw [hempty] at hv
      exact absurd hv (Reference.not_mem_empty v)
    | array id =>
      have : w.state.heap.array id = ⟨.empty, false⟩ := by
        simp only [Heap.contents, Option.map_eq_none_iff] at hc
        rw [Heap.array, hc]
        rfl
      rw [Heap.getKeyOf, this] at hv
      rcases ArrayCell.mem_elements_of_mem_get hv with hv | ⟨b, rfl⟩ | rfl
      · exact absurd hv (Reference.not_mem_empty v)
      · exact exists_builtin
      · exact exists_primitive
    | intrinsic i =>
      simp only [Heap.getKeyOf] at hv
      split at hv
      · split at hv
        · rw [Reference.mem_single.1 hv]
          exact exists_builtin
        · exact absurd hv (Reference.not_mem_empty v)
      · exact absurd hv (Reference.not_mem_empty v)
    | primitive _ | function _ | builtin _ => exact absurd hv (Reference.not_mem_empty v)

/-- What is read exists. -/
theorem Ok.getKey (hw : w.Ok setup) (r : Reference) (k : Key) :
    w.HasRef (w.state.heap.getKey r k) := by
  intro v hv
  obtain ⟨u, _, hv⟩ := Heap.mem_getKey.1 hv
  exact hw.exists_of_mem_getKeyOf hv

/-- What a name is bound to exists. -/
theorem Ok.lookup? (hw : w.Ok setup) {stack : Stack} {name : String} {o : Operand}
    (h : w.state.heap.lookup? stack name = some o) : w.Has o := by
  obtain ⟨id, _, hid⟩ := List.exists_of_findSome?_eq_some h
  exact hw.bound id _ (Frame.mem_bindings_of_find? hid)

/-- The elements of an array exist. -/
theorem Ok.elements (hw : w.Ok setup) (id : Nat) : w.HasRef (w.state.heap.array id).elements :=
  fun v hv => hw.exists_of_mem_getKeyOf (k := .any) (u := .array id) (v := v) hv

end

end World

/-! ## Reading -/

/-- What goes on after the setup was read goes on with it. -/
theorem Run.read_bind {β : Type} {setup : Setup} {s : State} {f : Setup → Run β} :
    (read >>= f) setup s = f setup setup s := rfl

/-- What goes on after the state was read goes on with it. -/
theorem Run.get_bind {β : Type} {setup : Setup} {s : State} {f : State → Run β} :
    (get >>= f) setup s = f s setup s := rfl

/-- What goes on after a computation that ended goes on with its result, from its state. -/
theorem Run.bind_of_ok {α β : Type} {setup : Setup} {s s' : State} {x : Run α} {f : α → Run β}
    {a : α} (h : x setup s = .ok a s') : (x >>= f) setup s = f a setup s' := by
  show EStateM.bind (x setup) (fun a => f a setup) s = _
  rw [EStateM.bind, h]

section
variable {α β : Type} {setup : Setup} {w : World} {Q : World → β → Prop}

/-- Reading the state leaves no trace. -/
@[simp] theorem traced_get_bind {f : State → Run β} :
    Traced setup w (get >>= f) Q ↔ Traced setup w (f w.state) Q := Iff.rfl

/-- Reading the setup leaves no trace. -/
@[simp] theorem traced_read_bind {f : Setup → Run β} :
    Traced setup w (read >>= f) Q ↔ Traced setup w (f setup) Q := Iff.rfl

/-- A result at hand leaves no trace. -/
@[simp] theorem traced_pure_bind {a : α} {f : α → Run β} :
    Traced setup w (pure a >>= f) Q ↔ Traced setup w (f a) Q := Iff.rfl

/-- How computations one after another are bracketed does not matter to their trace. -/
@[simp] theorem traced_bind_assoc {γ : Type} {x : Run α} {f : α → Run γ} {g : γ → Run β} :
    Traced setup w ((x >>= f) >>= g) Q ↔ Traced setup w (x >>= fun a => f a >>= g) Q := by
  rw [bind_assoc]

/-- Reading an operand leaves no trace, and gives what the operand is in the state of the world. -/
@[simp] theorem traced_deref_bind {o : Operand} {f : Reference → Run β} :
    Traced setup w (deref o >>= f) Q ↔ Traced setup w (f (o.now w.state)) Q := by
  cases o <;> exact Iff.rfl

/-- Reading a key leaves no trace. -/
@[simp] theorem traced_getKey_bind {r : Reference} {k : Key} {f : Reference → Run β} :
    Traced setup w (getKey r k >>= f) Q ↔ Traced setup w (f (w.state.heap.getKey r k)) Q := Iff.rfl

/-- Looking for the frame that binds a name leaves no trace. -/
@[simp] theorem traced_owner?_bind {stack : Stack} {name : String} {f : Option Nat → Run β} :
    Traced setup w (owner? stack name >>= f) Q ↔
      Traced setup w (f (w.state.heap.owner? stack name)) Q := Iff.rfl

/-- Reading an operand changes nothing. -/
theorem deref_eq (setup : Setup) (o : Operand) (s : State) :
    deref o setup s = .ok (o.now s) s := by
  cases o <;> rfl

/-- Reading operands one by one changes nothing. -/
theorem mapM_deref (os : List Operand) (s : State) :
    os.mapM deref setup s = .ok (os.map (·.now s)) s := by
  induction os with
  | nil => rfl
  | cons o os ih =>
    rw [List.mapM_cons]
    rw [Run.bind_of_ok (deref_eq setup o s), Run.bind_of_ok ih]
    rfl

/-- Reading operands one by one leaves no trace. -/
@[simp] theorem traced_mapM_deref_bind {os : List Operand} {f : List Reference → Run β} :
    Traced setup w (os.mapM deref >>= f) Q ↔ Traced setup w (f (os.map (·.now w.state))) Q := by
  rw [Traced, Run.bind_of_ok (mapM_deref os w.state)]
  rfl

/-- Reading all operands at once leaves no trace, and gives the union of what they are. -/
@[simp] theorem traced_derefAll_bind {os : List Operand} {f : Reference → Run β} :
    Traced setup w (derefAll os >>= f) Q ↔
      Traced setup w (f (.unionAll (os.map (·.now w.state)))) Q := by
  rw [derefAll, traced_bind_assoc, traced_mapM_deref_bind, traced_pure_bind]

end

/-! ## Names -/

/-- What a name stands for: its binding, an intrinsic, `undefined`, or nothing. -/
def Heap.meaning (h : Heap) (stack : Stack) (name : String) : Operand :=
  match h.lookup? stack name with
  | some o => o
  | none =>
    match Intrinsic.ofName? name with
    | some i => .known (.single (.intrinsic i))
    | none => .known (if name == "undefined" then .undefined else .empty)

/-- Looking a name up changes nothing, and gives what the name stands for. -/
theorem Run.lookup_eq (setup : Setup) (name : String) (stack : Stack) (s : State) :
    Run.lookup name stack setup s = .ok (s.heap.meaning stack name) s := by
  have heq : Run.lookup name stack setup s =
      (match s.heap.lookup? stack name with
        | some o => (pure o : Run Operand)
        | none =>
          match Intrinsic.ofName? name with
          | some i => pure (.known (.single (.intrinsic i)))
          | none =>
            pure (.known (if name == "undefined" then .undefined else .empty))) setup s := rfl
  rw [heq, Heap.meaning]
  cases s.heap.lookup? stack name with
  | some o => rfl
  | none => cases Intrinsic.ofName? name <;> rfl

/-- Looking a name up leaves no trace. -/
@[simp] theorem traced_lookup_bind {β : Type} {setup : Setup} {w : World} {Q : World → β → Prop}
    {name : String} {stack : Stack} {f : Operand → Run β} :
    Traced setup w (lookup name stack >>= f) Q ↔
      Traced setup w (f (w.state.heap.meaning stack name)) Q := by
  rw [Traced, Run.bind_of_ok (Run.lookup_eq setup name stack w.state)]
  rfl

/-- What a name stands for exists. -/
theorem World.Ok.meaning {setup : Setup} {w : World} (hw : w.Ok setup) (stack : Stack)
    (name : String) : w.Has (w.state.heap.meaning stack name) := by
  unfold Heap.meaning
  split
  · next h => exact hw.lookup? h
  · split
    · exact HasRef.single exists_intrinsic
    · split
      · exact HasRef.undefined
      · exact HasRef.empty

/-! ## Reports -/

namespace Run

/-- An entry of the log changes only the log: no diagnostic comes of it. -/
theorem log_eq (setup : Setup) (level : Log.Level) (entry : State → String × Log.Fields)
    (s : State) :
    ∃ s', Run.log level entry setup s = .ok () s' ∧ s.Notes [] s' := by
  unfold Run.log
  rw [read_bind]
  cases setup.options.sink? with
  | none => exact ⟨s, rfl, .refl s⟩
  | some logger => exact ⟨_, rfl, ⟨rfl, rfl, rfl, rfl, by simp⟩, rfl, rfl⟩

/-- The diagnostic about a site: at the outermost call of the analyzed program, if there is one. -/
def diagnosticAt (s : State) (site : Site) (message : String) (path : Option Path) : Diagnostic :=
  ⟨message, s.anchors.head?.getD site.span, (path.map Path.render).getD ""⟩

/-- A report adds one diagnostic, at the range or at the outermost call of the analyzed program. -/
theorem report_eq (setup : Setup) (site : Site) (message : String) (path : Option Path)
    (s : State) : ∃ s', Run.report site message path setup s = .ok () s' ∧
      s.Notes [diagnosticAt s site message path] s' := by
  let span := s.anchors.head?.getD site.span
  obtain ⟨s', heq, hs⟩ := log_eq setup .info (fun _ => ("Violation: " ++ message,
      [("start", .ofInt span.start), ("end", .ofInt span.stop), ("node", .text site.kind.name)]))
    { s with diagnostics := s.diagnostics.push (diagnosticAt s site message path) }
  exact ⟨s', heq, ⟨hs.heap, hs.provenance, hs.known, hs.thrown, by rw [hs.diagnostics]; simp⟩,
    hs.unit, hs.anchors⟩

/-- Checking a reference reports once if one of its possibilities has a path. -/
theorem checkGlobal_eq (setup : Setup) (r : Reference) (site : Site) (violation : Violation)
    (s : State) :
    ∃ own s', Run.checkGlobal r site violation setup s =
        .ok (s.provenance.findAny? r).isSome s' ∧ s.Notes own s' ∧
      ((s.provenance.findAny? r).isSome → s.ReportsAt site own) := by
  unfold Run.checkGlobal
  rw [get_bind]
  cases s.provenance.findAny? r with
  | none => exact ⟨[], s, rfl, .refl s, nofun⟩
  | some path =>
    obtain ⟨s', hr, hs⟩ := report_eq setup site (violation.message path) (some path) s
    refine ⟨_, s', ?_, hs, fun _ => ⟨_, List.mem_singleton_self _, rfl⟩⟩
    exact bind_of_ok hr

end Run

namespace Traced

/-! ## Composition -/

section
variable {α β : Type} {setup : Setup} {w : World}

/-- A result at hand needs no run to be reached. -/
theorem pure {Q : World → α → Prop} {a : α} (h : w.Ok setup → Q w a) :
    Traced setup w (Pure.pure a) Q := fun hw => ⟨[], w, .nil, rfl, h hw⟩

/-- A failure that is not about frames is a trace of nothing. -/
theorem throw {Q : World → α → Prop} {e : Failure} (he : e.Framed := by nofun) :
    Traced setup w (MonadExcept.throw e) Q :=
  fun _ => ⟨[], w, .nil, rfl, he⟩

/-- What would have followed a failure does not matter. -/
theorem throw_bind {Q : World → β → Prop} {e : Failure} {f : α → Run β}
    (he : e.Framed := by nofun) : Traced setup w (MonadExcept.throw e >>= f) Q :=
  fun _ => ⟨[], w, .nil, rfl, he⟩

/-- The world may be taken to be in order. -/
theorem ok {x : Run α} {Q : World → α → Prop} (h : w.Ok setup → Traced setup w x Q) :
    Traced setup w x Q := fun hw => h hw hw

/-- One computation after another. -/
theorem bind (hg : setup.graph.Grounded) {x : Run α} {f : α → Run β} {Q : World → α → Prop}
    {R : World → β → Prop} (hx : Traced setup w x Q)
    (hf : ∀ w' a, w.Le w' → w'.Ok setup → Q w' a → Traced setup w' (f a) R) :
    Traced setup w (x >>= f) R := by
  intro hw
  obtain ⟨es, w', hr, hres⟩ := hx hw
  obtain ⟨hle, hok⟩ := hr.le_ok hg hw
  have heq : (x >>= f) setup w.state = EStateM.bind (x setup) (fun a => f a setup) w.state := rfl
  cases hxs : x setup w.state with
  | ok a s =>
    simp only [hxs] at hres
    obtain ⟨rfl, hq⟩ := hres
    obtain ⟨es', w'', hr', hres'⟩ := hf w' a hle hok hq hok
    refine ⟨es ++ es', w'', .append hr hr', ?_⟩
    rw [heq, EStateM.bind, hxs]
    exact hres'
  | error e s =>
    simp only [hxs] at hres
    refine ⟨es, w', hr, ?_⟩
    rw [heq, EStateM.bind, hxs]
    exact hres

/-- A computation whose result does not matter, before another. -/
theorem seq (hg : setup.graph.Grounded) {x : Run α} {y : Run β} {Q : World → α → Prop}
    {R : World → β → Prop} (hx : Traced setup w x Q)
    (hy : ∀ w', w.Le w' → w'.Ok setup → Traced setup w' y R) :
    Traced setup w (x >>= fun _ => y) R :=
  hx.bind hg fun w' _ hle hok _ => hy w' hle hok

/-- A single change. -/
theorem of_step {x : Run α} {Q : World → α → Prop} {e : Event} (w' : World) {a : α}
    (heq : x setup w.state = .ok a w'.state) (hs : w.Ok setup → Step setup w e w')
    (hq : w.Ok setup → Q w' a) : Traced setup w x Q := by
  intro hw
  refine ⟨[e], w', .step (hs hw), ?_⟩
  rw [heq]
  exact ⟨rfl, hq hw⟩

/-- Bookkeeping. -/
theorem of_checks {x : Run α} {Q : World → α → Prop} {own : List Diagnostic} {s : State} {a : α}
    (heq : x setup w.state = .ok a s) (hs : w.state.Checks own s)
    (hq : w.Ok setup → Q ⟨s, w.globals⟩ a) : Traced setup w x Q :=
  of_step ⟨s, w.globals⟩ heq (fun _ => .check hs) hq

/-- A change that only keeps books is a trace by itself. -/
theorem bookkeeping {f : State → State} (hs : w.state.Checks [] (f w.state)) :
    Traced setup w (modify f : Run Unit) fun _ _ => True :=
  of_checks rfl hs fun _ => trivial

end

/-! ## Loops -/

section
variable {α β : Type} {setup : Setup} {w : World} (hg : setup.graph.Grounded)
include hg

/-- A loop is traced if each of its rounds is, from whatever world it begins in. -/
theorem forM {xs : List α} {f : α → Run Unit}
    (h : ∀ x ∈ xs, ∀ w', w.Le w' → w'.Ok setup → Traced setup w' (f x) fun _ _ => True) :
    Traced setup w (xs.forM f) fun _ _ => True := by
  induction xs generalizing w with
  | nil => exact .pure fun _ => trivial
  | cons x xs ih =>
    rw [List.forM_eq_forM, List.forM_cons]
    intro hw
    refine (h x (by simp) w (.refl w) hw).seq hg (fun w' hle hok => ?_) hw
    exact ih fun y hy w'' hle' hok' => h y (List.mem_cons_of_mem _ hy) w'' (hle.trans hle') hok'

/-- A loop that carries a value is traced if each of its rounds keeps the condition on that
value. -/
theorem foldlM {xs : List α} {f : β → α → Run β} {b : β} {Q : World → β → Prop} (hb : Q w b)
    (h : ∀ x ∈ xs, ∀ w', w.Le w' → w'.Ok setup → ∀ b, Q w' b → Traced setup w' (f b x) Q) :
    Traced setup w (xs.foldlM f b) Q := by
  induction xs generalizing w b with
  | nil => exact .pure fun _ => hb
  | cons x xs ih =>
    rw [List.foldlM_cons]
    intro hw
    refine (h x (by simp) w (.refl w) hw b hb).bind hg (fun w' b' hle hok hb' => ?_) hw
    exact ih hb' fun y hy w'' hle' hok' =>
      h y (List.mem_cons_of_mem _ hy) w'' (hle.trans hle') hok'

/-- A loop that collects results is traced if each of its rounds is, and conditions on results
last. -/
theorem mapM {xs : List α} {f : α → Run β} {Q : World → β → Prop}
    (hmono : ∀ {w w' b}, w.Le w' → Q w b → Q w' b)
    (h : ∀ x ∈ xs, ∀ w', w.Le w' → w'.Ok setup → Traced setup w' (f x) Q) :
    Traced setup w (xs.mapM f) fun w' bs => ∀ b ∈ bs, Q w' b := by
  induction xs generalizing w with
  | nil => exact .pure fun _ b hb => by cases hb
  | cons x xs ih =>
    rw [List.mapM_cons]
    intro hw
    refine (h x (by simp) w (.refl w) hw).bind hg (fun w' b hle hok hb => ?_) hw
    refine (ih fun y hy w'' hle' hok' =>
      h y (List.mem_cons_of_mem _ hy) w'' (hle.trans hle') hok').bind hg ?_
    intro w'' bs hle' _ hbs
    refine .pure fun _ b' hb' => ?_
    rcases List.mem_cons.1 hb' with rfl | hb'
    · exact hmono hle' hb
    · exact hbs b' hb'

/-! ## Brackets -/

omit hg in
/-- Putting bookkeeping back after a step. -/
theorem restoring {x : Run α} {f : State → State} {Q : World → α → Prop}
    (hmono : ∀ {w w' a}, w.Le w' → Q w a → Q w' a) (hf : ∀ s : State, s.Checks [] (f s))
    (hx : Traced setup w x Q) : Traced setup w (x.restoring f) Q := by
  intro hw
  obtain ⟨es, w', hr, hres⟩ := hx hw
  have hc : w'.state.Checks [] (f w'.state) := hf _
  refine ⟨es ++ [.report []], ⟨f w'.state, w'.globals⟩, .append hr (.step (.check hc)), ?_⟩
  rw [Run.restoring]
  cases hxs : x setup w.state with
  | ok a s =>
    simp only [hxs] at hres
    obtain ⟨rfl, hq⟩ := hres
    exact ⟨rfl, hmono hc.le hq⟩
  | error e s =>
    simp only [hxs] at hres
    obtain ⟨rfl, he⟩ := hres
    exact ⟨rfl, he⟩

omit hg in
/-- Naming the path that a failure comes from does not change the trace. -/
theorem within {x : Run α} {path : String} {Q : World → α → Prop} (hx : Traced setup w x Q) :
    Traced setup w (x.within path) Q := by
  intro hw
  obtain ⟨es, w', hr, hres⟩ := hx hw
  refine ⟨es, w', hr, ?_⟩
  rw [Run.within]
  cases hxs : x setup w.state with
  | ok a s => simpa only [hxs] using hres
  | error e s =>
    simp only [hxs] at hres
    exact ⟨hres.1, hres.2.within path⟩

variable {Q : World → α → Prop} (hmono : ∀ {w w' a}, w.Le w' → Q w a → Q w' a)
include hmono

/-- Code of another program is traced if it is traced where that program is the current one. -/
theorem inUnit {unit : Nat} {x : Run α}
    (hx : ∀ w', w.Le w' → w'.Ok setup → Traced setup w' x Q) :
    Traced setup w (x.inUnit unit) Q := by
  unfold Run.inUnit
  rw [traced_get_bind]
  refine (bookkeeping ⟨rfl, rfl, rfl, rfl, by simp⟩).seq hg fun w' hle hok => ?_
  exact restoring hmono (fun s => ⟨rfl, rfl, rfl, rfl, by simp⟩) (hx w' hle hok)

/-- Code behind a call is traced if it is traced below the anchor of that call. -/
theorem anchored {span : Script.Span} {x : Run α}
    (hx : ∀ w', w.Le w' → w'.Ok setup → Traced setup w' x Q) :
    Traced setup w (x.anchored span) Q := by
  unfold Run.anchored
  rw [traced_get_bind]
  refine (bookkeeping ⟨rfl, rfl, rfl, rfl, by simp⟩).seq hg fun w' hle hok => ?_
  exact restoring hmono (fun s => ⟨rfl, rfl, rfl, rfl, by simp⟩) (hx w' hle hok)

/-- The body of a call is traced if it is traced one level deeper. -/
theorem counted {key : FunctionKey} {x : Run α}
    (hx : ∀ w', w.Le w' → w'.Ok setup → Traced setup w' x Q) :
    Traced setup w (x.counted key) Q := by
  unfold Run.counted
  refine (bookkeeping ⟨rfl, rfl, rfl, rfl, by simp⟩).seq hg fun w' hle hok => ?_
  exact restoring hmono (fun s => ⟨rfl, rfl, rfl, rfl, by simp⟩) (hx w' hle hok)

end

/-! ## Elementary computations -/

section
variable {setup : Setup} {w : World}

/-- Logging is traced. -/
theorem log {level : Log.Level} {entry : State → String × Log.Fields} :
    Traced setup w (Run.log level entry) fun _ _ => True := by
  obtain ⟨s, heq, hs⟩ := log_eq setup level entry w.state
  exact of_checks heq hs.toChecks fun _ => trivial

/-- A report is traced. -/
theorem report {site : Site} {message : String} {path : Option Path} :
    Traced setup w (Run.report site message path) fun _ _ => True := by
  obtain ⟨s, heq, hs⟩ := report_eq setup site message path w.state
  exact of_checks heq hs.toChecks fun _ => trivial

/-- A check is traced, whether it finds a path or not. -/
theorem checkGlobal {r : Reference} {site : Site} {violation : Violation} :
    Traced setup w (Run.checkGlobal r site violation) fun _ _ => True := by
  obtain ⟨own, s, heq, hs, _⟩ := checkGlobal_eq setup r site violation w.state
  exact of_checks heq hs.toChecks fun _ => trivial

/-- A warning is traced. -/
theorem warn (hg : setup.graph.Grounded) {message : String} :
    Traced setup w (Run.warn message) fun _ _ => True := by
  unfold Run.warn
  refine log.seq hg fun w' _ _ => ?_
  rw [traced_read_bind]
  split
  · exact bookkeeping ⟨rfl, rfl, rfl, rfl, by simp⟩
  · exact .pure fun _ => trivial

/-- Passing over an unsupported construct is traced: it notes the construct or it fails. -/
theorem unsupported (hg : setup.graph.Grounded) {code : UnsupportedCode} {kind : Script.NodeKind}
    {span : Script.Span} :
    Traced setup w (Run.unsupported code kind span) fun _ _ => True := by
  unfold Run.unsupported
  rw [traced_read_bind]
  split
  · exact .throw
  · exact warn hg

/-- Cancellation is not a failure about frames. -/
theorem checkCanceled : Traced setup w Run.checkCanceled fun _ _ => True := by
  unfold Run.checkCanceled
  rw [traced_read_bind]
  split
  · exact .throw
  · exact .pure fun _ => trivial

/-- A new object exists, if what it holds exists. -/
theorem newObject {o : ObjectCell} (ho : w.Ok setup → ∀ v, o.Holds v → w.state.heap.Exists v) :
    Traced setup w (Run.newObject o) fun w' v => w'.state.heap.Exists v := by
  refine of_step (w.withHeap (w.state.heap.addObject o).2) rfl (fun hw => .object (ho hw)) ?_
  intro _ _
  have := Heap.contents_addObject w.state.heap o (w.state.heap.addObject o).1
  rw [if_pos rfl] at this
  exact Option.isSome_iff_exists.2 ⟨_, this⟩

/-- A new array exists, if its elements exist. -/
theorem newArray {r : Reference} (hr : w.Ok setup → w.HasRef r) :
    Traced setup w (Run.newArray r) fun w' v => w'.state.heap.Exists v := by
  refine of_step (w.withHeap (w.state.heap.addArray r).2) rfl (fun hw => .array (hr hw)) ?_
  intro _ _
  have := Heap.contents_addArray w.state.heap r (w.state.heap.addArray r).1
  rw [if_pos rfl] at this
  exact Option.isSome_iff_exists.2 ⟨_, this⟩

/-- A new function exists, if its frames are ones of a program. -/
theorem newFunction {fn : Script.Function} {scope : Stack} (hs : w.Scope scope) :
    Traced setup w (Run.newFunction fn scope) fun w' v => w'.state.heap.Exists v :=
  of_step (w.withHeap (w.state.heap.addClosure
    ⟨(fn.name.map (·.name)).getD "", some ⟨w.state.unit, fn⟩, scope, none⟩).2) rfl
    (fun _ => .closure hs) fun _ => World.exists_function

/-- A new frame can be put on top of any frames that end in globals. -/
theorem newFrame {f : Frame} (hf : w.Ok setup → ∀ b ∈ f.bindings, w.Has b.2) :
    Traced setup w (Run.newFrame f) fun w' id =>
      id < w'.state.heap.frames.size ∧ id ∉ w'.globals := by
  refine of_step (w.withHeap (w.state.heap.addFrame f).2) rfl (fun hw => .frame (hf hw)) ?_
  intro hw
  refine ⟨?_, fun hmem => ?_⟩
  · show w.state.heap.frames.size < (w.state.heap.frames.push f).size
    simp
  · exact absurd (hw.globals _ hmem) (Nat.lt_irrefl _)

/-- A name may be bound in a frame that exists and is not one of globals. -/
theorem define {frame : Nat} {name : String} {o : Operand}
    (hf : frame < w.state.heap.frames.size ∧ frame ∉ w.globals) (ho : w.Has o) :
    Traced setup w (Run.define frame name o) fun _ _ => True :=
  of_step (w.withHeap (w.state.heap.define frame name o)) rfl (fun _ => .bind hf ho)
    fun _ => trivial

/-- The frame of converted globals is known to be one of globals. -/
theorem newGlobals {root : Host.Datum} :
    Traced setup w (Run.newGlobals root) fun w' id => id ∈ w'.globals := by
  unfold Run.newGlobals
  rw [traced_read_bind]
  split
  · exact .throw
  · next entries hr =>
    rw [traced_read_bind]
    exact of_step ⟨w.state.withConversion
        (Host.Conversion.frame setup.graph w.state.conversion entries).2,
        (Host.Conversion.frame setup.graph w.state.conversion entries).1 :: w.globals⟩ rfl
      (fun _ => .convert hr rfl) fun _ => List.mem_cons_self

end

/-! ## Operations that reach globals -/

section
variable {α β γ : Type} {setup : Setup} {w : World}

/-- An operation that checks its target, may run code, and then writes. -/
theorem of_write (hg : setup.graph.Grounded) (target : Operand) {y : Run γ} {x : Run β}
    {k : β → Run γ} {own : List Diagnostic} {s : State} {Q : World → β → Prop}
    {R : World → γ → Prop} (hs : w.state.Checks own s)
    (hown : (w.state.provenance.findAny? (target.now w.state)).isSome → own ≠ [])
    (ht : w.Has target) (heq : y setup w.state = (x >>= k) setup s)
    (hx : Traced setup ⟨s, w.globals⟩ x Q)
    (hk : ∀ w' b, w.Le w' → w'.Ok setup → Q w' b → ∃ key values c,
      k b setup w'.state =
        .ok c { w'.state with heap := w'.state.heap.setKeys (target.now w'.state) key values } ∧
      (∀ r ∈ values, w'.HasRef r) ∧
      R (w'.withHeap (w'.state.heap.setKeys (target.now w'.state) key values)) c) :
    Traced setup w y R := by
  intro hw
  have hok := hs.ok hw
  obtain ⟨es, w', hr, hres⟩ := hx hok
  obtain ⟨hle', hok'⟩ := hr.le_ok hg hok
  have hb : (x >>= k) setup s = EStateM.bind (x setup) (fun b => k b setup) s := rfl
  rw [heq, hb, EStateM.bind]
  cases hxs : x setup s with
  | ok b t =>
    simp only [hxs] at hres
    obtain ⟨rfl, hq⟩ := hres
    obtain ⟨key, values, c, hkeq, hv, hR⟩ := hk w' b (hs.le.trans hle') hok' hq
    have hrun := Runs.write (k := key) hs hown (fun v hv => hw.exists_of_mem ht hv) hr hv
    refine ⟨_, _, hrun, ?_⟩
    simp only [hkeq]
    exact ⟨rfl, hR⟩
  | error e t =>
    simp only [hxs] at hres
    exact ⟨[.report own] ++ es, w', .append (.step (.check hs)) hr, hres⟩

/-- A new binding of a global name after a report. -/
theorem of_rebind {y : Run γ} {own : List Diagnostic} {s : State} {frame : Nat} {name : String}
    {r : Reference} {R : World → γ → Prop} {c : γ} (hs : w.state.Checks own s) (hown : own ≠ [])
    (hf : frame ∈ w.globals) (hn : ((s.heap.frame frame).find? name).isSome) (hr : w.HasRef r)
    (heq : y setup w.state = .ok c { s with heap := s.heap.define frame name (.known r) })
    (hR : R ⟨{ s with heap := s.heap.define frame name (.known r) }, w.globals⟩ c) :
    Traced setup w y R := by
  intro _
  have hr' : ∀ v ∈ r, s.heap.Exists v := by
    rw [hs.heap]
    exact hr
  refine ⟨_, _, .rebind hs hown hf hn hr', ?_⟩
  rw [heq]
  exact ⟨rfl, hR⟩

end

end Traced

end FrozenGlobals
