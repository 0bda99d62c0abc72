import FrozenGlobals.Analysis.Scope
import FrozenGlobals.Analysis.Write
import FrozenGlobals.Proofs.Analysis.Traced

/-!
# Traces of writes

The parts of the evaluation that bind names and write to containers are traced if the evaluator
they call back is. A frame of globals is the outermost one of a scope and never the innermost, so
declarations stay clear of it (`Traced.addVariable`), and a name that is found there is reported
before it is bound anew (`Traced.writeName`). A write to a member is checked before the setters of
the member run (`Evaluator.Traced.assignTo`).
-/

namespace FrozenGlobals

open Run World

/-! ## Scopes -/

namespace World

variable {w : World} {stack : Stack}

/-- Frames that end in globals, with nothing asked of what lies inside. -/
def Outer (w : World) (stack : Stack) : Prop :=
  ∃ locals global, stack = locals ++ [global] ∧ global ∈ w.globals ∧
    ∀ f ∈ locals, f < w.state.heap.frames.size ∧ f ∉ w.globals

/-- A scope ends in globals. -/
theorem Scope.outer (hs : w.Scope stack) : w.Outer stack := by
  obtain ⟨locals, global, heq, _, hg, hl⟩ := hs
  exact ⟨locals, global, heq, hg, hl⟩

/-- A frame of globals alone ends in globals. -/
theorem Outer.globals {global : Nat} (hg : global ∈ w.globals) : w.Outer [global] :=
  ⟨[], global, rfl, hg, by simp⟩

/-- Frames that end in globals do so in later worlds. -/
theorem Outer.mono {w' : World} (hs : w.Outer stack) (h : w.Le w') : w'.Outer stack := by
  obtain ⟨locals, global, rfl, hg, hl⟩ := hs
  refine ⟨locals, global, rfl, h.globals _ hg, fun f hf => ?_⟩
  obtain ⟨hlt, hnot⟩ := hl f hf
  refine ⟨Nat.lt_of_lt_of_le hlt h.frames, fun hmem => ?_⟩
  rcases h.fresh f hmem with hold | hnew
  · exact hnot hold
  · omega

/-- A frame on top of others makes a scope. -/
theorem Outer.push (hs : w.Outer stack) {f : Nat}
    (hf : f < w.state.heap.frames.size ∧ f ∉ w.globals) : w.Scope (f :: stack) := by
  obtain ⟨locals, global, rfl, hg, hl⟩ := hs
  refine ⟨f :: locals, global, rfl, by simp, hg, fun f' hf' => ?_⟩
  rcases List.mem_cons.1 hf' with rfl | hf'
  · exact hf
  · exact hl f' hf'

/-- The innermost frame of a scope holds no globals. -/
theorem Scope.cons (hs : w.Scope stack) : ∃ f rest, stack = f :: rest ∧
    (f < w.state.heap.frames.size ∧ f ∉ w.globals) := by
  obtain ⟨locals, global, rfl, hne, _, hl⟩ := hs
  cases locals with
  | nil => exact absurd rfl hne
  | cons f locals => exact ⟨f, _, rfl, hl f (by simp)⟩

/-- Of the frames of a scope only the outermost holds globals. -/
theorem Scope.mem_globals_iff (hs : w.Scope stack) {f : Nat} (hf : f ∈ stack) :
    f ∈ w.globals ↔ Stack.globals? stack = some f := by
  obtain ⟨locals, global, rfl, _, hg, hl⟩ := hs
  have hlast : Stack.globals? (locals ++ [global]) = some global := by simp [Stack.globals?]
  rw [hlast, Option.some.injEq]
  rcases List.mem_append.1 hf with hmem | hmem
  · refine ⟨fun h => absurd h (hl f hmem).2, fun h => ?_⟩
    subst h
    exact hg
  · rw [List.mem_singleton] at hmem
    subst hmem
    exact ⟨fun _ => rfl, fun _ => hg⟩

/-- A frame of a scope other than the outermost belongs to the program. -/
theorem Scope.local_of_ne (hs : w.Scope stack) {f : Nat} (hf : f ∈ stack)
    (hne : Stack.globals? stack ≠ some f) : f < w.state.heap.frames.size ∧ f ∉ w.globals := by
  refine ⟨?_, fun hmem => hne ((hs.mem_globals_iff hf).1 hmem)⟩
  obtain ⟨locals, global, rfl, _, _, hl⟩ := hs
  rcases List.mem_append.1 hf with hmem | hmem
  · exact (hl f hmem).1
  · rw [List.mem_singleton] at hmem
    exact absurd (by simp [Stack.globals?, hmem]) hne

/-- Around some frames and one below them, the frame of the program is the outermost of those
frames. -/
theorem programFrame?_append (locals : List Nat) (global : Nat) (hne : locals ≠ []) :
    Stack.programFrame? (locals ++ [global]) = some (locals.getLast hne) := by
  induction locals with
  | nil => exact absurd rfl hne
  | cons f locals ih =>
    cases locals with
    | nil => rfl
    | cons f' locals =>
      have := ih (by simp)
      cases locals with
      | nil => simp [Stack.programFrame?]
      | cons f'' locals => simpa [Stack.programFrame?] using this

/-- Undeclared names are bound right inside the globals. -/
theorem Scope.programFrame? (hs : w.Scope stack) :
    ∃ f, Stack.programFrame? stack = some f ∧ (f < w.state.heap.frames.size ∧ f ∉ w.globals) := by
  obtain ⟨locals, global, rfl, hne, _, hl⟩ := hs
  exact ⟨_, programFrame?_append locals global hne, hl _ (List.getLast_mem hne)⟩

end World

/-- The frame that owns a name is visible and binds the name. -/
theorem Heap.owner?_mem {h : Heap} {stack : Stack} {name : String} {f : Nat}
    (ho : h.owner? stack name = some f) : f ∈ stack ∧ ((h.frame f).find? name).isSome :=
  ⟨List.mem_of_find?_eq_some ho,
    List.find?_some (p := fun id => ((h.frame id).find? name).isSome) ho⟩

/-! ## Names -/

namespace Run

/-- Checking a name reports it if the globals bind it. -/
theorem checkGlobalName_eq (setup : Setup) (name : String) (stack : Stack) (site : Site)
    (violation : Violation) (s : State) :
    ∃ own s', checkGlobalName name stack site violation setup s = .ok () s' ∧ s.Notes own s' ∧
      (∀ f, s.heap.owner? stack name = some f → Stack.globals? stack = some f →
        s.ReportsAt site own) := by
  unfold checkGlobalName
  have howner : owner? stack name setup s = .ok (s.heap.owner? stack name) s := rfl
  rw [bind_of_ok howner]
  cases s.heap.owner? stack name with
  | none => exact ⟨[], s, rfl, .refl s, nofun⟩
  | some frame =>
    by_cases h : Stack.globals? stack = some frame
    · obtain ⟨s', hr, hs⟩ := report_eq setup site (violation.message [.key name])
        (some [.key name]) s
      refine ⟨_, s', ?_, hs, fun _ _ _ => ⟨_, List.mem_singleton_self _, rfl⟩⟩
      simpa [h] using hr
    · refine ⟨[], s, ?_, .refl s, fun f hf hf' => ?_⟩
      · simp [h]
        rfl
      · cases hf
        exact absurd hf' h

end Run

namespace Traced

section
variable {setup : Setup} {w : World} {stack : Stack} {name : String}

/-- Binding a name where it is bound, or in the frame of the program, outside the globals. -/
theorem rebind (hs : w.Scope stack) {r : Reference} (hr : w.HasRef r)
    (hn : ∀ f, w.state.heap.owner? stack name = some f → Stack.globals? stack ≠ some f) :
    Traced setup w (Run.rebind name r stack) fun _ _ => True := by
  unfold Run.rebind
  rw [traced_owner?_bind]
  split
  · next f hf =>
    exact define (hs.local_of_ne (Heap.owner?_mem hf).1 (hn f hf)) hr
  · obtain ⟨f, hf, hnot⟩ := hs.programFrame?
    rw [hf]
    exact define hnot hr

end

end Traced

namespace Run

/-- A write to a name checks it and binds it anew. -/
theorem writeName_eq (setup : Setup) (name : String) (value : Operand) (stack : Stack) (site : Site)
    (violation : Violation) (s : State) :
    ∃ own s', s.Notes own s' ∧
      (∀ f, s.heap.owner? stack name = some f → Stack.globals? stack = some f →
        s.ReportsAt site own) ∧
      Evaluator.writeName name value stack site violation setup s =
        rebind name (((s.heap.meaning stack name).now s).union (value.now s)) stack setup s' := by
  have hend : ∀ {own t}, s.Notes own t →
      (do rebind name ((← deref (s.heap.meaning stack name)).union (← deref value)) stack) setup t =
        rebind name (((s.heap.meaning stack name).now s).union (value.now s)) stack setup t := by
    intro own t hs
    rw [bind_of_ok (deref_eq ..), bind_of_ok (deref_eq ..), hs.now, hs.now]
  unfold Evaluator.writeName
  rw [bind_of_ok (lookup_eq ..), bind_of_ok (deref_eq ..)]
  obtain ⟨own, t, hc, hs, hown⟩ :=
    checkGlobal_eq setup ((s.heap.meaning stack name).now s) site violation s
  rw [bind_of_ok hc]
  by_cases hf : (s.provenance.findAny? ((s.heap.meaning stack name).now s)).isSome
  · refine ⟨own, t, hs, fun _ _ _ => hown hf, ?_⟩
    rw [if_pos hf]
    exact hend hs
  · obtain ⟨own', t', hc', hs', hown'⟩ := checkGlobalName_eq setup name stack site violation t
    rw [hs.heap] at hown'
    refine ⟨own ++ own', t', hs.trans hs', fun f ho hf' => hs.reportsAt_append (hown' f ho hf'), ?_⟩
    rw [if_neg hf, bind_of_ok hc']
    exact hend (hs.trans hs')

/-- An update of a member checks the object, and then it writes. -/
theorem updateMember_eq (setup : Setup) (object : Reference) (key : Key) (site : Site) (s : State) :
    ∃ own s', s.Notes own s' ∧
      ((s.provenance.findAny? object).isSome → s.ReportsAt site own) ∧
      (do
        let _ ← checkGlobal (← getKey object key) site .update
        let _ ← checkGlobal object site .update
        setKey object key .anyPrimitive) setup s = setKey object key .anyPrimitive setup s' := by
  obtain ⟨own, t, hc, hs, _⟩ := checkGlobal_eq setup (s.heap.getKey object key) site .update s
  obtain ⟨own', t', hc', hs', hown⟩ := checkGlobal_eq setup object site .update t
  rw [hs.provenance] at hown
  refine ⟨own ++ own', t', hs.trans hs', fun h => hs.reportsAt_append (hown h), ?_⟩
  show (checkGlobal (s.heap.getKey object key) site .update >>= _) setup s = _
  rw [bind_of_ok hc, bind_of_ok hc']

/-- An assignment to a member checks the object, and then it runs setters and writes. -/
theorem assignMember_eq (E : Evaluator) (setup : Setup) (object : Operand) (key : Key)
    (value : Operand) (site : Site) (s : State) :
    ∃ own s', s.Notes own s' ∧
      ((s.provenance.findAny? (object.now s)).isSome → s.ReportsAt site own) ∧
      (do
        let slot ← getKey (← deref object) key
        let _ ← checkGlobal slot site .assign
        let _ ← checkGlobal (← deref object) site .assignProperty
        E.callSetters slot object value site
        setKey (← deref object) key (← deref value)) setup s =
      (do
        E.callSetters (s.heap.getKey (object.now s) key) object value site
        setKey (← deref object) key (← deref value)) setup s' := by
  let slot := s.heap.getKey (object.now s) key
  obtain ⟨own, t, hc, hs, _⟩ := checkGlobal_eq setup slot site .assign s
  obtain ⟨own', t', hc', hs', hown⟩ :=
    checkGlobal_eq setup (object.now t) site .assignProperty t
  rw [hs.now, hs.provenance] at hown
  refine ⟨own ++ own', t', hs.trans hs', fun h => hs.reportsAt_append (hown h), ?_⟩
  rw [bind_of_ok (deref_eq ..)]
  show (checkGlobal slot site .assign >>= _) setup s = _
  rw [bind_of_ok hc, bind_of_ok (deref_eq ..), bind_of_ok hc']

end Run

namespace Traced

section
variable {setup : Setup} {w : World} {stack : Stack} {name : String}

/-- A write to a name: in a frame of the program, or in the globals after a report. -/
theorem writeName (hs : w.Scope stack) {value : Operand} (hv : w.Has value)
    {site : Site} {violation : Violation} :
    Traced setup w (Evaluator.writeName name value stack site violation) fun _ _ => True := by
  intro hw
  obtain ⟨own, s, hc, hown, heq⟩ := writeName_eq setup name value stack site violation w.state
  have hr := HasRef.union (hw.now (hw.meaning stack name)) (hw.now hv)
  by_cases hglobal : ∃ f, w.state.heap.owner? stack name = some f ∧ Stack.globals? stack = some f
  · obtain ⟨f, ho, hf⟩ := hglobal
    obtain ⟨hmem, hbound⟩ := Heap.owner?_mem ho
    refine of_rebind (c := ()) hc.toChecks (hown f ho hf).ne_nil ((hs.mem_globals_iff hmem).2 hf)
      (hc.heap ▸ hbound) hr
      (heq.trans ?_) trivial hw
    have ho' : owner? stack name setup s = .ok (some f) s := by
      show EStateM.Result.ok (s.heap.owner? stack name) s = _
      rw [hc.heap, ho]
    exact bind_of_ok ho'
  · have hnot : ∀ f, w.state.heap.owner? stack name = some f → Stack.globals? stack ≠ some f :=
      fun f ho hf => hglobal ⟨f, ho, hf⟩
    have hs' : World.Scope ⟨s, w.globals⟩ stack := hs.mono hc.toChecks.le
    have hreb : Traced setup ⟨s, w.globals⟩ (Run.rebind name _ stack) fun _ _ => True :=
      rebind hs' (hr.mono hc.toChecks.le) (by rw [hc.heap]; exact hnot)
    obtain ⟨es, w', hrun, hres⟩ := hreb (hc.toChecks.ok hw)
    refine ⟨[.report own] ++ es, w', .append (.step (.check hc.toChecks)) hrun, ?_⟩
    rw [heq]
    exact hres

/-- An update of a member reads the object once, checks it and writes. -/
theorem updateMember (hg : setup.graph.Grounded) {object : Reference} (ho : w.HasRef object)
    (key : Key) (site : Site) :
    Traced setup w (do
      let _ ← Run.checkGlobal (← Run.getKey object key) site .update
      let _ ← Run.checkGlobal object site .update
      setKey object key .anyPrimitive) fun _ _ => True := by
  obtain ⟨own, s, hs, hown, heq⟩ := Run.updateMember_eq setup object key site w.state
  have hx : Traced setup ⟨s, w.globals⟩ (Pure.pure () : Run Unit) fun _ _ => True :=
    .pure fun _ => trivial
  refine Traced.of_write (k := fun _ => setKey object key .anyPrimitive) hg (.known object)
    hs.toChecks (fun h => (hown h).ne_nil) ho heq hx
    fun w' _ _ _ _ => ⟨key, [.anyPrimitive], (), rfl, ?_, trivial⟩
  · intro r hr
    rw [List.mem_singleton] at hr
    subst hr
    exact HasRef.anyPrimitive

/-- A `var` adds to a binding of the program, or binds in the innermost frame. -/
theorem addVariable (hs : w.Scope stack) {value : Operand} (hv : w.Has value) :
    Traced setup w (Evaluator.addVariable name value stack) fun _ _ => True := by
  obtain ⟨top, rest, rfl, htop⟩ := hs.cons
  have hdef : Traced setup w (do Run.define (← Run.top (top :: rest)) name value)
      fun _ _ => True := by
    show Traced setup w (Pure.pure top >>= fun f => Run.define f name value) _
    rw [traced_pure_bind]
    exact define htop hv
  unfold Evaluator.addVariable
  rw [traced_owner?_bind]
  split
  · next f hf =>
    split
    · exact hdef
    · next hne =>
      refine ok fun hw => ?_
      rw [beq_iff_eq] at hne
      have hnot := hs.local_of_ne (Heap.owner?_mem hf).1 hne
      rw [traced_get_bind, traced_deref_bind, traced_deref_bind]
      refine define hnot (HasRef.union (hw.now ?_) (hw.now hv))
      cases hfind : (w.state.heap.frame f).find? name with
      | none => exact HasRef.empty
      | some o => exact hw.bound f _ (Frame.mem_bindings_of_find? hfind)
  · exact hdef

end

end Traced

/-! ## Members -/

/-- The activities of an evaluator are traced. -/
structure Evaluator.IsTraced (setup : Setup) (E : Evaluator) : Prop where
  resolve : ∀ {w e stack}, w.Scope stack → Traced setup w (E.resolve e stack) Has
  bind : ∀ {w how p o stack}, w.Scope stack → w.Has o →
    Traced setup w (E.bind how p o stack) fun _ _ => True
  walk : ∀ {w fold s stack}, w.Scope stack → Traced setup w (E.walk fold s stack) HasRef
  invoke : ∀ {w v c}, w.HasCall c → Traced setup w (E.invoke v c) HasRef

namespace Evaluator.IsTraced

section
variable {setup : Setup} (hg : setup.graph.Grounded) {E : Evaluator} (hE : E.IsTraced setup)
  {w : World} {stack : Stack} (hs : w.Scope stack)
include hE hg hs

omit hg in
/-- An expression that may be left out is traced. -/
theorem resolve? (e : Option Script.Expr) : Traced setup w (E.resolve? e stack) Has := by
  cases e with
  | none => exact .pure fun _ => HasRef.undefined
  | some e => exact hE.resolve hs

/-- An expression evaluated for its effects is traced. -/
theorem visit (e : Script.Expr) : Traced setup w (E.visit e stack) fun _ _ => True :=
  (hE.resolve hs).bind hg fun _ _ _ _ _ => .pure fun _ => trivial

/-- An expression that may be left out, evaluated for its effects, is traced. -/
theorem visit? (e : Option Script.Expr) : Traced setup w (E.visit? e stack) fun _ _ => True := by
  cases e with
  | none => exact .pure fun _ => trivial
  | some e => exact hE.visit hg hs e

/-- The value of an expression exists. -/
theorem value (e : Script.Expr) : Traced setup w (E.value e stack) HasRef := by
  refine (hE.resolve hs).bind hg fun w' o _ hok ho => ?_
  have : Traced setup w' (deref o >>= Pure.pure) HasRef := by
    rw [traced_deref_bind]
    exact .pure fun _ => hok.now ho
  rwa [bind_pure] at this

/-- The key of a member is traced. -/
theorem memberKey (key : Script.Expr) :
    Traced setup w (E.memberKey key stack) fun _ _ => True := by
  unfold Evaluator.memberKey
  split
  · exact .pure fun _ => trivial
  · exact (hE.visit hg hs key).seq hg fun _ _ _ => .pure fun _ => trivial

/-- The key of a property is traced. -/
theorem propertyKey (key : Script.Expr) (computed : Bool) :
    Traced setup w (E.propertyKey key computed stack) fun _ _ => True := by
  unfold Evaluator.propertyKey
  split
  · exact hE.memberKey hg hs key
  · split <;> exact .pure fun _ => trivial

/-- The object of a member exists. -/
theorem memberTarget (target : Script.Expr) :
    Traced setup w (E.memberTarget target stack) fun w' p => w'.Has p.1 := by
  unfold Evaluator.memberTarget
  split
  · exact (hE.resolve hs).bind hg fun _ _ _ _ ho => .pure fun _ => ho
  · refine (hE.resolve hs).bind hg fun w' o hle _ ho => ?_
    exact (hE.memberKey hg (hs.mono hle) _).bind hg fun _ _ hle' _ _ =>
      .pure fun _ => ho.mono hle'
  · exact (hE.resolve hs).bind hg fun _ _ _ _ ho => .pure fun _ => ho

end

section
variable {setup : Setup} {w : World}

/-- Whether a value is an accessor is found without a change. -/
theorem accessor? (v : Value) : Traced setup w (Evaluator.accessor? v) fun _ _ => True := by
  unfold Evaluator.accessor?
  split
  · rw [traced_get_bind]
    exact .pure fun _ => trivial
  · exact .pure fun _ => trivial

variable (hg : setup.graph.Grounded) {E : Evaluator} (hE : E.IsTraced setup) {object : Operand}
  (ho : w.Has object)
include hE hg ho

/-- What a slot is read as exists, be it held there or returned by a getter. -/
theorem readSlot (site : Site) {v : Value} (hv : w.state.heap.Exists v) :
    Traced setup w (E.readSlot object site v) HasRef := by
  unfold Evaluator.readSlot
  refine (accessor? v).bind hg fun w' a hle _ _ => ?_
  split
  · exact .pure fun _ => .single (hle.exists hv)
  · refine hE.invoke ⟨fun o h => ?_, nofun⟩
    cases h
    exact ho.mono hle
  · exact .pure fun _ => .undefined

/-- What a member is read as exists. -/
theorem readMember (key : Key) (site : Site) :
    Traced setup w (E.readMember object key site) Has := by
  refine .ok fun hw => ?_
  unfold Evaluator.readMember
  rw [traced_deref_bind, traced_getKey_bind]
  have hslot := hw.getKey (object.now w.state) key
  refine (Traced.foldlM hg HasRef.empty fun v hv w' hle _ out hout => ?_).bind hg
    fun _ _ _ _ h => .pure fun _ => h
  refine (hE.readSlot hg (ho.mono hle) site (hle.exists (hslot v hv))).bind hg ?_
  exact fun _ _ hle' _ hr => .pure fun _ => .union (hout.mono hle') hr

/-- The setters of a slot are traced, given a value that exists. -/
theorem callSetters (slot : Reference) {value : Operand} (hv : w.Has value) (site : Site) :
    Traced setup w (E.callSetters slot object value site) fun _ _ => True := by
  refine Traced.forM hg fun v _ w' hle _ => ?_
  refine (accessor? v).bind hg fun w'' a hle' _ _ => ?_
  have hle := hle.trans hle'
  split
  · refine (hE.invoke ⟨fun o h => ?_, fun o h => ?_⟩).seq hg fun _ _ _ => .pure fun _ => trivial
    · cases h
      exact ho.mono hle
    · rw [List.mem_singleton] at h
      subst h
      exact hv.mono hle
  · exact .pure fun _ => trivial

/-- A write to a member is checked before the setters of the member run. -/
theorem assignMember (key : Key) {value : Operand} (hv : w.Has value) (site : Site) :
    Traced setup w (do
      let slot ← getKey (← deref object) key
      let _ ← checkGlobal slot site .assign
      let _ ← checkGlobal (← deref object) site .assignProperty
      E.callSetters slot object value site
      setKey (← deref object) key (← deref value)) fun _ _ => True := by
  obtain ⟨own, s, hs, hown, heq⟩ := assignMember_eq E setup object key value site w.state
  have hchecks := hs.toChecks
  refine Traced.of_write (k := fun _ => do setKey (← deref object) key (← deref value)) hg object
    hchecks (fun h => (hown h).ne_nil) ho heq
    (hE.callSetters hg (ho.mono hchecks.le) _ (hv.mono hchecks.le) site)
    fun w' _ hle hok _ => ⟨key, [value.now w'.state], (), ?_, ?_, trivial⟩
  · rw [bind_of_ok (deref_eq ..), bind_of_ok (deref_eq ..)]
    rfl
  · intro r hr
    rw [List.mem_singleton] at hr
    subst hr
    exact hok.now (hv.mono hle)

end

section
variable {setup : Setup} (hg : setup.graph.Grounded) {E : Evaluator} (hE : E.IsTraced setup)
  {w : World} {stack : Stack} (hs : w.Scope stack)
include hE hg hs

/-- An assignment to a target of any form is traced. -/
theorem assignTo (target : Script.Expr) {value : Operand} (hv : w.Has value) (site : Site) :
    Traced setup w (E.assignTo target value site stack) fun _ _ => True := by
  unfold Evaluator.assignTo
  split
  · exact .writeName hs hv
  · exact (hE.memberTarget hg hs _).bind hg fun _ p hle _ ho =>
      hE.assignMember hg ho p.2 (hv.mono hle) site
  · exact (hE.memberTarget hg hs _).bind hg fun _ p hle _ ho =>
      hE.assignMember hg ho p.2 (hv.mono hle) site
  · refine (hE.value hg hs _).bind hg fun _ _ _ _ _ => ?_
    exact Traced.checkGlobal.seq hg fun _ _ _ => .pure fun _ => trivial
  · exact .unsupported hg

/-! ## Patterns -/

omit hE hg in
/-- A binding in the innermost frame is traced, since that frame holds no globals. -/
theorem defineTop {name : String} {value : Operand} (hv : w.Has value) :
    Traced setup w (do define (← top stack) name value) fun _ _ => True := by
  obtain ⟨f, rest, rfl, hf⟩ := hs.cons
  show Traced setup w (Pure.pure f >>= fun f => define f name value) _
  rw [traced_pure_bind]
  exact .define hf hv

/-- The leaf of a pattern is bound to what exists. -/
theorem installLeaf (how : Install) (leaf : Script.Expr) {value : Operand} (hv : w.Has value) :
    Traced setup w (E.installLeaf how leaf value stack) fun _ _ => True := by
  unfold Evaluator.installLeaf
  split
  · exact hE.assignTo hg hs _ hv _
  · exact defineTop hs hv
  · exact .addVariable hs hv
  · exact .unsupported hg

/-- An item of an array pattern is bound to elements that exist, or to its default. -/
theorem bindItem (how : Install) {elements : Reference} (he : w.HasRef elements)
    (item : Script.PatternItem) :
    Traced setup w (E.bindItem how elements stack item) fun _ _ => True := by
  unfold Evaluator.bindItem
  split
  · exact hE.bind hs he
  · refine (hE.value hg hs _).bind hg fun w' r hle _ hr => ?_
    exact hE.installLeaf hg (hs.mono hle) how _ (HasRef.union (he.mono hle) hr)
  · exact .unsupported hg

/-- A property of an object pattern is bound to what its key holds, or to its default. -/
theorem bindProperty (how : Install) (init : Operand) (property : Script.PatternProperty) :
    Traced setup w (E.bindProperty how init stack property) fun _ _ => True := by
  refine .ok fun hw => ?_
  unfold Evaluator.bindProperty
  split
  · rw [traced_deref_bind, traced_getKey_bind]
    have hfound := hw.getKey (init.now w.state)
    split
    · rw [traced_pure_bind]
      exact hE.installLeaf hg hs how _ (hfound _)
    · refine (hE.value hg hs _).bind hg fun w' r hle _ hr => ?_
      rw [traced_pure_bind]
      exact hE.installLeaf hg (hs.mono hle) how _ (HasRef.union ((hfound _).mono hle) hr)
  · refine (hE.propertyKey hg hs _ _).bind hg fun w' k hle hok _ => ?_
    split
    · rw [traced_deref_bind, traced_getKey_bind]
      exact hE.bind (hs.mono hle) (hok.getKey _ _)
    · exact .unsupported hg

/-- The rest of a pattern is bound to a container that exists. -/
theorem bindRest (how : Install) (rest : Option Script.Pattern) {container : Run Value}
    (hc : Traced setup w container fun w' v => w'.state.heap.Exists v) :
    Traced setup w (E.bindRest how rest container stack) fun _ _ => True := by
  unfold Evaluator.bindRest
  split
  · exact .pure fun _ => trivial
  · exact hc.bind hg fun w' v hle _ hv => hE.installLeaf hg (hs.mono hle) how _ (HasRef.single hv)
  · exact .unsupported hg

/-- Patterns of every form are traced. -/
theorem bindStep (how : Install) (target : Script.Pattern) {init : Operand} (hi : w.Has init) :
    Traced setup w (E.bindStep how target init stack) fun _ _ => True := by
  refine .ok fun hw => ?_
  unfold Evaluator.bindStep
  split
  · exact hE.installLeaf hg hs how _ hi
  · rw [traced_deref_bind, traced_getKey_bind]
    have he := hw.getKey (init.now w.state) .any
    refine (Traced.forM hg fun item _ w' hle _ => ?_).seq hg fun w' hle _ => ?_
    · split
      · exact .pure fun _ => trivial
      · exact hE.bindItem hg (hs.mono hle) how (he.mono hle) _
    · exact hE.bindRest hg (hs.mono hle) how _ (.newArray fun _ => he.mono hle)
  · refine (Traced.forM hg fun p _ w' hle _ => ?_).seq hg fun w' hle _ => ?_
    · exact hE.bindProperty hg (hs.mono hle) how init p
    · refine hE.bindRest hg (hs.mono hle) how _ (.ok fun hok => ?_)
      rw [traced_deref_bind, traced_getKey_bind]
      refine .newObject fun _ v hv => ?_
      rcases hv with ⟨e, he, _⟩ | ⟨r, hr, hv⟩
      · cases he
      · cases hr
        exact hok.getKey _ _ v hv

/-! ## Expressions that write -/

/-- Assignments of every operator are traced. -/
theorem assign (span : Script.Span) (op : Script.AssignOp) (target : Script.Pattern)
    (value : Script.Expr) : Traced setup w (E.assign span op target value stack) Has := by
  unfold Evaluator.assign
  refine (hE.resolve hs).bind hg fun w' right hle _ hr => ?_
  have hrest : ∀ value : Operand, w'.Has value → Traced setup w' (do
      E.bind (.assign ⟨.assign, span⟩) target value stack
      return value) Has := fun _ hv =>
    (hE.bind (hs.mono hle) hv).seq hg fun _ hle' _ => .pure fun _ => hv.mono hle'
  cases op with
  | plain => exact hrest _ hr
  | combined op =>
    refine hrest (if op.isLogical then right else .known .anyPrimitive) ?_
    split
    · exact hr
    · exact HasRef.anyPrimitive

/-- Increments and decrements are traced. -/
theorem update (span : Script.Span) (operand : Script.Expr) :
    Traced setup w (E.update span operand stack) Has := by
  have hmember : ∀ site : Site, Traced setup w (do
      let member ← E.memberTarget operand stack
      let object ← deref member.1
      let _ ← checkGlobal (← getKey object member.2) site .update
      let _ ← checkGlobal object site .update
      setKey object member.2 .anyPrimitive
      return .known .anyPrimitive) Has := by
    intro site
    refine (hE.memberTarget hg hs operand).bind hg fun w' p _ hok ho => ?_
    rw [traced_deref_bind]
    have hend : ∀ w'', Traced setup w'' (Pure.pure (.known .anyPrimitive) : Run Operand) Has :=
      fun _ => .pure fun _ => HasRef.anyPrimitive
    have := (Traced.updateMember hg (hok.now ho) p.2 site).seq hg fun w'' _ _ => hend w''
    simpa only [bind_assoc] using this
  unfold Evaluator.update
  split
  · exact (Traced.writeName hs HasRef.anyPrimitive).seq hg fun _ _ _ =>
      .pure fun _ => HasRef.anyPrimitive
  · exact hmember _
  · exact hmember _
  · refine (hE.value hg hs _).bind hg fun _ _ _ _ _ => ?_
    exact Traced.checkGlobal.seq hg fun _ _ _ => .pure fun _ => HasRef.anyPrimitive

/-- Deletions of properties are traced. -/
theorem deleteProperty (span : Script.Span) (operand : Script.Expr) :
    Traced setup w (E.deleteProperty span operand stack) Has := by
  have hmember : ∀ site : Site, Traced setup w (do
      let member ← E.memberTarget operand stack
      let _ ← checkGlobal (← deref member.1) site .delete
      return .known .boolean) Has := by
    intro site
    refine (hE.memberTarget hg hs operand).bind hg fun w' p _ _ _ => ?_
    rw [traced_deref_bind]
    exact Traced.checkGlobal.seq hg fun _ _ _ => .pure fun _ => HasRef.boolean
  unfold Evaluator.deleteProperty
  split
  · exact hmember _
  · exact hmember _
  · exact (hE.visit hg hs _).seq hg fun _ _ _ => .pure fun _ => HasRef.boolean

end

end Evaluator.IsTraced

end FrozenGlobals
