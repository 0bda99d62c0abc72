import FrozenGlobals.Analysis.Call
import FrozenGlobals.Proofs.Analysis.Writing

/-!
# Traces of calls

Programs, functions, built-ins and external code are traced if the evaluator they call back is.
Scopes grow from a frame of globals inwards; a mutating built-in checks its target before it writes
to it, and does not run code in between.
-/

namespace FrozenGlobals

open Run World

namespace Traced

section
variable {setup : Setup} {w : World} {stack : Stack} (hg : setup.graph.Grounded)

/-! ## Scopes -/

/-- The template of a scope is found or the failure is not about frames. -/
theorem template (start : Int) :
    Traced setup w (Run.template start) fun _ _ => True := by
  unfold Run.template
  rw [traced_read_bind, traced_get_bind]
  split
  · exact .throw
  · split
    · exact .throw
    · exact .pure fun _ => trivial

/-- Names that are declared empty in a frame keep what all of its bindings have in common. -/
theorem bindings_foldl_define {P : Operand → Prop} (hP : P (.known .empty)) (names : List String)
    (f : Frame) (hf : ∀ b ∈ f.bindings, P b.2) :
    ∀ b ∈ (names.foldl (fun f name => f.define name (.known .empty)) f).bindings, P b.2 := by
  induction names generalizing f with
  | nil => exact hf
  | cons name names ih =>
    refine ih _ fun b hb => ?_
    rcases Frame.mem_setBinding hb with hb | hb
    · exact hf b hb
    · rw [hb]
      exact hP

include hg

/-- A frame for a template goes on top of any frames that end in globals. -/
theorem instantiate (t : Script.ScopeTemplate) (hs : w.Outer stack) :
    Traced setup w (Run.instantiate t stack) Scope := by
  unfold Run.instantiate
  have hvars : ∀ b ∈ (t.vars.foldl (fun f name => f.define name (.known .empty))
      Frame.empty).bindings, w.Has b.2 :=
    bindings_foldl_define (P := w.Has) HasRef.empty t.vars _ nofun
  refine (newFrame fun _ => hvars).bind hg fun w' f hle _ hf => ?_
  have hscope : w'.Scope (f :: stack) := (hs.mono hle).push hf
  refine (forM hg fun fn _ w'' hle' _ => ?_).seq hg fun _ hle' _ => .pure fun _ => hscope.mono hle'
  split
  · exact .pure fun _ => trivial
  · have hscope' := hscope.mono hle'
    refine (newFunction hscope').bind hg fun w₃ v hle₃ _ hv => ?_
    obtain ⟨top, rest, heq, htop⟩ := (hscope'.mono hle₃).cons
    cases heq
    exact define htop (HasRef.single hv)

/-- A new frame makes the frames below it the scope of a program. -/
theorem pushFrame (hs : w.Outer stack) : Traced setup w (Run.pushFrame stack) Scope := by
  unfold Run.pushFrame
  exact (newFrame fun _ _ hb => (List.not_mem_nil hb).elim).bind hg fun w' f hle _ hf =>
    .pure fun _ => (hs.mono hle).push hf

end

end Traced

namespace Evaluator.IsTraced

section
variable {setup : Setup} (hg : setup.graph.Grounded) {E : Evaluator} (hE : E.IsTraced setup)
  {w : World} {stack : Stack}
include hE hg

/-- Statements in sequence are traced, and what they return exists. -/
theorem walkAll (hs : w.Scope stack) (fold : Bool) (body : List Script.Stmt) :
    Traced setup w (E.walkAll fold body stack) HasRef := by
  refine Traced.foldlM hg HasRef.empty fun s _ w' hle _ r hr => ?_
  exact (hE.walk (hs.mono hle)).bind hg fun _ _ hle' _ hs' =>
    .pure fun _ => .union (hr.mono hle') hs'

/-- A block is traced below a frame of its own. -/
theorem walkBlock (hs : w.Scope stack) (fold : Bool) (b : Script.Block) :
    Traced setup w (E.walkBlock fold b stack) HasRef := by
  unfold Evaluator.walkBlock
  refine Traced.checkCanceled.seq hg fun w₁ h₁ _ => ?_
  refine (Traced.template _).bind hg fun w₂ t h₂ _ _ => ?_
  refine Traced.log.seq hg fun w₃ h₃ _ => ?_
  have hs₃ := hs.mono ((h₁.trans h₂).trans h₃)
  exact (Traced.instantiate hg t hs₃.outer).bind hg fun _ _ _ _ h => hE.walkAll hg h fold _

/-- A program is traced from the frame of its globals. -/
theorem runProgram {global : Nat} (hf : global ∈ w.globals) (unit : Nat) :
    Traced setup w (E.runProgram unit [global]) HasRef := by
  unfold Evaluator.runProgram
  refine Traced.inUnit hg (fun hle h => h.mono hle) fun w₁ h₁ _ => ?_
  refine (Traced.template _).bind hg fun w₂ t h₂ _ _ => ?_
  have ho : w₂.Outer [global] := .globals (h₂.globals _ (h₁.globals _ hf))
  refine (Traced.instantiate hg t ho).bind hg fun w₃ stack _ _ hs => ?_
  rw [traced_read_bind]
  split
  · exact .throw
  · exact hE.walkAll hg hs _ _

/-- The possibilities of a callee are called one after another. -/
theorem invokeAll {c : CallSite} (hc : w.HasCall c) (callee : Reference) :
    Traced setup w (E.invokeAll callee c) HasRef := by
  refine Traced.foldlM hg HasRef.empty fun v _ w' hle _ r hr => ?_
  exact (hE.invoke (hc.mono hle)).bind hg fun _ _ hle' _ hs' =>
    .pure fun _ => .union (hr.mono hle') hs'

end

end Evaluator.IsTraced

/-! ## Native methods -/

/-- The arrays a method was read from at this moment. -/
def CallSite.arraysNow (c : CallSite) (s : State) : Reference :=
  match c.receiver with
  | some object => (object.now s).arrays
  | none => .empty

namespace Run

/-- The arrays a method works on are read without a change. -/
theorem receiverArrays_eq (setup : Setup) (c : CallSite) (s : State) :
    Evaluator.receiverArrays c setup s = .ok (c.arraysNow s) s := by
  unfold Evaluator.receiverArrays CallSite.arraysNow
  cases c.receiver with
  | none => rfl
  | some o => exact bind_of_ok (deref_eq ..)

/-- A mutating method of arrays reports at its call if one of the arrays has a path. -/
theorem arrayTarget_eq (setup : Setup) (c : CallSite) (s : State) :
    ∃ own s', Evaluator.arrayTarget c setup s = .ok (c.arraysNow s) s' ∧ s.Checks own s' ∧
      ((s.provenance.findAny? (c.arraysNow s)).isSome → own ≠ []) := by
  obtain ⟨own, s', hc, hs, hown⟩ := checkGlobal_eq setup (c.arraysNow s) c.site .arrayMethod s
  refine ⟨own, s', ?_, hs.toChecks, fun h => (hown h).ne_nil⟩
  unfold Evaluator.arrayTarget
  rw [bind_of_ok (receiverArrays_eq ..), bind_of_ok hc]
  rfl

/-- A mutating function on its first argument reports at its call if that argument has a path. -/
theorem objectTarget_eq (setup : Setup) (c : CallSite) (s : State) :
    ∃ own s', Evaluator.objectTarget c setup s = .ok ((c.arg 0).now s) s' ∧ s.Checks own s' ∧
      ((s.provenance.findAny? ((c.arg 0).now s)).isSome → own ≠ []) := by
  obtain ⟨own, s', hc, hs, hown⟩ := checkGlobal_eq setup ((c.arg 0).now s) c.site .objectMethod s
  refine ⟨own, s', ?_, hs.toChecks, fun h => (hown h).ne_nil⟩
  unfold Evaluator.objectTarget Evaluator.argument
  rw [bind_of_ok (deref_eq ..), bind_of_ok hc]
  rfl

/-- Writes one after another whose values are read when they are written. -/
theorem forM_setKey {α : Type} {setup : Setup} {w : World} (hw : w.Ok setup) {r : Reference}
    {k : Key} {f : α → Run Reference} (args : List α)
    (hf : ∀ a ∈ args, ∀ w', w.Le w' → w'.Ok setup →
      ∃ v, f a setup w'.state = .ok v w'.state ∧ w'.HasRef v) :
    ∃ values, (args.forM fun a => do setKey r k (← f a)) setup w.state =
        .ok () { w.state with heap := w.state.heap.setKeys r k values } ∧
      ∀ v ∈ values, w.HasRef v := by
  induction args generalizing w with
  | nil => exact ⟨[], rfl, nofun⟩
  | cons a args ih =>
    obtain ⟨v, hv, hex⟩ := hf a (by simp) w (.refl w) hw
    have hone : ∀ r ∈ [v], ∀ u ∈ r, w.state.heap.Exists u := by
      intro r hr
      rw [List.mem_singleton] at hr
      exact hr ▸ hex
    have hle := World.Le.setKeys w r k [v]
    have hok := hw.setKeys r k hone
    obtain ⟨values, heq, hvalues⟩ := ih hok fun b hb w' h hw' =>
      hf b (List.mem_cons_of_mem _ hb) w' (hle.trans h) hw'
    refine ⟨v :: values, ?_, fun u hu => ?_⟩
    · rw [List.forM_eq_forM, List.forM_cons, bind_assoc, bind_of_ok hv]
      have hset : setKey r k v setup w.state =
          .ok () (w.withHeap (w.state.heap.setKeys r k [v])).state := rfl
      rw [bind_of_ok hset]
      exact heq
    · rcases List.mem_cons.1 hu with rfl | hu
      · exact hex
      · intro x hx hc
        have := hvalues u hu x hx hc
        rwa [World.withHeap, Heap.isSome_setKeys] at this

end Run

section
variable {β : Type} {setup : Setup} {w : World} {Q : World → β → Prop}

/-- Reading the arrays of the receiver leaves no trace. -/
@[simp] theorem traced_receiverArrays_bind {c : CallSite} {f : Reference → Run β} :
    Traced setup w (Evaluator.receiverArrays c >>= f) Q ↔
      Traced setup w (f (c.arraysNow w.state)) Q := by
  rw [Traced, Run.bind_of_ok (Run.receiverArrays_eq ..)]
  rfl

/-- Reading all elements at once leaves no trace. -/
@[simp] theorem traced_elements_bind {r : Reference} {f : Reference → Run β} :
    Traced setup w (Evaluator.elements r >>= f) Q ↔
      Traced setup w (f (w.state.heap.getKey r .any)) Q := Iff.rfl

/-- Reading an argument leaves no trace. -/
@[simp] theorem traced_argument_bind {c : CallSite} {i : Nat} {f : Reference → Run β} :
    Traced setup w (Evaluator.argument c i >>= f) Q ↔
      Traced setup w (f ((c.arg i).now w.state)) Q := traced_deref_bind

/-- An argument of a call exists, also one beyond the last. -/
theorem World.HasCall.arg {c : CallSite} (hc : w.HasCall c) (i : Nat) : w.Has (c.arg i) := by
  unfold CallSite.arg
  cases h : c.args[i]? with
  | none => exact HasRef.undefined
  | some o => exact hc.2 o (List.mem_of_getElem? h)

/-- A call that a native method makes with its own arguments mentions nothing new. -/
theorem World.HasCall.callback {c : CallSite} (hc : w.HasCall c) : w.HasCall (c.callback c.args) :=
  ⟨fun _ h => (by cases h), hc.2⟩

/-- The arrays a method works on exist. -/
theorem World.Ok.arraysNow (hw : w.Ok setup) {c : CallSite} (hc : w.HasCall c) :
    w.HasRef (c.arraysNow w.state) := by
  unfold CallSite.arraysNow
  split
  · next o ho => exact (hw.now (hc.1 o ho)).arrays
  · exact HasRef.empty

/-- What operands are taken together exists if each of them does. -/
theorem World.Ok.unionAll_now (hw : w.Ok setup) {os : List Operand} (h : ∀ o ∈ os, w.Has o) :
    w.HasRef (.unionAll (os.map (·.now w.state))) := by
  refine HasRef.unionAll fun r hr => ?_
  obtain ⟨o, ho, rfl⟩ := List.mem_map.1 hr
  exact hw.now (h o ho)

end

namespace Traced

section
variable {setup : Setup} {w : World} (hg : setup.graph.Grounded)
include hg

/-- A new array of given elements exists. -/
theorem arrayOf {r : Reference} (hr : w.Ok setup → w.HasRef r) :
    Traced setup w (Evaluator.arrayOf r) HasRef :=
  (newArray hr).bind hg fun _ _ _ _ hv => .pure fun _ => .single hv

/-- A new object that holds a reference at every key exists. -/
theorem objectOf {r : Reference} (hr : w.HasRef r) :
    Traced setup w (Evaluator.objectOf r) HasRef := by
  refine (newObject fun _ v hv => ?_).bind hg fun _ _ _ _ hv => .pure fun _ => .single hv
  rcases hv with ⟨e, he, _⟩ | ⟨s, hs, hv⟩
  · cases he
  · cases hs
    exact hr v hv

omit hg in
/-- A property descriptor for a reference exists. -/
theorem descriptor {r : Reference} (hr : w.HasRef r) :
    Traced setup w (Evaluator.descriptor r) fun w' v => w'.state.heap.Exists v := by
  refine newObject fun _ v hv => ?_
  rcases ObjectCell.holds_set.1 hv with (⟨e, he, _⟩ | ⟨s, hs, _⟩) | hv
  · cases he
  · cases hs
  · exact hr v hv

variable {c : CallSite} (hc : w.HasCall c)
include hc

omit hg hc in
/-- A mutating method without code in between: the check of its target, then the write. -/
theorem of_target (hg : setup.graph.Grounded) {γ : Type} {check : Run Reference}
    {k : Reference → Run γ} {R : World → γ → Prop} {r : Reference} {own : List Diagnostic}
    {s : State} (heq : check setup w.state = .ok r s) (hs : w.state.Checks own s)
    (hown : (w.state.provenance.findAny? r).isSome → own ≠ []) (hr : w.HasRef r)
    (hk : ∀ w', w.Le w' → w'.Ok setup → ∃ key values a,
      k r setup w'.state = .ok a { w'.state with heap := w'.state.heap.setKeys r key values } ∧
      (∀ v ∈ values, w'.HasRef v) ∧ R (w'.withHeap (w'.state.heap.setKeys r key values)) a) :
    Traced setup w (check >>= k) R := by
  have hx : Traced setup ⟨s, w.globals⟩ (Pure.pure () : Run Unit) fun _ _ => True :=
    .pure fun _ => trivial
  exact .of_write (k := fun _ => k r) hg (.known r) hs hown hr (bind_of_ok heq) hx
    fun w' _ hle hok _ => hk w' hle hok

omit hg in
/-- The arrays that a mutating method checked exist. -/
theorem arrayTarget : Traced setup w (Evaluator.arrayTarget c) HasRef := by
  refine .ok fun hw => ?_
  obtain ⟨own, s, heq, hs, _⟩ := arrayTarget_eq setup c w.state
  exact .of_checks heq hs fun _ => (hw.arraysNow hc).mono hs.le

omit hg in
/-- The first argument that a mutating function checked exists. -/
theorem objectTarget : Traced setup w (Evaluator.objectTarget c) HasRef := by
  refine .ok fun hw => ?_
  obtain ⟨own, s, heq, hs, _⟩ := objectTarget_eq setup c w.state
  exact .of_checks heq hs fun _ => (hw.now (hc.arg 0)).mono hs.le

/-- `push`, `unshift` and their like check the arrays, then write the arguments into them. -/
theorem insertElements : Traced setup w (Evaluator.insertElements c) HasRef := by
  refine .ok fun hw => ?_
  obtain ⟨own, s, heq, hs, hown⟩ := arrayTarget_eq setup c w.state
  refine of_target hg heq hs hown (hw.arraysNow hc) fun w' hle hok => ?_
  obtain ⟨values, heq, hv⟩ := forM_setKey (k := .any) (f := deref) hok c.args
    fun a ha w'' hle' hok' =>
      ⟨_, deref_eq .., hok'.now ((hc.2 a ha).mono (hle.trans hle'))⟩
  exact ⟨.any, values, .anyPrimitive, bind_of_ok heq, hv, HasRef.anyPrimitive⟩

/-- `pop` and `shift` check the arrays, then read their elements. -/
theorem removeElement : Traced setup w (Evaluator.removeElement c) HasRef := by
  refine (arrayTarget hc).bind hg fun w' r _ hok _ => ?_
  rw [traced_elements_bind]
  exact .pure fun _ => .union (hok.getKey r .any) .undefined

/-- `splice` makes the array of removed elements between its check and its writes. -/
theorem splice : Traced setup w (Evaluator.splice c) HasRef := by
  refine .ok fun hw => ?_
  obtain ⟨own, s, heq, hs, hown⟩ := arrayTarget_eq setup c w.state
  have hr := hw.arraysNow hc
  have hok := hs.ok hw
  have hx : Traced setup ⟨s, w.globals⟩
      (Evaluator.elements (c.arraysNow w.state) >>= Evaluator.arrayOf) HasRef := by
    rw [traced_elements_bind]
    exact arrayOf hg fun _ => hok.getKey _ .any
  refine .of_write (k := fun b => do
      (c.args.drop 2).forM fun a => do setKey (c.arraysNow w.state) .any (← deref a)
      return b) hg (.known (c.arraysNow w.state)) hs hown hr (bind_of_ok heq) hx
    fun w' b hle hok hb => ?_
  obtain ⟨values, heq, hv⟩ := forM_setKey (k := .any) (f := deref) hok (c.args.drop 2)
    fun a ha w'' hle' hok' =>
      ⟨_, deref_eq .., hok'.now ((hc.2 a (List.mem_of_mem_drop ha)).mono (hle.trans hle'))⟩
  exact ⟨.any, values, b, bind_of_ok heq, hv, hb.mono (.setKeys ..)⟩

/-- `fill` checks the arrays, then writes its first argument into them. -/
theorem fill : Traced setup w (Evaluator.fill c) HasRef := by
  refine .ok fun hw => ?_
  obtain ⟨own, s, heq, hs, hown⟩ := arrayTarget_eq setup c w.state
  have hr := hw.arraysNow hc
  refine of_target hg heq hs hown hr fun w' hle hok => ?_
  refine ⟨.any, [(c.arg 0).now w'.state], c.arraysNow w.state, bind_of_ok (deref_eq ..), ?_,
    (hr.mono hle).mono (.setKeys ..)⟩
  intro v hv
  rw [List.mem_singleton] at hv
  subst hv
  exact hok.now ((hc.arg 0).mono hle)

/-- `Object.assign` checks its target, then writes what the sources hold. -/
theorem objectAssign : Traced setup w (Evaluator.objectAssign c) HasRef := by
  refine .ok fun hw => ?_
  obtain ⟨own, s, heq, hs, hown⟩ := objectTarget_eq setup c w.state
  have hr := hw.now (hc.arg 0)
  refine of_target hg heq hs hown hr fun w' hle hok => ?_
  obtain ⟨values, heq, hv⟩ := forM_setKey (k := .any)
    (f := fun a => do Evaluator.elements (← deref a)) hok (c.args.drop 1)
    fun a _ w'' _ hok' => ⟨_, bind_of_ok (deref_eq ..), hok'.getKey _ .any⟩
  simp only [bind_assoc] at heq
  exact ⟨.any, values, _, bind_of_ok heq, hv, (hr.mono hle).mono (.setKeys ..)⟩

/-- `Object.defineProperty` and `Object.defineProperties` differ in where the values come from. -/
theorem of_objectWrite {f : Run Reference}
    (hf : ∀ w' : World, w'.Ok setup → ∃ r, f setup w'.state = .ok r w'.state ∧ w'.HasRef r) :
    Traced setup w (do
      let target ← Evaluator.objectTarget c
      setKey target .any (← f)
      return target) HasRef := by
  refine .ok fun hw => ?_
  obtain ⟨own, s, heq, hs, hown⟩ := objectTarget_eq setup c w.state
  have hr := hw.now (hc.arg 0)
  refine of_target hg heq hs hown hr fun w' hle hok => ?_
  obtain ⟨v, hv, hex⟩ := hf w' hok
  refine ⟨.any, [v], _, bind_of_ok hv, ?_, (hr.mono hle).mono (.setKeys ..)⟩
  intro u hu
  rw [List.mem_singleton] at hu
  exact hu ▸ hex

/-- `Object.defineProperty` checks its target, then writes what the descriptor holds. -/
theorem defineProperty : Traced setup w (Evaluator.defineProperty c) HasRef := by
  have := of_objectWrite (f := do getKey (← Evaluator.argument c 2) (.name "value")) hg hc
    fun w' hok => ⟨_, bind_of_ok (deref_eq ..), hok.getKey _ _⟩
  unfold Evaluator.defineProperty
  simpa only [bind_assoc] using this

/-- `Object.defineProperties` checks its target, then writes what the descriptors hold. -/
theorem defineProperties : Traced setup w (Evaluator.defineProperties c) HasRef := by
  have := of_objectWrite (f := do
      getKey (← Evaluator.elements (← Evaluator.argument c 1)) (.name "value")) hg hc
    fun w' hok => ⟨_, bind_of_ok (deref_eq ..), hok.getKey _ _⟩
  unfold Evaluator.defineProperties
  simpa only [bind_assoc] using this

/-- `concat` makes a new array and writes to no other one. -/
theorem concat : Traced setup w (Evaluator.concat c) HasRef := by
  refine .ok fun hw => ?_
  unfold Evaluator.concat
  rw [traced_receiverArrays_bind, traced_elements_bind, traced_get_bind, traced_derefAll_bind]
  refine arrayOf hg fun _ => ?_
  have hargs := hw.unionAll_now hc.2
  have hfirst := hw.getKey (c.arraysNow w.state) .any
  -- the loop over the arguments keeps what exists
  have hvalues : ∀ v ∈ (Reference.unionAll (c.args.map (·.now w.state))).values,
      w.state.heap.Exists v := hargs
  generalize w.state.heap.getKey (c.arraysNow w.state) .any = out at hfirst ⊢
  generalize (Reference.unionAll (c.args.map (·.now w.state))).values = vs at hvalues ⊢
  induction vs generalizing out with
  | nil => exact hfirst
  | cons v vs ih =>
    refine ih _ ?_ fun u hu => hvalues u (List.mem_cons_of_mem _ hu)
    cases v with
    | array id => exact .union hfirst (hw.elements id)
    | _ => exact .insert hfirst (hvalues _ (by simp))

omit hg hc in
/-- The elements of what the method was read from. -/
theorem copyElements {f : Reference → Run Reference}
    (hf : ∀ r, w.HasRef r → Traced setup w (f r) HasRef) :
    Traced setup w (do f (← Evaluator.elements (← Evaluator.receiverArrays c))) HasRef := by
  refine .ok fun hw => ?_
  rw [traced_receiverArrays_bind, traced_elements_bind]
  exact hf _ (hw.getKey _ .any)

omit hg hc in
/-- The elements of the first argument. -/
theorem argumentElements {f : Reference → Run Reference}
    (hf : ∀ r, w.HasRef r → Traced setup w (f r) HasRef) :
    Traced setup w (do f (← Evaluator.elements (← Evaluator.argument c 0))) HasRef := by
  refine .ok fun hw => ?_
  rw [traced_argument_bind, traced_elements_bind]
  exact hf _ (hw.getKey _ .any)

omit hc in
/-- `flat` makes a new array and writes to no other one. -/
theorem flat : Traced setup w (Evaluator.flat c) HasRef := by
  refine .ok fun hw => ?_
  unfold Evaluator.flat
  rw [traced_receiverArrays_bind, traced_get_bind]
  refine arrayOf hg fun _ => ?_
  have loop : ∀ (unseen : List Nat) (queue : List Value) (out : Reference), w.HasRef out →
      w.HasRef (w.state.heap.flatten unseen queue out) := by
    intro unseen queue out
    fun_induction Heap.flatten with
    | case1 => exact id
    | case2 _ _ _ _ _ _ ih => exact fun h => ih (.union h (hw.elements _))
    | case3 _ _ _ _ _ ih => exact ih
    | case4 _ _ _ _ _ ih => exact ih
  exact loop _ _ _ HasRef.empty

/-- A new array of elements and some of the arguments writes to no other array. -/
theorem copyWith {args : List Operand} (ha : ∀ o ∈ args, o ∈ c.args) :
    Traced setup w (Evaluator.copyWith c args) HasRef := by
  refine .ok fun hw => ?_
  unfold Evaluator.copyWith
  rw [traced_receiverArrays_bind, traced_elements_bind, traced_derefAll_bind]
  exact arrayOf hg fun _ =>
    .union (hw.getKey _ .any) (hw.unionAll_now fun o ho => hc.2 o (ha o ho))

omit hc in
/-- `Object.create` makes a new object. -/
theorem createObject : Traced setup w (Evaluator.createObject c) HasRef := by
  refine .ok fun hw => ?_
  unfold Evaluator.createObject
  rw [traced_argument_bind, traced_elements_bind]
  have hin := hw.getKey ((c.arg 0).now w.state) .any
  split
  · rw [traced_deref_bind, traced_elements_bind, traced_getKey_bind]
    exact objectOf hg (.union hin (hw.getKey _ _))
  · rw [traced_pure_bind]
    exact objectOf hg (.union hin .empty)

/-- Calls of the global constructors and functions are traced. -/
theorem callIntrinsic (i : Intrinsic) : Traced setup w (Evaluator.callIntrinsic i c) HasRef := by
  refine .ok fun hw => ?_
  unfold Evaluator.callIntrinsic
  cases i with
  | eval | function => exact report.seq hg fun _ _ _ => .pure fun _ => .empty
  | unknown _ => exact .pure fun _ => .empty
  | array =>
    rw [traced_derefAll_bind]
    exact arrayOf hg fun _ => hw.unionAll_now hc.2
  | object =>
    have hempty : w.Ok setup → ∀ v, ObjectCell.empty.Holds v → w.state.heap.Exists v := by
      rintro _ v (⟨e, he, _⟩ | ⟨r, hr, _⟩)
      · cases he
      · cases hr
    refine (newObject hempty).bind hg fun w' v hle hok hv => ?_
    split
    · next a ha =>
      rw [traced_deref_bind]
      have ho := (hc.2 a (List.mem_of_mem_head? ha)).mono hle
      exact .pure fun _ => .union (.single hv) (hok.now ho).containers
    · rw [traced_pure_bind]
      exact .pure fun _ => .union (.single hv) (HasRef.empty.containers)

end

end Traced

namespace Evaluator.IsTraced

section
variable {setup : Setup} (hg : setup.graph.Grounded) {E : Evaluator} (hE : E.IsTraced setup)
  {w : World} {c : CallSite} (hc : w.HasCall c)
include hE hg hc

omit hc in
/-- A callback is called with references that exist. -/
theorem callback (i : Nat) {args : List Reference} (ha : ∀ r ∈ args, w.HasRef r) :
    Traced setup w (E.callback c i args) HasRef := by
  unfold Evaluator.callback
  split
  · exact .pure fun _ => .empty
  · rw [traced_deref_bind]
    refine hE.invokeAll hg ⟨fun _ h => (by cases h), fun o ho => ?_⟩ _
    obtain ⟨r, hr, rfl⟩ := List.mem_map.1 ho
    exact ha r hr

/-- A callback on elements is given these elements, and what it returns exists. -/
theorem elementCallback : Traced setup w (E.elementCallback c) fun w' p =>
    w'.HasRef p.1 ∧ w'.HasRef p.2 := by
  refine .ok fun hw => ?_
  unfold Evaluator.elementCallback
  rw [traced_receiverArrays_bind, traced_elements_bind]
  have he := hw.getKey (c.arraysNow w.state) .any
  refine (hE.callback hg 0 fun r hr => ?_).bind hg fun _ _ hle _ hr =>
    .pure fun _ => ⟨he.mono hle, hr⟩
  simp only [List.mem_cons, List.not_mem_nil, or_false] at hr
  rcases hr with rfl | rfl | rfl
  · exact he
  · exact .anyPrimitive
  · exact hw.arraysNow hc

/-- `sort` checks the arrays, then calls back. -/
theorem sort : Traced setup w (E.sort c) HasRef := by
  unfold Evaluator.sort
  refine (Traced.arrayTarget hc).bind hg fun w' r hle hok hr => ?_
  rw [traced_elements_bind]
  have he := hok.getKey r .any
  refine (hE.callback hg 0 fun s hs => ?_).seq hg fun _ hle' _ =>
    .pure fun _ => hr.mono hle'
  simp only [List.mem_cons, List.not_mem_nil, or_false, or_self] at hs
  exact hs ▸ he

/-- `flatMap` collects what its callback returned in a new array. -/
theorem flatMap : Traced setup w (E.flatMap c) HasRef := by
  unfold Evaluator.flatMap
  refine (hE.elementCallback hg hc).bind hg fun w' p _ hok hp => ?_
  obtain ⟨elements, results⟩ := p
  show Traced setup w' (Evaluator.elements results.arrays >>= _) _
  rw [traced_elements_bind]
  exact .arrayOf hg fun _ => .union hp.2 (hok.getKey _ .any)

/-- `reduce` calls back with what it has so far, which exists. -/
theorem reduce : Traced setup w (E.reduce c) HasRef := by
  refine .ok fun hw => ?_
  unfold Evaluator.reduce
  rw [traced_receiverArrays_bind, traced_elements_bind]
  have he := hw.getKey (c.arraysNow w.state) .any
  have hend : ∀ start : Reference, w.HasRef start → Traced setup w (do
      let results ← E.callback c 0 [start, w.state.heap.getKey (c.arraysNow w.state) .any,
        .anyPrimitive, c.arraysNow w.state]
      return results.union start) HasRef := by
    intro start hstart
    refine (hE.callback hg 0 fun r hr => ?_).bind hg fun _ _ hle _ hr =>
      .pure fun _ => .union hr (hstart.mono hle)
    simp only [List.mem_cons, List.not_mem_nil, or_false] at hr
    rcases hr with rfl | rfl | rfl | rfl
    · exact hstart
    · exact he
    · exact .anyPrimitive
    · exact hw.arraysNow hc
  split
  · next a ha =>
    rw [traced_deref_bind, traced_pure_bind]
    exact hend _ (.union he (hw.now (hc.2 a (List.mem_of_getElem? ha))))
  · rw [traced_pure_bind]
    exact hend _ he

omit hc in
/-- `toSorted` calls back and makes a new array. -/
theorem toSorted : Traced setup w (E.toSorted c) HasRef := by
  refine .ok fun hw => ?_
  unfold Evaluator.toSorted
  rw [traced_receiverArrays_bind, traced_elements_bind]
  have he := hw.getKey (c.arraysNow w.state) .any
  refine (hE.callback hg 0 fun s hs => ?_).seq hg fun _ hle' _ =>
    .arrayOf hg fun _ => he.mono hle'
  simp only [List.mem_cons, List.not_mem_nil, or_false, or_self] at hs
  exact hs ▸ he

omit hc in
/-- `Array.from` calls back and makes a new array. -/
theorem arrayFrom : Traced setup w (E.arrayFrom c) HasRef := by
  refine .ok fun hw => ?_
  unfold Evaluator.arrayFrom
  rw [traced_argument_bind, traced_elements_bind]
  have he := hw.getKey ((c.arg 0).now w.state) .any
  split
  · exact .arrayOf hg fun _ => he
  · refine (hE.callback hg 1 fun r hr => ?_).bind hg fun _ _ _ _ hr => .arrayOf hg fun _ => hr
    simp only [List.mem_cons, List.not_mem_nil, or_false] at hr
    rcases hr with rfl | rfl
    · exact he
    · exact .anyPrimitive

omit hc in
/-- `Object.groupBy` calls back and makes a new object that holds a new array. -/
theorem groupBy : Traced setup w (E.groupBy c) HasRef := by
  refine .ok fun hw => ?_
  unfold Evaluator.groupBy
  rw [traced_argument_bind, traced_elements_bind]
  have he := hw.getKey ((c.arg 0).now w.state) .any
  refine (hE.callback hg 1 fun r hr => ?_).seq hg fun w' hle _ => ?_
  · simp only [List.mem_cons, List.not_mem_nil, or_false] at hr
    rcases hr with rfl | rfl
    · exact he
    · exact .anyPrimitive
  · exact (Traced.arrayOf hg fun _ => he.mono hle).bind hg fun _ _ _ _ hr => .objectOf hg hr

/-- The model of every built-in is traced. -/
theorem model (b : Builtin) : Traced setup w (E.model b c) HasRef := by
  have hpair : ∀ r : Reference, w.HasRef r → Traced setup w (do
      Evaluator.arrayOf (← Evaluator.arrayOf (Reference.anyPrimitive.union r))) HasRef :=
    fun r hr => (Traced.arrayOf hg fun _ => .union .anyPrimitive hr).bind hg fun _ _ _ _ h =>
      .arrayOf hg fun _ => h
  cases b with
  | arrayPush | arrayUnshift => exact .insertElements hg hc
  | arrayPop | arrayShift => exact .removeElement hg hc
  | arraySplice => exact .splice hg hc
  | arraySort => exact hE.sort hg hc
  | arrayReverse | arrayCopyWithin => exact .arrayTarget hc
  | arrayFill => exact .fill hg hc
  | arrayMap =>
    exact (hE.elementCallback hg hc).bind hg fun _ _ _ _ h => .arrayOf hg fun _ => h.2
  | arrayFilter =>
    exact (hE.elementCallback hg hc).bind hg fun _ _ _ _ h => .arrayOf hg fun _ => h.1
  | arrayForEach => exact (hE.elementCallback hg hc).seq hg fun _ _ _ => .pure fun _ => .empty
  | arrayFind | arrayFindLast =>
    exact (hE.elementCallback hg hc).bind hg fun _ _ _ _ h => .pure fun _ => h.1
  | arrayFindIndex | arrayFindLastIndex =>
    exact (hE.elementCallback hg hc).seq hg fun _ _ _ => .pure fun _ =>
      .union .undefined .anyPrimitive
  | arrayEvery | arraySome =>
    exact (hE.elementCallback hg hc).seq hg fun _ _ _ => .pure fun _ => .boolean
  | arrayFlatMap => exact hE.flatMap hg hc
  | arrayReduce | arrayReduceRight => exact hE.reduce hg hc
  | arraySlice | arrayToReversed | arrayValues =>
    exact .copyElements fun r hr => .arrayOf hg fun _ => hr
  | arrayConcat => exact .concat hg hc
  | arrayFlat => exact .flat hg
  | arrayToSorted => exact hE.toSorted hg
  | arrayToSpliced => exact .copyWith hg hc fun o ho => List.mem_of_mem_drop ho
  | arrayWith =>
    exact .copyWith hg hc fun o ho => List.mem_of_mem_drop (List.mem_of_mem_take ho)
  | arrayAt => exact .copyElements fun r hr => .pure fun _ => .union hr .undefined
  | arrayIndexOf | arrayLastIndexOf | arrayJoin | arrayToString | arrayToLocaleString =>
    exact .pure fun _ => .anyPrimitive
  | arrayIncludes | arrayIsArray | objectHasOwn | objectIs | objectIsExtensible | objectIsFrozen
  | objectIsSealed => exact .pure fun _ => .boolean
  | arrayEntries => exact .copyElements hpair
  | arrayKeys | objectKeys | objectGetOwnPropertyNames | objectGetOwnPropertySymbols =>
    exact .arrayOf hg fun _ => .anyPrimitive
  | arrayOf =>
    refine .ok fun hw => ?_
    show Traced setup w (derefAll c.args >>= Evaluator.arrayOf) _
    rw [traced_derefAll_bind]
    exact .arrayOf hg fun _ => hw.unionAll_now hc.2
  | arrayFrom => exact hE.arrayFrom hg
  | objectAssign => exact .objectAssign hg hc
  | objectDefineProperty => exact .defineProperty hg hc
  | objectDefineProperties => exact .defineProperties hg hc
  | objectFreeze | objectSeal | objectPreventExtensions | objectSetPrototypeOf =>
    exact .objectTarget hc
  | objectValues => exact .argumentElements fun r hr => .arrayOf hg fun _ => hr
  | objectEntries => exact .argumentElements hpair
  | objectFromEntries =>
    refine .argumentElements fun r _ => .ok fun hw => ?_
    show Traced setup w (Evaluator.elements r >>= Evaluator.objectOf) _
    rw [traced_elements_bind]
    exact .objectOf hg (hw.getKey _ .any)
  | objectGroupBy => exact hE.groupBy hg
  | objectGetOwnPropertyDescriptor =>
    exact .argumentElements fun r hr => (Traced.descriptor hr).bind hg fun _ _ _ _ hv =>
      .pure fun _ => .insert .undefined hv
  | objectGetOwnPropertyDescriptors =>
    exact .argumentElements fun r hr => (Traced.descriptor hr).bind hg fun _ _ _ _ hv =>
      .objectOf hg (.single hv)
  | objectCreate => exact .createObject hg
  | objectGetPrototypeOf => exact Traced.report.seq hg fun _ _ _ => .pure fun _ => .empty
  | unknown _ => exact (Traced.warn hg).seq hg fun _ _ _ => .pure fun _ => .empty

/-- A call of a built-in is traced, with the entry of the log before it. -/
theorem callBuiltin (b : Builtin) : Traced setup w (E.callBuiltin b c) HasRef := by
  unfold Evaluator.callBuiltin
  split
  · exact hE.model hg hc _
  · exact Traced.log.seq hg fun _ hle _ => hE.model hg (hc.mono hle) _

end

end Evaluator.IsTraced

end FrozenGlobals
