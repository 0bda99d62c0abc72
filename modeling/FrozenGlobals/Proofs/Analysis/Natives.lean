import FrozenGlobals.Proofs.Analysis.Calling
import FrozenGlobals.Analysis
import Mathlib

/-!
# Effects of native methods

Which built-ins modify their target is recorded in a table; what they do is written out in their
models. `Evaluator.callBuiltin_exact` compares the two. A call that calls nothing back reports once
if the table says that the built-in is mutating and the target is part of the globals, it changes
nothing but the target, and what it returns is new or could be reached from what it was given.

`Run.Acts` says of a computation, from the state in which it starts, that it ends, what it reports
and which containers it may change. `CallSite.Reaches` are the values a call is given.
-/

namespace FrozenGlobals

open Run

/-! ## What calls are given -/

namespace Heap

/-- A container read at some key is held by the container it was read from. -/
theorem holds_of_mem_getKeyOf {h : Heap} {k : Key} {v w : Value} (hw : w ∈ h.getKeyOf k v)
    (hc : w.isContainer) : ∃ c, h.contents v = some c ∧ c.Holds w := by
  cases hv : h.contents v with
  | some c =>
    rw [getKeyOf_of_contents hv] at hw
    rcases Contents.holds_of_mem_get hw with hheld | ⟨b, rfl⟩ | rfl
    · exact ⟨c, rfl, hheld⟩
    · cases hc
    · cases hc
  | none =>
    cases v with
    | object id =>
      have hnone : h.objects[id]? = none := by simpa [contents] using hv
      cases k <;> simp [getKeyOf, object, hnone, ObjectCell.get, ObjectCell.empty,
        ObjectCell.slot?, Reference.unionAll] at hw
    | array id =>
      have hnone : h.arrays[id]? = none := by simpa [contents] using hv
      have hcell : h.array id = ⟨.empty, false⟩ := by simp [array, hnone]
      rcases ArrayCell.mem_elements_of_mem_get (show w ∈ (h.array id).get k from hw) with
        hheld | ⟨b, rfl⟩ | rfl
      · rw [hcell] at hheld
        exact absurd hheld (Reference.not_mem_empty w)
      · cases hc
      · cases hc
    | intrinsic i =>
      simp only [getKeyOf] at hw
      split at hw
      · split at hw
        · rw [Reference.mem_single.1 hw] at hc
          cases hc
        · exact absurd hw (Reference.not_mem_empty w)
      · exact absurd hw (Reference.not_mem_empty w)
    | primitive _ | function _ | builtin _ => exact absurd hw (Reference.not_mem_empty w)

end Heap

/-- A value can be called. -/
def Value.isCallable : Value → Bool
  | .function _ | .intrinsic _ | .builtin _ => true
  | _ => false

namespace CallSite

/-- What can be reached in a state from the receiver and the arguments of a call. -/
inductive Reaches (c : CallSite) (s : State) : Value → Prop
  | passed {o v} : c.receiver = some o ∨ o ∈ c.args → v ∈ o.now s → Reaches c s v
  | held {v k w} : Reaches c s v → s.heap.contents v = some k → k.Holds w → Reaches c s w

/-- All containers of a reference can be reached. -/
def Knows (c : CallSite) (s : State) (r : Reference) : Prop :=
  ∀ v ∈ r, v.isContainer → c.Reaches s v

section
variable {c : CallSite} {s : State} {r r' : Reference}

/-- The empty reference holds no containers. -/
theorem Knows.empty : c.Knows s .empty := fun v hv => absurd hv (Reference.not_mem_empty v)

/-- Primitives are no containers. -/
theorem Knows.ofPrimitive {p : Primitive} : c.Knows s (.ofPrimitive p) := fun v hv hc => by
  rw [Reference.mem_ofPrimitive.1 hv] at hc
  cases hc

/-- The results of comparisons are no containers. -/
theorem Knows.boolean : c.Knows s .boolean := fun v hv hc => by
  simp only [Reference.boolean, Reference.mem_ofList, List.mem_cons, List.not_mem_nil,
    or_false] at hv
  rcases hv with rfl | rfl <;> cases hc

/-- The containers of a union are those of its parts. -/
theorem Knows.union (h : c.Knows s r) (h' : c.Knows s r') : c.Knows s (r.union r') :=
  fun v hv => (Reference.mem_union.1 hv).elim (h v) (h' v)

/-- What containers that can be reached hold can be reached. -/
theorem Knows.getKey (h : c.Knows s r) (k : Key) : c.Knows s (s.heap.getKey r k) := by
  intro v hv hc
  obtain ⟨w, hw, hv⟩ := Heap.mem_getKey.1 hv
  obtain ⟨k, hk, hheld⟩ := Heap.holds_of_mem_getKeyOf hv hc
  exact (h w hw (Heap.isContainer_of_contents hk)).held hk hheld

/-- The arrays that a method was read from can be reached. -/
theorem Knows.arraysNow : c.Knows s (c.arraysNow s) := by
  intro v hv _
  unfold CallSite.arraysNow at hv
  split at hv
  · next o ho => exact .passed (.inl ho) (Reference.mem_arrays.1 hv).1
  · exact absurd hv (Reference.not_mem_empty v)

/-- The arguments can be reached. -/
theorem Knows.argument {o : Operand} (ho : o ∈ c.args) : c.Knows s (o.now s) :=
  fun _ hv _ => .passed (.inr ho) hv

/-- The argument at an index can be reached; beyond the last one there is none. -/
theorem Knows.arg (i : Nat) : c.Knows s ((c.arg i).now s) := by
  unfold CallSite.arg
  cases h : c.args[i]? with
  | none => exact .ofPrimitive
  | some o => exact .argument (List.mem_of_getElem? h)

end

/-- Bookkeeping and reports do not change what can be reached. -/
theorem Reaches.of_checks {c : CallSite} {s t : State} {own : List Diagnostic} {v : Value}
    (hs : s.Checks own t) (h : c.Reaches t v) : c.Reaches s v := by
  induction h with
  | passed ho hv => exact .passed ho (hs.now _ ▸ hv)
  | held _ hk hheld ih => exact ih.held (hs.heap ▸ hk) hheld

/-- What a call may return: containers that are new, and those that could be reached before. -/
def Returns (c : CallSite) (s s' : State) (r : Reference) : Prop :=
  ∀ v ∈ r, v.isContainer →
    (s.heap.contents v = none ∧ (s'.heap.contents v).isSome) ∨ c.Reaches s v

/-- A call may return whatever can be reached from it. -/
theorem Knows.returns {c : CallSite} {s s' : State} {r : Reference} (h : c.Knows s r) :
    c.Returns s s' r := fun v hv hc => .inr (h v hv hc)

end CallSite

/-! ## What computations do -/

/-- Between two states the reports `own` were made, and no container that was there changed, other
than those of a target. -/
structure State.Affects (s : State) (target : Reference) (own : List Diagnostic) (s' : State) :
    Prop where
  diagnostics : s'.diagnostics.toList = s.diagnostics.toList ++ own
  kept : ∀ v, (s.heap.contents v).isSome → v ∉ target → s'.heap.contents v = s.heap.contents v
  persists : ∀ v, (s.heap.contents v).isSome → (s'.heap.contents v).isSome

namespace State.Affects

variable {s t u : State} {target : Reference} {own own' : List Diagnostic}

/-- Nothing is affected between a state and itself. -/
theorem refl (s : State) : s.Affects target [] s := ⟨by simp, fun _ _ _ => rfl, fun _ h => h⟩

/-- Effects on one target add up, reports in order. -/
theorem trans (h : s.Affects target own t) (h' : t.Affects target own' u) :
    s.Affects target (own ++ own') u where
  diagnostics := by rw [h'.diagnostics, h.diagnostics, List.append_assoc]
  kept v hv hnot := (h'.kept v (h.persists v hv) hnot).trans (h.kept v hv hnot)
  persists v hv := h'.persists v (h.persists v hv)

/-- What is new later was not there before. -/
theorem fresh (h : s.Affects target own t) {v : Value} (hv : t.heap.contents v = none) :
    s.heap.contents v = none := by
  by_contra hne
  have := h.persists v (Option.isSome_iff_ne_none.2 hne)
  rw [hv] at this
  cases this

/-- A new container changes no other one. -/
theorem allocate {v : Value} {k : Contents} {h : Heap} (hfresh : t.heap.contents v = none)
    (hadd : ∀ w, h.contents w = if w = v then some k else t.heap.contents w) :
    t.Affects target [] { t with heap := h } where
  diagnostics := by simp
  kept w hw _ := by
    refine (hadd w).trans (if_neg ?_)
    rintro rfl
    rw [hfresh] at hw
    cases hw
  persists w hw := by
    show (h.contents w).isSome
    rw [hadd]
    split
    · rfl
    · exact hw

end State.Affects

/-- Bookkeeping and reports affect no container. -/
theorem State.Checks.affects {s s' : State} {own : List Diagnostic} (h : s.Checks own s')
    (target : Reference) : s.Affects target own s' :=
  ⟨h.diagnostics, fun _ _ _ => by rw [h.heap], fun _ hv => by rw [h.heap]; exact hv⟩

namespace Run

/-- From a state, a computation ends, makes the reports `own`, changes at most the containers of a
target, and leads to a result and a state that satisfy a condition. -/
def Acts {α : Type} (setup : Setup) (s : State) (target : Reference) (own : List Diagnostic)
    (x : Run α) (Q : State → α → Prop) : Prop :=
  ∃ a s', x setup s = .ok a s' ∧ s.Affects target own s' ∧ Q s' a

namespace Acts

variable {α β : Type} {setup : Setup} {s : State} {target : Reference} {own own' : List Diagnostic}

/-- A result at hand affects nothing. -/
theorem pure {a : α} {Q : State → α → Prop} (h : Q s a) :
    Acts setup s target [] (Pure.pure a) Q := ⟨a, s, rfl, .refl s, h⟩

/-- A computation that is known to end acts as its final state says. -/
theorem of_eq {x : Run α} {a : α} {s' : State} {Q : State → α → Prop} (h : x setup s = .ok a s')
    (hs : s.Affects target own s') (hq : Q s' a) : Acts setup s target own x Q :=
  ⟨a, s', h, hs, hq⟩

/-- One computation after another. -/
theorem bind {x : Run α} {f : α → Run β} {Q : State → α → Prop} {R : State → β → Prop}
    (hx : Acts setup s target own x Q)
    (hf : ∀ a t, s.Affects target own t → Q t a → Acts setup t target own' (f a) R) :
    Acts setup s target (own ++ own') (x >>= f) R := by
  obtain ⟨a, t, heq, hs, hq⟩ := hx
  obtain ⟨b, u, heq', ht, hr⟩ := hf a t hs hq
  exact ⟨b, u, (bind_of_ok heq).trans heq', hs.trans ht, hr⟩

/-- A computation after one that does not report. -/
theorem bind_silent {x : Run α} {f : α → Run β} {Q : State → α → Prop} {R : State → β → Prop}
    (hx : Acts setup s target [] x Q)
    (hf : ∀ a t, s.Affects target [] t → Q t a → Acts setup t target own (f a) R) :
    Acts setup s target own (x >>= f) R := hx.bind hf

/-- A computation after one that only reads. -/
theorem read_bind {x : Run α} {f : α → Run β} {a : α} {R : State → β → Prop}
    (hx : x setup s = .ok a s) (hf : Acts setup s target own (f a) R) :
    Acts setup s target own (x >>= f) R := by
  obtain ⟨b, u, heq, hs⟩ := hf
  exact ⟨b, u, (bind_of_ok hx).trans heq, hs⟩

/-- Conditions on results may be weakened. -/
theorem imp {x : Run α} {Q R : State → α → Prop} (h : Acts setup s target own x Q)
    (hQ : ∀ t a, s.Affects target own t → Q t a → R t a) : Acts setup s target own x R := by
  obtain ⟨a, t, heq, hs, hq⟩ := h
  exact ⟨a, t, heq, hs, hQ t a hs hq⟩

/-- A write to the target. -/
theorem setKey (target : Reference) (k : Key) (v : Reference) :
    Acts setup s target [] (Run.setKey target k v) fun _ _ => True := by
  refine ⟨(), { s with heap := s.heap.setKey target k v }, rfl, ⟨by simp, ?_, ?_⟩, trivial⟩
  · intro w _ hnot
    exact (Heap.contents_setKey ..).trans (if_neg hnot)
  · intro w hw
    show ((s.heap.setKey target k v).contents w).isSome
    rw [Heap.contents_setKey]
    split
    · simpa using hw
    · exact hw

/-- Writes to the target, one after another. -/
theorem forM_setKey (target : Reference) (k : Key) {f : α → Run Reference} (args : List α)
    (hf : ∀ a ∈ args, ∀ t, ∃ v, f a setup t = .ok v t) :
    Acts setup s target [] (args.forM fun a => do Run.setKey target k (← f a))
      fun _ _ => True := by
  induction args generalizing s with
  | nil => exact .pure trivial
  | cons a args ih =>
    obtain ⟨v, hv⟩ := hf a (by simp) s
    rw [List.forM_eq_forM, List.forM_cons, bind_assoc]
    refine read_bind hv ((Acts.setKey target k v).bind_silent fun _ t _ _ => ?_)
    exact ih fun b hb => hf b (List.mem_cons_of_mem _ hb)

end Acts

end Run

namespace Evaluator

section
variable {setup : Setup} {s t : State} {c : CallSite} {target : Reference}
  {own own' : List Diagnostic}

/-! ## Parts of calls -/

/-- The reports that a check of a reference makes. -/
def violations (s : State) (r : Reference) (site : Site) (violation : Violation) :
    List Diagnostic :=
  (s.provenance.findAny? r).toList.map fun path =>
    diagnosticAt s site (violation.message path) (some path)

/-- A check reports the path that is found for its possibilities, if there is one. -/
theorem checkGlobal_reports (setup : Setup) (r : Reference) (site : Site) (violation : Violation)
    (s : State) : ∃ s', Run.checkGlobal r site violation setup s =
        .ok (s.provenance.findAny? r).isSome s' ∧
      s.Checks (violations s r site violation) s' := by
  unfold Run.checkGlobal violations
  rw [get_bind]
  cases s.provenance.findAny? r with
  | none => exact ⟨s, rfl, .refl s⟩
  | some path =>
    obtain ⟨s', hr, hs⟩ := report_eq setup site (violation.message path) (some path) s
    exact ⟨s', bind_of_ok hr, hs.toChecks⟩

/-- A mutating method of arrays makes the reports of one check of its arrays. -/
theorem arrayTarget_reports (setup : Setup) (c : CallSite) (s : State) :
    ∃ t, arrayTarget c setup s = .ok (c.arraysNow s) t ∧
      s.Checks (violations s (c.arraysNow s) c.site .arrayMethod) t := by
  obtain ⟨t, ht, hs⟩ := checkGlobal_reports setup (c.arraysNow s) c.site .arrayMethod s
  refine ⟨t, ?_, hs⟩
  unfold arrayTarget
  rw [bind_of_ok (receiverArrays_eq ..), bind_of_ok ht]
  rfl

/-- A mutating function makes the reports of one check of its first argument. -/
theorem objectTarget_reports (setup : Setup) (c : CallSite) (s : State) :
    ∃ t, objectTarget c setup s = .ok ((c.arg 0).now s) t ∧
      s.Checks (violations s ((c.arg 0).now s) c.site .objectMethod) t := by
  obtain ⟨t, ht, hs⟩ := checkGlobal_reports setup ((c.arg 0).now s) c.site .objectMethod s
  refine ⟨t, ?_, hs⟩
  unfold objectTarget argument
  rw [bind_of_ok (deref_eq ..), bind_of_ok ht]
  rfl

/-- After the check of a target nothing is reported. -/
theorem acts_after_check {β : Type} {x : Run Reference} {f : Reference → Run β} {r : Reference}
    {Q : State → β → Prop} (hx : ∃ t, x setup s = .ok r t ∧ s.Checks own t)
    (hf : ∀ t, s.Checks own t → Acts setup t target [] (f r) Q) :
    Acts setup s target own (x >>= f) Q := by
  obtain ⟨t, ht, hs⟩ := hx
  obtain ⟨b, u, heq, hu, hq⟩ := hf t hs
  refine ⟨b, u, (bind_of_ok ht).trans heq, ?_, hq⟩
  have := (hs.affects target).trans hu
  rwa [List.append_nil] at this

/-- A new array is returned. -/
theorem acts_arrayOf (h : s.Affects target own t) (r : Reference) :
    Acts setup t target [] (arrayOf r) (c.Returns s) := by
  have hfresh := Heap.contents_addArray_fresh t.heap r
  have hadd := Heap.contents_addArray t.heap r
  refine ⟨_, { t with heap := (t.heap.addArray r).2 }, rfl, .allocate hfresh hadd, ?_⟩
  intro v hv _
  cases Reference.mem_single.1 hv
  refine .inl ⟨h.fresh hfresh, ?_⟩
  exact (congrArg Option.isSome (hadd _)).trans (by simp [Heap.addArray])

/-- A new object is returned. -/
theorem acts_newObject (h : s.Affects target own t) (o : ObjectCell) :
    Acts setup t target [] (newObject o) fun u v =>
      s.heap.contents v = none ∧ (u.heap.contents v).isSome := by
  have hfresh := Heap.contents_addObject_fresh t.heap o
  have hadd := Heap.contents_addObject t.heap o
  refine ⟨_, { t with heap := (t.heap.addObject o).2 }, rfl, .allocate hfresh hadd, ?_⟩
  exact ⟨h.fresh hfresh, (congrArg Option.isSome (hadd _)).trans (by simp [Heap.addObject])⟩

/-- A new object is returned that holds a reference at every key. -/
theorem acts_objectOf (h : s.Affects target own t) (r : Reference) :
    Acts setup t target [] (objectOf r) (c.Returns s) := by
  refine (acts_newObject h _).bind_silent fun v u _ hv => .pure fun w hw _ => ?_
  rw [Reference.mem_single.1 hw]
  exact .inl hv

/-- An array of a new array is returned. -/
theorem acts_arrayOf_arrayOf (s : State) (c : CallSite) (r : Reference) :
    Acts setup s target [] (do arrayOf (← arrayOf r)) (c.Returns s) :=
  (acts_arrayOf (c := c) (.refl s) r).bind_silent fun r' _ h _ => acts_arrayOf h r'

end

end Evaluator

namespace Builtin

/-- The position of the argument that a built-in calls back. -/
def callback? : Builtin → Option Nat
  | .arraySort | .arrayMap | .arrayFilter | .arrayForEach | .arrayFind | .arrayFindIndex
  | .arrayFindLast | .arrayFindLastIndex | .arrayEvery | .arraySome | .arrayFlatMap
  | .arrayReduce | .arrayReduceRight | .arrayToSorted => some 0
  | .arrayFrom | .objectGroupBy => some 1
  | _ => none

/-- Where a built-in is found. -/
def owner? (b : Builtin) : Option BuiltinOwner :=
  (table.find? fun (x, _, _) => x == b).map fun (_, owner, _) => owner

/-- What a built-in works on: the arrays of the receiver of a method, the first argument of a
function. -/
def target (b : Builtin) (c : CallSite) (s : State) : Reference :=
  if b.owner? = some .arrayInstance then c.arraysNow s else (c.arg 0).now s

/-- Whether a built-in writes to its target. The other mutating ones only rearrange or lock it. -/
def isWriting : Builtin → Bool
  | .arrayPush | .arrayUnshift | .arraySplice | .arrayFill | .objectAssign
  | .objectDefineProperty | .objectDefineProperties => true
  | _ => false

/-- The argument that a built-in calls back holds nothing that can be called. -/
def Uncalled (b : Builtin) (c : CallSite) (s : State) : Prop :=
  ∀ i, b.callback? = some i → ∀ o, c.args[i]? = some o → ∀ v ∈ o.now s, v.isCallable = false

/-- The violation that a mutating built-in is. -/
def violation (b : Builtin) : Violation :=
  if b.owner? = some .arrayInstance then .arrayMethod else .objectMethod

/-- The reports of a call that calls nothing back. -/
def reports (b : Builtin) (c : CallSite) (s : State) : List Diagnostic :=
  if b.isMutating then Evaluator.violations s (b.target c s) c.site b.violation
  else if b = .objectGetPrototypeOf then [diagnosticAt s c.site "Don't touch prototypes" none]
  else []

/-- Reports do not change what a built-in works on. -/
theorem target_of_checks {s t : State} {own : List Diagnostic} (hs : s.Checks own t)
    (b : Builtin) (c : CallSite) : b.target c t = b.target c s := by
  unfold target CallSite.arraysNow
  simp only [hs.now]

/-- Reports that a call makes depend on paths and anchors, which notes do not change. -/
theorem reports_of_notes {s t : State} {own : List Diagnostic} (hs : s.Notes own t)
    (b : Builtin) (c : CallSite) : b.reports c t = b.reports c s := by
  unfold reports Evaluator.violations diagnosticAt
  rw [target_of_checks hs.toChecks, hs.provenance, hs.anchors]

end Builtin

namespace Evaluator

/-! ## Callbacks -/

section
variable {setup : Setup} {s t : State} {c : CallSite} {target : Reference} {n : Nat}

/-- Values that cannot be called yield nothing. -/
theorem invoke_of_not_isCallable (n : Nat) {v : Value} (hv : v.isCallable = false)
    (c : CallSite) : (ofFuel (n + 1)).invoke v c = pure .empty := by
  cases v with
  | primitive _ | object _ | array _ => rfl
  | function _ | intrinsic _ | builtin _ => cases hv

/-- A callback that holds nothing that can be called returns nothing. -/
theorem callback_eq {i : Nat} (h : ∀ o, c.args[i]? = some o → ∀ v ∈ o.now s, v.isCallable = false)
    (args : List Reference) :
    (ofFuel (n + 1)).callback c i args setup s = .ok .empty s := by
  have hall : ∀ (vs : List Value) (d : CallSite), (∀ v ∈ vs, v.isCallable = false) →
      (vs.foldlM (fun result v => return result.union (← (ofFuel (n + 1)).invoke v d))
        .empty : Run Reference) setup s = .ok .empty s := by
    intro vs d hvs
    induction vs with
    | nil => rfl
    | cons v vs ih =>
      rw [List.foldlM_cons, invoke_of_not_isCallable n (hvs v (by simp)), pure_bind, pure_bind]
      exact ih fun w hw => hvs w (List.mem_cons_of_mem _ hw)
  unfold callback
  cases ha : c.args[i]? with
  | none => rfl
  | some o =>
    dsimp only
    rw [bind_of_ok (deref_eq ..)]
    exact hall _ _ (h o ha)

/-- Elements are read even if the callback holds nothing that can be called. -/
theorem elementCallback_eq (h : ∀ o, c.args[0]? = some o → ∀ v ∈ o.now s, v.isCallable = false) :
    (ofFuel (n + 1)).elementCallback c setup s =
      .ok (s.heap.getKey (c.arraysNow s) .any, .empty) s := by
  unfold elementCallback
  rw [bind_of_ok (receiverArrays_eq ..)]
  show (callback _ _ _ _ >>= _) setup s = _
  rw [bind_of_ok (callback_eq h _)]
  rfl

end

/-! ## Mutating methods -/

section
variable {setup : Setup} {s : State} {c : CallSite}

/-- `reverse` and `copyWithin`. -/
theorem acts_arrayTarget : Acts setup s .empty
    (violations s (c.arraysNow s) c.site .arrayMethod) (arrayTarget c) (c.Returns s) := by
  obtain ⟨t, ht, hs⟩ := arrayTarget_reports setup c s
  exact .of_eq ht (hs.affects _) CallSite.Knows.arraysNow.returns

/-- `Object.freeze` and its kin. -/
theorem acts_objectTarget : Acts setup s .empty
    (violations s ((c.arg 0).now s) c.site .objectMethod) (objectTarget c) (c.Returns s) := by
  obtain ⟨t, ht, hs⟩ := objectTarget_reports setup c s
  exact .of_eq ht (hs.affects _) (CallSite.Knows.arg 0).returns

/-- `push` and `unshift`. -/
theorem acts_insertElements : Acts setup s (c.arraysNow s)
    (violations s (c.arraysNow s) c.site .arrayMethod) (insertElements c) (c.Returns s) := by
  unfold insertElements
  refine acts_after_check (arrayTarget_reports ..) fun t _ => ?_
  refine (Acts.forM_setKey _ .any c.args fun a _ t => ⟨_, deref_eq setup a t⟩).bind_silent
    fun _ _ _ _ => .pure ?_
  exact CallSite.Knows.ofPrimitive.returns

/-- `pop` and `shift`. -/
theorem acts_removeElement : Acts setup s .empty
    (violations s (c.arraysNow s) c.site .arrayMethod) (removeElement c) (c.Returns s) := by
  unfold removeElement
  refine acts_after_check (arrayTarget_reports ..) fun t ht => ?_
  refine .read_bind (a := t.heap.getKey (c.arraysNow s) .any) rfl (.pure ?_)
  rw [ht.heap]
  exact ((CallSite.Knows.arraysNow.getKey .any).union .ofPrimitive).returns

/-- `splice` reports, returns a new array and writes to its target. -/
theorem acts_splice : Acts setup s (c.arraysNow s)
    (violations s (c.arraysNow s) c.site .arrayMethod) (splice c) (c.Returns s) := by
  unfold splice
  refine acts_after_check (arrayTarget_reports ..) fun t ht => ?_
  refine .read_bind (a := t.heap.getKey (c.arraysNow s) .any) rfl ?_
  refine (acts_arrayOf (c := c) (ht.affects _) _).bind_silent fun removed u _ hremoved => ?_
  refine (Acts.forM_setKey _ .any _ fun a _ t => ⟨_, deref_eq setup a t⟩).bind_silent
    fun _ w hw _ => .pure fun v hv hc => ?_
  exact (hremoved v hv hc).imp_left fun h => ⟨h.1, hw.persists v h.2⟩

/-- `sort` reports and returns its arrays, if nothing is called back. -/
theorem acts_sort {n : Nat} (h : Builtin.Uncalled .arraySort c s) : Acts setup s .empty
    (violations s (c.arraysNow s) c.site .arrayMethod) ((ofFuel (n + 1)).sort c)
    (c.Returns s) := by
  unfold sort
  refine acts_after_check (arrayTarget_reports ..) fun t ht => ?_
  refine .read_bind (a := t.heap.getKey (c.arraysNow s) .any) rfl ?_
  refine .read_bind (callback_eq (fun o ho => ?_) _) (.pure CallSite.Knows.arraysNow.returns)
  rw [ht.now]
  exact h 0 rfl o ho

/-- `fill` reports, writes to its target and returns it. -/
theorem acts_fill : Acts setup s (c.arraysNow s)
    (violations s (c.arraysNow s) c.site .arrayMethod) (fill c) (c.Returns s) := by
  unfold fill
  refine acts_after_check (arrayTarget_reports ..) fun t _ => ?_
  refine .read_bind (deref_eq ..) ((Acts.setKey _ .any _).bind_silent fun _ _ _ _ => .pure ?_)
  exact CallSite.Knows.arraysNow.returns

/-- `Object.assign` reports, writes to its target and returns it. -/
theorem acts_objectAssign : Acts setup s ((c.arg 0).now s)
    (violations s ((c.arg 0).now s) c.site .objectMethod) (objectAssign c) (c.Returns s) := by
  unfold objectAssign
  refine acts_after_check (objectTarget_reports ..) fun t _ => ?_
  have hwrites := Acts.forM_setKey (s := t) ((c.arg 0).now s) .any
    (f := fun a => do elements (← deref a)) (c.args.drop 1)
    fun a _ t => ⟨_, bind_of_ok (deref_eq setup a t)⟩
  simp only [bind_assoc] at hwrites
  exact hwrites.bind_silent fun _ _ _ _ => .pure (CallSite.Knows.arg 0).returns

/-- `Object.defineProperty` reports, writes to its target and returns it. -/
theorem acts_defineProperty : Acts setup s ((c.arg 0).now s)
    (violations s ((c.arg 0).now s) c.site .objectMethod) (defineProperty c) (c.Returns s) := by
  unfold defineProperty
  refine acts_after_check (objectTarget_reports ..) fun t _ => ?_
  refine .read_bind (deref_eq ..) (.read_bind rfl ?_)
  exact (Acts.setKey _ .any _).bind_silent fun _ _ _ _ => .pure (CallSite.Knows.arg 0).returns

/-- `Object.defineProperties` reports, writes to its target and returns it. -/
theorem acts_defineProperties : Acts setup s ((c.arg 0).now s)
    (violations s ((c.arg 0).now s) c.site .objectMethod) (defineProperties c) (c.Returns s) := by
  unfold defineProperties
  refine acts_after_check (objectTarget_reports ..) fun t _ => ?_
  refine .read_bind (deref_eq ..) (.read_bind rfl (.read_bind rfl ?_))
  exact (Acts.setKey _ .any _).bind_silent fun _ _ _ _ => .pure (CallSite.Knows.arg 0).returns

end

/-! ## Other methods -/

section
variable {setup : Setup} {s : State} {c : CallSite} {target : Reference} {n : Nat}

/-- Methods that call back with each element. -/
theorem acts_elementCallback
    (h : ∀ o, c.args[0]? = some o → ∀ v ∈ o.now s, v.isCallable = false)
    {f : Reference × Reference → Run Reference}
    (hf : ∀ r, c.Knows s r → Acts setup s target [] (f (r, .empty)) (c.Returns s)) :
    Acts setup s target [] (do f (← (ofFuel (n + 1)).elementCallback c)) (c.Returns s) :=
  .read_bind (elementCallback_eq h) (hf _ (CallSite.Knows.arraysNow.getKey .any))

/-- Methods that read the elements of the receiver. -/
theorem acts_copyElements {f : Reference → Run Reference}
    (hf : ∀ r, c.Knows s r → Acts setup s target [] (f r) (c.Returns s)) :
    Acts setup s target [] (do f (← elements (← receiverArrays c))) (c.Returns s) :=
  .read_bind (receiverArrays_eq ..)
    (.read_bind rfl (hf _ (CallSite.Knows.arraysNow.getKey .any)))

/-- Functions that read what the first argument holds. -/
theorem acts_argumentElements {f : Reference → Run Reference}
    (hf : ∀ r, Acts setup s target [] (f r) (c.Returns s)) :
    Acts setup s target [] (do f (← elements (← argument c 0))) (c.Returns s) :=
  .read_bind (deref_eq ..) (.read_bind rfl (hf _))

/-- `reduce` returns elements or the initial value, if nothing is called back. -/
theorem acts_reduce (h : ∀ o, c.args[0]? = some o → ∀ v ∈ o.now s, v.isCallable = false) :
    Acts setup s target [] ((ofFuel (n + 1)).reduce c) (c.Returns s) := by
  have hend : ∀ start : Reference, c.Knows s start → Acts setup s target [] (do
      let results ← (ofFuel (n + 1)).callback c 0 [start, s.heap.getKey (c.arraysNow s) .any,
        .anyPrimitive, c.arraysNow s]
      return results.union start) (c.Returns s) := fun start hstart =>
    .read_bind (callback_eq h _) (.pure (CallSite.Knows.empty.union hstart).returns)
  unfold reduce
  refine .read_bind (receiverArrays_eq ..) (.read_bind rfl ?_)
  have he : c.Knows s (s.heap.getKey (c.arraysNow s) .any) :=
    CallSite.Knows.arraysNow.getKey .any
  cases ha : c.args[1]? with
  | none => exact hend _ he
  | some a =>
    refine .read_bind (deref_eq ..) (.read_bind rfl (hend _ (he.union ?_)))
    exact .argument (List.mem_of_getElem? ha)

/-- `concat` returns a new array. -/
theorem acts_concat : Acts setup s target [] (concat c) (c.Returns s) := by
  unfold concat
  refine acts_copyElements fun r _ => ?_
  exact .read_bind rfl (.read_bind (bind_of_ok (mapM_deref c.args s)) (acts_arrayOf (.refl s) _))

/-- `flat` returns a new array. -/
theorem acts_flat : Acts setup s target [] (flat c) (c.Returns s) := by
  unfold flat
  exact .read_bind (receiverArrays_eq ..) (.read_bind rfl (acts_arrayOf (.refl s) _))

/-- `toSorted` returns a new array, if nothing is called back. -/
theorem acts_toSorted (h : ∀ o, c.args[0]? = some o → ∀ v ∈ o.now s, v.isCallable = false) :
    Acts setup s target [] ((ofFuel (n + 1)).toSorted c) (c.Returns s) := by
  unfold toSorted
  exact acts_copyElements fun r _ =>
    .read_bind (callback_eq h _) (acts_arrayOf (.refl s) _)

/-- A new array of elements and some of the arguments is returned. -/
theorem acts_copyWith (args : List Operand) :
    Acts setup s target [] (copyWith c args) (c.Returns s) := by
  unfold copyWith
  exact acts_copyElements fun r _ =>
    .read_bind (bind_of_ok (mapM_deref args s)) (acts_arrayOf (.refl s) _)

/-- `Array.from` returns a new array, if nothing is called back. -/
theorem acts_arrayFrom (h : ∀ o, c.args[1]? = some o → ∀ v ∈ o.now s, v.isCallable = false) :
    Acts setup s target [] ((ofFuel (n + 1)).arrayFrom c) (c.Returns s) := by
  unfold arrayFrom
  refine acts_argumentElements fun r => ?_
  split
  · exact acts_arrayOf (.refl s) _
  · exact .read_bind (callback_eq h _) (acts_arrayOf (.refl s) _)

/-- `Object.groupBy` returns a new object, if nothing is called back. -/
theorem acts_groupBy (h : ∀ o, c.args[1]? = some o → ∀ v ∈ o.now s, v.isCallable = false) :
    Acts setup s target [] ((ofFuel (n + 1)).groupBy c) (c.Returns s) := by
  unfold groupBy
  refine acts_argumentElements fun r => .read_bind (callback_eq h _) ?_
  exact (acts_arrayOf (c := c) (.refl s) r).bind_silent fun _ _ ht _ => acts_objectOf ht _

/-- A new descriptor. -/
theorem acts_descriptor (s : State) (r : Reference) :
    Acts setup s target [] (descriptor r) fun u v =>
      s.heap.contents v = none ∧ (u.heap.contents v).isSome := acts_newObject (.refl s) _

/-- `Object.create` returns a new object. -/
theorem acts_createObject : Acts setup s target [] (createObject c) (c.Returns s) := by
  unfold createObject
  refine acts_argumentElements fun r => ?_
  cases c.args[1]? with
  | none => exact acts_objectOf (.refl s) _
  | some a =>
    exact .read_bind (deref_eq ..) (.read_bind rfl (.read_bind rfl (acts_objectOf (.refl s) _)))

/-- A warning is no report. -/
theorem acts_warn {message : String} :
    Acts setup s target [] (Run.warn message) fun _ _ => True := by
  obtain ⟨t, ht, hs⟩ := log_eq setup .warn (fun _ => (message, [])) s
  unfold Run.warn
  refine Acts.bind_silent (Q := fun _ _ => True)
    (.of_eq ht (hs.toChecks.affects target) trivial) fun _ t _ _ => .read_bind rfl ?_
  split
  · exact .of_eq rfl ⟨by simp, fun _ _ _ => rfl, fun _ h => h⟩ trivial
  · exact .pure trivial

/-- A report without a path is made at the call. -/
theorem acts_report (message : String) :
    Acts setup s target [diagnosticAt s c.site message none] (Run.report c.site message none)
      fun _ _ => True := by
  obtain ⟨t, ht, hs⟩ := report_eq setup c.site message none s
  exact .of_eq ht (hs.toChecks.affects target) trivial

/-! ## Dispatch -/

/-- What every built-in does if nothing is called back: its reports, and writes to its target
only. -/
theorem acts_model (b : Builtin) (h : b.Uncalled c s) :
    Acts setup s (if b.isWriting then b.target c s else .empty) (b.reports c s)
      ((ofFuel (n + 1)).model b c) (c.Returns s) := by
  cases b with
  | arrayPush | arrayUnshift => exact acts_insertElements
  | arrayPop | arrayShift => exact acts_removeElement
  | arraySplice => exact acts_splice
  | arraySort => exact acts_sort h
  | arrayReverse | arrayCopyWithin => exact acts_arrayTarget
  | arrayFill => exact acts_fill
  | arrayMap | arrayFilter =>
    exact acts_elementCallback (h 0 rfl) fun _ _ => acts_arrayOf (.refl s) _
  | arrayForEach =>
    exact acts_elementCallback (h 0 rfl) fun _ _ => .pure CallSite.Knows.empty.returns
  | arrayFind | arrayFindLast =>
    exact acts_elementCallback (h 0 rfl) fun _ hr => .pure hr.returns
  | arrayFindIndex | arrayFindLastIndex =>
    exact acts_elementCallback (h 0 rfl) fun _ _ =>
      .pure (CallSite.Knows.ofPrimitive.union .ofPrimitive).returns
  | arrayEvery | arraySome =>
    exact acts_elementCallback (h 0 rfl) fun _ _ => .pure CallSite.Knows.boolean.returns
  | arrayFlatMap =>
    exact acts_elementCallback (h 0 rfl) fun _ _ => .read_bind rfl (acts_arrayOf (.refl s) _)
  | arrayReduce | arrayReduceRight => exact acts_reduce (h 0 rfl)
  | arraySlice | arrayToReversed | arrayValues =>
    exact acts_copyElements fun _ _ => acts_arrayOf (.refl s) _
  | arrayConcat => exact acts_concat
  | arrayFlat => exact acts_flat
  | arrayToSorted => exact acts_toSorted (h 0 rfl)
  | arrayToSpliced | arrayWith => exact acts_copyWith _
  | arrayAt => exact acts_copyElements fun _ hr => .pure (hr.union .ofPrimitive).returns
  | arrayIndexOf | arrayLastIndexOf | arrayJoin | arrayToString | arrayToLocaleString =>
    exact .pure CallSite.Knows.ofPrimitive.returns
  | arrayIncludes | arrayIsArray | objectHasOwn | objectIs | objectIsExtensible | objectIsFrozen
  | objectIsSealed => exact .pure CallSite.Knows.boolean.returns
  | arrayEntries => exact acts_copyElements fun _ _ => acts_arrayOf_arrayOf s c _
  | arrayKeys | objectKeys | objectGetOwnPropertyNames | objectGetOwnPropertySymbols =>
    exact acts_arrayOf (.refl s) _
  | arrayOf => exact .read_bind (bind_of_ok (mapM_deref c.args s)) (acts_arrayOf (.refl s) _)
  | arrayFrom => exact acts_arrayFrom (h 1 rfl)
  | objectAssign => exact acts_objectAssign
  | objectDefineProperty => exact acts_defineProperty
  | objectDefineProperties => exact acts_defineProperties
  | objectFreeze | objectSeal | objectPreventExtensions | objectSetPrototypeOf =>
    exact acts_objectTarget
  | objectValues => exact acts_argumentElements fun _ => acts_arrayOf (.refl s) _
  | objectEntries => exact acts_argumentElements fun _ => acts_arrayOf_arrayOf s c _
  | objectFromEntries =>
    exact acts_argumentElements fun _ => .read_bind rfl (acts_objectOf (.refl s) _)
  | objectGroupBy => exact acts_groupBy (h 1 rfl)
  | objectGetOwnPropertyDescriptor =>
    refine acts_argumentElements fun r => (acts_descriptor s r).bind_silent fun v _ _ hv => ?_
    refine .pure fun w hw hc => ?_
    rcases Reference.mem_insert.1 hw with hw | rfl
    · exact absurd hc (by rw [Reference.mem_undefined.1 hw]; exact Bool.false_ne_true)
    · exact .inl hv
  | objectGetOwnPropertyDescriptors =>
    exact acts_argumentElements fun r =>
      (acts_descriptor s r).bind_silent fun _ _ ht _ => acts_objectOf ht _
  | objectCreate => exact acts_createObject
  | objectGetPrototypeOf =>
    exact (acts_report _).bind fun _ _ _ _ => .pure CallSite.Knows.empty.returns
  | unknown _ => exact acts_warn.bind_silent fun _ _ _ _ => .pure CallSite.Knows.empty.returns

/-- A call of a built-in does what its model does. -/
theorem acts_callBuiltin (b : Builtin) (h : b.Uncalled c s) :
    Acts setup s (if b.isWriting then b.target c s else .empty) (b.reports c s)
      ((ofFuel (n + 1)).callBuiltin b c) (c.Returns s) := by
  generalize hwritten : (if b.isWriting then b.target c s else .empty) = written
  have hmodel : ∀ t, s.Notes [] t → Acts setup t written (b.reports c s)
      ((ofFuel (n + 1)).model b c) (c.Returns s) := by
    intro t hs
    have hcalled : b.Uncalled c t := fun i hi o ho => hs.now o ▸ h i hi o ho
    have hacts : Acts setup t _ _ ((ofFuel (n + 1)).model b c) (c.Returns t) :=
      acts_model b hcalled
    rw [Builtin.target_of_checks hs.toChecks, Builtin.reports_of_notes hs, hwritten] at hacts
    refine hacts.imp fun u r _ hr v hv hc => ?_
    exact (hr v hv hc).imp (hs.heap ▸ ·) (·.of_checks hs.toChecks)
  unfold callBuiltin
  split
  · exact hmodel s (.refl s)
  · obtain ⟨t, ht, hs⟩ := log_eq setup .debug (fun _ => ("Calling built-in",
      [("builtin", .text b.render), ("args", .ofNat c.args.length)])) s
    exact Acts.bind_silent (Q := fun t _ => s.Notes [] t)
      (.of_eq ht (hs.toChecks.affects _) hs) fun _ t _ ht => hmodel t ht

end

/-- The reports of a check: one if a possibility has a path, none otherwise. -/
theorem violations_spec (s : State) (r : Reference) (site : Site) (violation : Violation) :
    ((∃ v ∈ r, (s.provenance.find? v).isSome) →
      ∃ d, violations s r site violation = [d] ∧ d.span = s.anchors.head?.getD site.span) ∧
    ((∀ v ∈ r, s.provenance.find? v = none) → violations s r site violation = []) := by
  unfold violations
  constructor
  · rintro ⟨v, hv, hpath⟩
    have hsome : (s.provenance.findAny? r).isSome := List.findSome?_isSome_iff.2 ⟨v, hv, hpath⟩
    obtain ⟨path, hfound⟩ := Option.isSome_iff_exists.1 hsome
    rw [hfound]
    exact ⟨_, rfl, rfl⟩
  · intro hnone
    have hfound : s.provenance.findAny? r = none := List.findSome?_eq_none_iff.2 hnone
    rw [hfound]
    rfl

/-- A call of a built-in that calls nothing back ends. A mutating one reports once, at the call, if
its target is part of the globals, and not otherwise; of the others only `Object.getPrototypeOf`
reports, and always does. A container that was there is changed only if it is in the target and the
built-in is one that writes, and what is returned is new or could be reached from the receiver and
the arguments. -/
theorem callBuiltin_exact (setup : Setup) (n : Nat) (b : Builtin) (c : CallSite) (s : State)
    (h : b.Uncalled c s) :
    ∃ r s', (ofFuel (n + 1)).callBuiltin b c setup s = .ok r s' ∧
      (b.isMutating = true →
        ((∃ v ∈ b.target c s, (s.provenance.find? v).isSome) →
          ∃ d, s'.diagnostics = s.diagnostics.push d ∧
            d.span = s.anchors.head?.getD c.site.span) ∧
        ((∀ v ∈ b.target c s, s.provenance.find? v = none) → s'.diagnostics = s.diagnostics)) ∧
      (b.isMutating = false → b ≠ .objectGetPrototypeOf → s'.diagnostics = s.diagnostics) ∧
      (b = .objectGetPrototypeOf → ∃ d, s'.diagnostics = s.diagnostics.push d ∧
        d.span = s.anchors.head?.getD c.site.span) ∧
      (∀ v, (s.heap.contents v).isSome → s'.heap.contents v ≠ s.heap.contents v →
        b.isWriting = true ∧ v ∈ b.target c s) ∧
      ∀ v ∈ r, v.isContainer →
        (s.heap.contents v = none ∧ (s'.heap.contents v).isSome) ∨ c.Reaches s v := by
  obtain ⟨r, s', heq, hs, hr⟩ : Acts setup s _ _ ((ofFuel (n + 1)).callBuiltin b c) _ :=
    acts_callBuiltin b h
  have hsame : b.reports c s = [] → s'.diagnostics = s.diagnostics := fun hnil =>
    Array.toList_inj.1 (by rw [hs.diagnostics, hnil, List.append_nil])
  have hone : ∀ d, b.reports c s = [d] → s'.diagnostics = s.diagnostics.push d := fun d hd =>
    Array.toList_inj.1 (by rw [hs.diagnostics, hd, Array.toList_push])
  obtain ⟨hhit, hmiss⟩ := violations_spec s (b.target c s) c.site b.violation
  refine ⟨r, s', heq, fun hm => ?_, fun hm hne => ?_, ?_, fun v hv hne => ?_, hr⟩
  · have hreports : b.reports c s = violations s (b.target c s) c.site b.violation := if_pos hm
    rw [← hreports] at hhit hmiss
    refine ⟨fun hv => ?_, fun hv => hsame (hmiss hv)⟩
    obtain ⟨d, hd, hspan⟩ := hhit hv
    exact ⟨d, hone d hd, hspan⟩
  · exact hsame (by rw [Builtin.reports, hm, if_neg Bool.false_ne_true, if_neg hne])
  · rintro rfl
    exact ⟨_, hone _ rfl, rfl⟩
  · by_contra hnot
    refine hne (hs.kept v hv fun hmem => ?_)
    split at hmem
    · next hw => exact hnot ⟨hw, hmem⟩
    · exact Reference.not_mem_empty v hmem

end Evaluator

/-- A heap with an array of the globals that holds an object. -/
def listedGlobal : State :=
  { State.start with
    heap := ⟨#[.empty], #[⟨.single (.object 0), false⟩], #[], #[]⟩
    provenance := ⟨[(.array 0, [.key "a"]), (.object 0, [.key "a", .any])]⟩ }

/-- `a.sort(null)`, which has nothing to call back. -/
def sortedWithout : CallSite :=
  ⟨⟨.call, ⟨0, 12⟩⟩, some (.known (.single (.array 0))), [.known (.ofPrimitive .null)]⟩

/-- `a.sort(null)` calls nothing back: it reports once, at the call, and leaves the array as it
is. -/
theorem callBuiltin_exact_sortedWithout :
    Builtin.Uncalled .arraySort sortedWithout listedGlobal ∧
    ∃ r s', (Evaluator.ofFuel 2).callBuiltin .arraySort sortedWithout default listedGlobal =
        .ok r s' ∧
      (∃ d, s'.diagnostics = #[].push d ∧ d.span = ⟨0, 12⟩) ∧
      s'.heap.contents (.array 0) = listedGlobal.heap.contents (.array 0) := by
  have hcalled : Builtin.Uncalled .arraySort sortedWithout listedGlobal := by
    rintro i ⟨⟩ o ⟨⟩ v hv
    rw [Reference.mem_ofPrimitive.1 hv]
    rfl
  obtain ⟨r, s', heq, hreports, -, -, hkept, -⟩ :=
    Evaluator.callBuiltin_exact default 1 .arraySort sortedWithout listedGlobal hcalled
  have htarget : ∃ v ∈ Builtin.target .arraySort sortedWithout listedGlobal,
      (listedGlobal.provenance.find? v).isSome := ⟨.array 0, by decide, by decide⟩
  refine ⟨hcalled, r, s', heq, (hreports rfl).1 htarget, ?_⟩
  by_contra hne
  exact absurd (hkept _ (by decide) hne).1 (by decide)

end FrozenGlobals
