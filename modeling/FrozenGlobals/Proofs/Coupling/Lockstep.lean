import FrozenGlobals.Proofs.Coupling.Matching

/-!
# Matching analyses run in lockstep

What a lawful matching says of the states carries over to the computations: first the elementary
ones, then the loops in which possibilities are called, and calls of functions.
`Matching.Lawful.laws` puts them together.
-/

namespace FrozenGlobals

open Run
open Script (Span Node Expr Pattern Stmt Hoisting ScopeTemplate)

namespace Matching.Lawful

open Naming.Lawful

variable {A B : Setup} {M : Matching A B} (hM : M.Lawful) {u : Nat}
  {w : M.coupling.Stage}
include hM

/-! ## Elementary computations -/

section
variable {α β : Type} {x : Run α} {y : Run β} {Q : M.coupling.Stage → α → β → Prop}

omit hM in
/-- A computation that ends with a change of both states. -/
theorem change (h : ∀ s t, M.content s.content t.content → s.Parallel t → s.unit = u →
      ∃ a s' b t', x A s = .ok a s' ∧ y B t = .ok b t' ∧ M.content s'.content t'.content ∧
        s'.Parallel t' ∧ s'.unit = u ∧ Q () a b) : M.coupling.Couples u w x y Q :=
  .of_step fun w₁ _ s t hst hu => by
    obtain ⟨a, s', b, t', hx, hy, hc, hp, hu', hq⟩ := h s t hst.1 hst.2 hu
    exact ⟨a, s', b, t', w₁, hx, hy, trivial, ⟨hc, hp⟩, hu', hq⟩

omit hM in
/-- A computation that reads the states. -/
theorem reads (h : ∀ s t, M.content s.content t.content → s.Parallel t →
      ∃ a b, x A s = .ok a s ∧ y B t = .ok b t ∧ Q () a b) : M.coupling.Couples u w x y Q :=
  .of_read fun _ _ s t hst _ => h s t hst.1 hst.2

end

omit hM in
/-- The heaps of both states are changed. -/
theorem changeHeap {f f' : Heap → Heap} (h : ∀ c c', M.content c c' →
      M.content { c with heap := f c.heap } { c' with heap := f' c'.heap }) :
    M.coupling.Couples u w (modifyHeap f) (modifyHeap f') fun _ _ _ => True :=
  change fun _ _ hc hp hu => ⟨(), _, (), _, rfl, rfl, h _ _ hc, { hp with }, hu, trivial⟩

/-- Matching operands are read alike; an operand that is known is read as what it is known to be. -/
theorem couples_deref {o o' : Operand} (h : M.coupling.Operands w o o') :
    M.coupling.Couples u w (Run.deref o) (Run.deref o') fun _ r r' =>
      M.Refs r r' ∧ (∀ q, o = .known q → r = q) ∧ ∀ q, o' = .known q → r' = q := by
  cases h with
  | @known r r' h =>
    refine reads fun s t _ _ => ⟨r, r', rfl, rfl, h, fun q hq => ?_, fun q hq => ?_⟩
    · exact Operand.known.inj hq
    · exact Operand.known.inj hq
  | thrown => exact reads fun s t hc _ => ⟨_, _, rfl, rfl, hM.thrown hc, nofun, nofun⟩

/-- Matching operands are read as matching references. -/
theorem couples_value {o o' : Operand} (h : M.coupling.Operands w o o') :
    M.coupling.Couples u w (Run.deref o) (Run.deref o') fun _ => M.Refs :=
  (hM.couples_deref h).imp fun _ _ _ _ h => h.1

/-- Matching references hold matching references at each key. -/
theorem couples_getKey {r r' : Reference} (k : Key) (h : M.Refs r r') :
    M.coupling.Couples u w (Run.getKey r k) (Run.getKey r' k) fun _ => M.Refs :=
  reads fun _ _ hc _ => ⟨_, _, rfl, rfl, hM.refs_getKey hc h k⟩

/-- Matching writes are one change of both heaps. -/
theorem couples_setKey {r r' v v' : Reference} (k : Key) (hr : M.Refs r r') (hv : M.Refs v v') :
    M.coupling.Couples u w (Run.setKey r k v) (Run.setKey r' k v') fun _ _ _ => True :=
  changeHeap fun _ _ hc => hM.content_setKey hc hr hv k

/-- Matching operands may be bound to the same name in the same frame. -/
theorem couples_define {o o' : Operand} (f : Nat) (name : String) (h : M.coupling.Operands w o o') :
    M.coupling.Couples u w (Run.define f name o) (Run.define f name o') fun _ _ _ => True :=
  changeHeap fun _ _ hc => hM.define f name hc h

/-- Frames that bind names to nothing match, and get the same number. -/
theorem couples_newFrame {f : Frame} (h : ∀ b ∈ f.bindings, b.2 = .known .empty) :
    M.coupling.Couples u w (Run.newFrame f) (Run.newFrame f) fun _ f f' => f' = f :=
  change fun _ _ hc hp hu => ⟨_, _, _, _, rfl, rfl, (hM.newFrame f hc h).2, { hp with }, hu,
    (hM.newFrame f hc h).1⟩

/-- A function whose code may be run matches the same function with its classes emptied. -/
theorem couples_newFunction {fn : Script.Function} {st : Stack} (h : M.clear u (.function fn)) :
    M.coupling.Couples u w (Run.newFunction fn st)
      (Run.newFunction (fn.emptied (M.empties u)) st) fun _ => M.value := by
  refine change fun s t hc hp hu => ?_
  have hclosure : M.Closures
      { name := (fn.name.map (·.name)).getD "", code := some ⟨s.unit, fn⟩, scope := st,
        accessor := none }
      { name := ((fn.emptied (M.empties u)).name.map (·.name)).getD "",
        code := some ⟨t.unit, fn.emptied (M.empties u)⟩, scope := st, accessor := none } := by
    refine ⟨by rw [Script.Function.name_pruned], rfl, rfl, .some ⟨?_, ?_⟩⟩
    · rw [hp.unit, hu]
    · rw [hu]
      exact h
  exact ⟨_, _, _, _, rfl, rfl, (hM.newClosure hc hclosure).2, { hp with }, hu,
    (hM.newClosure hc hclosure).1⟩

/-- A name that is not hidden stands for matching operands. -/
theorem couples_lookup {name : String} (st : Stack) (hn : ¬ M.hides name) :
    M.coupling.Couples u w (Run.lookup name st) (Run.lookup name st) M.coupling.Operands := by
  refine reads fun s t hc _ => ?_
  have h : Option.Rel (M.coupling.Operands ()) (s.heap.lookup? st name)
    (t.heap.lookup? st name) := Lawful.lookup hM hc hn st
  refine ⟨_, _, lookup_eq A name st s, lookup_eq B name st t, ?_⟩
  unfold Heap.meaning
  revert h
  cases s.heap.lookup? st name <;> cases t.heap.lookup? st name <;> intro h <;> cases h
  · dsimp only
    cases Intrinsic.ofName? name with
    | some i => exact .known (refs_single (hM.intrinsic i))
    | none =>
      dsimp only
      split
      · exact .known (refs_single (hM.primitive .undefined))
      · exact .known refs_empty
  · exact ‹_›

/-- A name that is not hidden is bound in the same frame of both analyses. -/
theorem couples_owner? {name : String} (st : Stack) (hn : ¬ M.hides name) :
    M.coupling.Couples u w (Run.owner? st name) (Run.owner? st name) fun _ f f' => f' = f :=
  reads fun _ _ hc _ => ⟨_, _, rfl, rfl, hM.owner hc hn st⟩

/-- Matching references may be thrown. -/
theorem couples_throws {r r' : Reference} (h : M.Refs r r') :
    M.coupling.Couples u w (modify fun s => { s with thrown := s.thrown.union r } : Run Unit)
      (modify fun s => { s with thrown := s.thrown.union r' } : Run Unit) fun _ _ _ => True :=
  change fun _ _ hc hp hu => ⟨(), _, (), _, rfl, rfl, hM.throws hc h, { hp with }, hu, trivial⟩

/-! ## Warnings and reports -/

omit hM in
/-- Logs need not match. -/
theorem couples_log (level : Log.Level) (entry entry' : State → String × Log.Fields) :
    M.coupling.Couples u w (Run.log level entry) (Run.log level entry') fun _ _ _ => True := by
  -- each side logs what it likes
  refine change fun s t hc hp hu => ?_
  obtain ⟨log, hlog⟩ := log_ok A level entry s
  obtain ⟨log', hlog'⟩ := log_ok B level entry' t
  exact ⟨(), _, (), _, hlog, hlog', hc, { hp with }, hu, trivial⟩

/-- Warnings are kept in both analyses or in neither. -/
theorem couples_warn (message : String) :
    M.coupling.Couples u w (Run.warn message) (Run.warn message) fun _ _ _ => True := by
  have hpush : ∀ (setup : Setup) (s : State),
      (do if (← read).options.warnings then
          modify fun s => { s with warnings := s.warnings.push message } : Run Unit) setup s =
        .ok () { s with
          warnings := if setup.options.warnings then s.warnings.push message else s.warnings } := by
    intro setup s
    rw [read_bind]
    split <;> rfl
  unfold Run.warn
  exact (couples_log ..).seq <| change fun s t hc hp hu =>
    ⟨(), _, (), _, hpush A s, hpush B t, hM.warn message hc, { hp with }, hu, trivial⟩

/-- A construct that is not supported is passed over in both analyses, or ends both. -/
theorem couples_unsupported (code : UnsupportedCode) (kind : Script.NodeKind) (span : Span) :
    M.coupling.Couples u w (Run.unsupported code kind span) (Run.unsupported code kind span)
      fun _ _ _ => A.options.strict = false := by
  unfold Run.unsupported
  refine .read ?_
  rw [hM.strict]
  cases hs : A.options.strict with
  | true => exact .throw rfl
  | false => exact (hM.couples_warn _).imp fun _ _ _ _ _ => rfl

/-- Both analyses are canceled, or neither of them is. -/
theorem couples_checkCanceled :
    M.coupling.Couples u w Run.checkCanceled Run.checkCanceled fun _ _ _ => True := by
  unfold Run.checkCanceled
  refine .read ?_
  rw [hM.canceled]
  split
  · exact .throw rfl
  · exact .pure fun _ _ => trivial

/-- A report is made in both analyses, with the same path where paths are told apart. -/
theorem couples_report (site : Site) {message message' : String} {path path' : Option Path}
    (h : M.exact → message' = message ∧ path' = path) :
    M.coupling.Couples u w (Run.report site message path) (Run.report site message' path')
      fun _ _ _ => True := by
  have hanchor : M.coupling.Couples u w (anchor site.span) (anchor site.span)
      fun _ a a' => a' = a :=
    reads fun s t _ hp => ⟨_, _, rfl, rfl, by rw [hp.anchors]⟩
  unfold Run.report
  refine hanchor.bind fun w₁ a a' _ ha => Coupling.Couples.seq (Q := fun _ _ _ => True) ?_
    (couples_log ..)
  subst ha
  refine change fun s t hc hp hu => ⟨(), _, (), _, rfl, rfl, ?_, { hp with }, hu, trivial⟩
  refine hM.report hc rfl fun he => ?_
  obtain ⟨rfl, rfl⟩ := h he
  rfl

/-- A check finds a path in both analyses or in neither. -/
theorem couples_checkGlobal {r r' : Reference} (site : Site) (violation : Violation)
    (h : M.Refs r r') :
    M.coupling.Couples u w (Run.checkGlobal r site violation) (Run.checkGlobal r' site violation)
      fun _ b b' => b' = b := by
  unfold Run.checkGlobal
  refine .get fun w₁ _ s t hst => ?_
  obtain ⟨hsome, hexact⟩ : (t.provenance.findAny? r').isSome = (s.provenance.findAny? r).isSome ∧
    (M.exact → t.provenance.findAny? r' = s.provenance.findAny? r) := hM.findAny hst.1 h
  revert hsome hexact
  cases s.provenance.findAny? r <;> cases t.provenance.findAny? r' <;> intro hsome hexact <;>
    first | cases hsome; done | skip
  · exact .pure fun _ _ => rfl
  · refine (hM.couples_report site fun he => ?_).seq (.pure fun _ _ => rfl)
    cases hexact he
    exact ⟨rfl, rfl⟩

/-- A write to a name that is not hidden is reported in both analyses or in neither. -/
theorem couples_checkGlobalName {name : String} (st : Stack) (site : Site) (violation : Violation)
    (hn : ¬ M.hides name) :
    M.coupling.Couples u w (Run.checkGlobalName name st site violation)
      (Run.checkGlobalName name st site violation) fun _ _ _ => True := by
  unfold Run.checkGlobalName
  refine (hM.couples_owner? st hn).bind fun w₁ f f' _ hf => ?_
  subst hf
  split
  · exact .pure fun _ _ => trivial
  · split
    · exact hM.couples_report site fun _ => ⟨rfl, rfl⟩
    · exact .pure fun _ _ => trivial

/-! ## Writes to names -/

omit hM in
/-- The innermost frame is the same, or missing in both analyses. -/
theorem couples_top (st : Stack) :
    M.coupling.Couples u w (Run.top st) (Run.top st) fun _ f f' => f' = f := by
  cases st with
  | nil => exact .throw rfl
  | cons f st => exact .pure fun _ _ => rfl

/-- A name that is not hidden is bound again in the same frame. -/
theorem couples_rebind {name : String} {r r' : Reference} (st : Stack) (hn : ¬ M.hides name)
    (h : M.Refs r r') :
    M.coupling.Couples u w (Run.rebind name r st) (Run.rebind name r' st) fun _ _ _ => True := by
  unfold Run.rebind
  refine (hM.couples_owner? st hn).bind fun w₁ f f' _ hf => ?_
  subst hf
  split
  · exact hM.couples_define _ name (.known h)
  · split
    · exact hM.couples_define _ name (.known h)
    · exact .throw rfl

/-- An assignment to a name that is not hidden is checked and made alike. -/
theorem couples_writeName {name : String} {o o' : Operand} (st : Stack) (site : Site)
    (violation : Violation) (hn : ¬ M.hides name) (ho : M.coupling.Operands w o o') :
    M.coupling.Couples u w (Evaluator.writeName name o st site violation)
      (Evaluator.writeName name o' st site violation) fun _ _ _ => True := by
  have hend : ∀ {w₁ current current'}, M.coupling.Operands w₁ current current' →
      M.coupling.Couples u w₁
        (do Run.rebind name ((← Run.deref current).union (← Run.deref o)) st)
        (do Run.rebind name ((← Run.deref current').union (← Run.deref o')) st)
        fun _ _ _ => True := fun hcurrent =>
    (hM.couples_value hcurrent).bind fun _ _ _ _ hr => (hM.couples_value ho).bind fun _ _ _ _ hq =>
      hM.couples_rebind st hn (hM.refs_union hr hq)
  unfold Evaluator.writeName
  refine (hM.couples_lookup st hn).bind fun w₁ current current' _ hcurrent => ?_
  refine (hM.couples_value hcurrent).bind fun w₂ r r' _ hr => ?_
  refine (hM.couples_checkGlobal site violation hr).bind fun w₃ b b' _ hb => ?_
  subst hb
  split
  · exact hend hcurrent
  · exact (hM.couples_checkGlobalName st site violation hn).seq (hend hcurrent)

/-- A `var` declaration of a name that is not hidden adds matching operands. -/
theorem couples_addVariable {name : String} {o o' : Operand} (st : Stack) (hn : ¬ M.hides name)
    (ho : M.coupling.Operands w o o') :
    M.coupling.Couples u w (Evaluator.addVariable name o st) (Evaluator.addVariable name o' st)
      fun _ _ _ => True := by
  have htop : ∀ {w₁}, M.coupling.Couples u w₁ (do Run.define (← Run.top st) name o)
      (do Run.define (← Run.top st) name o') fun _ _ _ => True :=
    (couples_top st).bind fun _ f f' _ hf => by
      subst hf
      exact hM.couples_define f' name ho
  unfold Evaluator.addVariable
  refine (hM.couples_owner? st hn).bind fun w₁ f f' _ hf => ?_
  subst hf
  cases f' with
  | none => exact htop
  | some f =>
    dsimp only
    split
    · exact htop
    · refine .get fun w₂ _ s t hst => ?_
      have hf : Option.Rel (M.coupling.Operands w₂) ((s.heap.frame f).find? name)
        ((t.heap.frame f).find? name) := hM.binding hst.1 hn
      have hexisting : M.coupling.Operands w₂ (((s.heap.frame f).find? name).getD (.known .empty))
          (((t.heap.frame f).find? name).getD (.known .empty)) := by
        revert hf
        cases (s.heap.frame f).find? name <;> cases (t.heap.frame f).find? name <;> intro hf <;>
          cases hf
        · exact .known refs_empty
        · exact ‹_›
      refine (hM.couples_value hexisting).bind fun w₃ r r' _ hr => ?_
      exact (hM.couples_value ho).bind fun _ _ _ _ hq =>
        hM.couples_define f name (.known (hM.refs_union hr hq))

/-! ## Containers -/

/-- The receivers of matching calls hold matching arrays. -/
theorem couples_receiverArrays {c c' : CallSite} (hc : M.coupling.Sites w c c') :
    M.coupling.Couples u w (Evaluator.receiverArrays c) (Evaluator.receiverArrays c')
      fun _ => M.Refs := by
  unfold Evaluator.receiverArrays
  have hr := hc.receiver
  revert hr
  generalize c.receiver = o
  generalize c'.receiver = o'
  rintro (ho | _)
  · exact (hM.couples_value ho).bind fun _ _ _ _ hr => .pure fun _ _ => hM.refs_arrays hr
  · exact .pure fun _ _ => refs_empty

/-- New objects with matching slots match. -/
theorem couples_newObject {o o' : ObjectCell} (h : M.Cells o o') :
    M.coupling.Couples u w (Run.newObject o) (Run.newObject o') fun _ => M.value :=
  change fun _ _ hc hp hu => ⟨_, _, _, _, rfl, rfl, (hM.newObject hc h).2, { hp with }, hu,
    (hM.newObject hc h).1⟩

/-- New arrays with matching elements match. -/
theorem couples_newArray {r r' : Reference} (h : M.Refs r r') :
    M.coupling.Couples u w (Run.newArray r) (Run.newArray r') fun _ => M.value :=
  change fun _ _ hc hp hu => ⟨_, _, _, _, rfl, rfl, (hM.newArray hc h).2, { hp with }, hu,
    (hM.newArray hc h).1⟩

/-- References to new arrays with matching elements match. -/
theorem couples_arrayOf {r r' : Reference} (h : M.Refs r r') :
    M.coupling.Couples u w (Evaluator.arrayOf r) (Evaluator.arrayOf r') fun _ => M.Refs :=
  (hM.couples_newArray h).bind fun _ _ _ _ hv => .pure fun _ _ => refs_single hv

omit hM in
/-- Folds over matching references match if their steps do. -/
theorem foldl_refs {α : Type} {R : α → α → Prop} {f f' : α → Value → α} {r r' : Reference}
    (h : M.Refs r r') (hf : ∀ {a a' v v'}, R a a' → M.value v v' → R (f a v) (f' a' v')) {a a' : α}
    (ha : R a a') : R (r.values.foldl f a) (r'.values.foldl f' a') := by
  have hfold : ∀ {vs vs' : List Value}, List.Forall₂ M.value vs vs' → ∀ {a a'}, R a a' →
      R (vs.foldl f a) (vs'.foldl f' a') := by
    intro vs vs' h
    induction h with
    | nil => exact fun h => h
    | cons hv _ ih => exact fun ha => ih (hf ha hv)
  exact hfold h ha

/-- `concat` makes matching arrays. -/
theorem couples_concat {c c' : CallSite} (hc : M.coupling.Sites w c c') :
    M.coupling.Couples u w (Evaluator.concat c) (Evaluator.concat c') fun _ => M.Refs := by
  unfold Evaluator.concat
  refine (hM.couples_receiverArrays hc).bind fun w₁ r r' _ hr => ?_
  refine (hM.couples_getKey .any hr).bind fun w₂ first first' _ hfirst => ?_
  refine .get fun w₃ _ s t hst => ?_
  have hall : M.coupling.Couples u w₃ (Run.derefAll c.args) (Run.derefAll c'.args)
      fun _ => M.Refs :=
    (Coupling.Couples.mapM (R := fun _ => M.Refs) hc.args (fun _ h => h)
      fun _ _ _ _ _ ho => hM.couples_value ho).bind fun _ _ _ _ hrs => .pure fun _ _ =>
        hM.refs_unionAll hrs
  refine hall.bind fun w₄ args args' _ hargs => hM.couples_arrayOf ?_
  refine foldl_refs hargs (fun {q q' v v'} hq hv => ?_) hfirst
  obtain ⟨id, id', rfl, rfl⟩ | ⟨id, id', rfl, rfl⟩ | ⟨id, id', rfl, rfl⟩ | ⟨p, p', rfl, rfl⟩ |
    ⟨hn, rfl⟩ := hM.value_cases hv
  · exact hM.refs_insert hq hv
  · exact hM.refs_union hq (hM.array hst.1 hv).1
  · exact hM.refs_insert hq hv
  · exact hM.refs_insert hq hv
  · cases v' with
    | intrinsic _ | builtin _ => exact hM.refs_insert hq hv
    | _ => cases hn

/-- `flat` makes matching arrays, since nested arrays are opened in the same order. -/
theorem couples_flat {c c' : CallSite} (hc : M.coupling.Sites w c c') :
    M.coupling.Couples u w (Evaluator.flat c) (Evaluator.flat c') fun _ => M.Refs := by
  unfold Evaluator.flat
  refine (hM.couples_receiverArrays hc).bind fun w₁ r r' _ hr => .get fun w₂ _ s t hst => ?_
  exact hM.couples_arrayOf (hM.flatten hst.1 hr)

/-- Matching objects are spread into matching objects. -/
theorem cells_spreadInto {c c' : Content} (hc : M.content c c') {o o' : ObjectCell}
    (ho : M.Cells o o') {r r' : Reference} (hr : M.Refs r r') :
    M.Cells (c.heap.spreadInto o r) (c'.heap.spreadInto o' r') := by
  refine foldl_refs hr (fun {o o' v v'} ho hv => ?_) ho
  obtain ⟨id, id', rfl, rfl⟩ | ⟨id, id', rfl, rfl⟩ | ⟨id, id', rfl, rfl⟩ | ⟨p, p', rfl, rfl⟩ |
    ⟨hn, rfl⟩ := hM.value_cases hv
  · have hcell := hM.object hc hv
    have hslots : M.Cells
        ((c.heap.object id).slots.foldl (fun o s => o.set (.name s.1) s.2) o)
        ((c'.heap.object id').slots.foldl (fun o s => o.set (.name s.1) s.2) o') := by
      have hfold : ∀ {slots slots' : List (String × Reference)},
          List.Forall₂ (fun s s' => s'.1 = s.1 ∧ M.Refs s.2 s'.2) slots slots' →
          ∀ {o o'}, M.Cells o o' →
          M.Cells (slots.foldl (fun o s => o.set (.name s.1) s.2) o)
            (slots'.foldl (fun o s => o.set (.name s.1) s.2) o') := by
        intro slots slots' h
        induction h with
        | nil => exact fun h => h
        | @cons s s' _ _ hs _ ih =>
          obtain ⟨n, q⟩ := s
          obtain ⟨n', q'⟩ := s'
          obtain ⟨rfl, hq⟩ : n' = n ∧ M.Refs q q' := hs
          exact fun ho => ih (hM.cells_set ho (.name n') hq)
      exact hfold hcell.slots ho
    have hwildcard := hcell.wildcard
    dsimp only
    revert hwildcard
    generalize (c.heap.object id).wildcard = q
    generalize (c'.heap.object id').wildcard = q'
    rintro (hq | _)
    · exact hM.cells_set hslots .any hq
    · exact hslots
  · exact hM.cells_set ho .any (hM.array hc hv).1
  · exact ho
  · exact ho
  · cases v' with
    | intrinsic _ | builtin _ => exact ho
    | _ => cases hn

/-! ## Accessors -/

/-- A value is an accessor of the same kind in both analyses, or in neither. -/
theorem couples_accessor? {v v' : Value} (h : M.value v v') :
    M.coupling.Couples u w (Evaluator.accessor? v) (Evaluator.accessor? v')
      fun _ a a' => a' = a := by
  obtain ⟨id, id', rfl, rfl⟩ | ⟨id, id', rfl, rfl⟩ | ⟨id, id', rfl, rfl⟩ | ⟨p, p', rfl, rfl⟩ |
    ⟨hn, rfl⟩ := hM.value_cases h
  · exact .pure fun _ _ => rfl
  · exact .pure fun _ _ => rfl
  · refine reads fun s t hc _ => ⟨_, _, rfl, rfl, ?_⟩
    have hclosure : Option.Rel M.Closures (s.heap.closure? id) (t.heap.closure? id') :=
      hM.closure hc h
    revert hclosure
    cases s.heap.closure? id <;> cases t.heap.closure? id' <;> intro h <;> cases h
    · rfl
    · exact Naming.Closures.accessor ‹_›
  · exact .pure fun _ _ => rfl
  · cases v' with
    | intrinsic _ | builtin _ => exact .pure fun _ _ => rfl
    | _ => cases hn

/-- Matching functions are made accessors of the same kind. -/
theorem couples_markAccessors (a : Accessor) {r r' : Reference} (h : M.Refs r r') :
    M.coupling.Couples u w (Evaluator.markAccessors a r) (Evaluator.markAccessors a r')
      fun _ _ _ => True := by
  refine .forM h fun w₁ v v' _ _ hv => ?_
  obtain ⟨id, id', rfl, rfl⟩ | ⟨id, id', rfl, rfl⟩ | ⟨id, id', rfl, rfl⟩ | ⟨p, p', rfl, rfl⟩ |
    ⟨hn, rfl⟩ := hM.value_cases hv
  · exact .pure fun _ _ => trivial
  · exact .pure fun _ _ => trivial
  · exact changeHeap fun _ _ hc => hM.mark a hc hv
  · exact .pure fun _ _ => trivial
  · cases v' with
    | intrinsic _ | builtin _ => exact .pure fun _ _ => trivial
    | _ => cases hn

/-! ## Calls -/

section
variable {E E' : Evaluator} (hE : E.Couples M.coupling E') {c c' : CallSite}
include hE

/-- The possibilities of matching callees are called in the same order. -/
theorem couples_invokeAll {r r' : Reference} (hr : M.Refs r r')
    (hc : M.coupling.Sites w c c') :
    M.coupling.Couples u w (E.invokeAll r c) (E'.invokeAll r' c') fun _ => M.Refs := by
  refine .foldlM (R := fun _ => M.Refs) hr (fun _ h => h)
    (fun w₁ v v' q q' _ _ hv hq => ?_) refs_empty
  exact (hE.invoke hv hc).bind fun _ _ _ _ hr => .pure fun _ _ => hM.refs_union hq hr

/-- The slots of matching members are read alike, getters called. -/
theorem couples_readSlots {r r' : Reference} {o o' : Operand} (site : Site)
    (ho : M.coupling.Operands w o o') (hr : M.Refs r r') :
    M.coupling.Couples u w (E.readSlots o site r) (E'.readSlots o' site r') fun _ => M.Refs := by
  refine .foldlM (R := fun _ => M.Refs) hr (fun _ h => h)
    (fun w₁ v v' q q' _ _ hv hq => ?_) refs_empty
  refine Coupling.Couples.bind (Q := fun _ => M.Refs) ?_ fun _ _ _ _ hr =>
    .pure fun _ _ => hM.refs_union hq hr
  unfold Evaluator.readSlot
  refine (hM.couples_accessor? hv).bind fun w₂ a a' _ ha => ?_
  subst ha
  split
  · exact .pure fun _ _ => refs_single hv
  · exact hE.invoke hv ⟨rfl, .some ho, .nil⟩
  · exact .pure fun _ _ => refs_single (hM.primitive .undefined)

/-- The setters among matching possibilities are called alike. -/
theorem couples_callSetters {r r' : Reference} {o o' v v' : Operand} (site : Site)
    (hr : M.Refs r r') (ho : M.coupling.Operands w o o') (hv : M.coupling.Operands w v v') :
    M.coupling.Couples u w (E.callSetters r o v site) (E'.callSetters r' o' v' site)
      fun _ _ _ => True := by
  refine .forM hr fun w₁ f f' _ _ hf => ?_
  refine (hM.couples_accessor? hf).bind fun w₂ a a' _ ha => ?_
  subst ha
  split
  · have hc : M.coupling.Sites w₂ ⟨site, some o, [v]⟩ ⟨site, some o', [v']⟩ :=
      ⟨rfl, .some ho, .cons hv .nil⟩
    exact (hE.invoke hf hc).bind fun _ _ _ _ _ => .pure fun _ _ => trivial
  · exact .pure fun _ _ => trivial

/-- A matching value is called as a constructor alike, or is none in either analysis. -/
theorem couples_constructWith {v v' : Value} (hv : M.value v v') (hc : M.coupling.Sites w c c') :
    M.coupling.Couples u w (E.constructWith c v) (E'.constructWith c' v')
      fun _ => Option.Rel M.Refs := by
  unfold Evaluator.constructWith
  have hv' := hv
  obtain ⟨id, id', rfl, rfl⟩ | ⟨id, id', rfl, rfl⟩ | ⟨id, id', rfl, rfl⟩ | ⟨p, p', rfl, rfl⟩ |
    ⟨hn, rfl⟩ := hM.value_cases hv
  · exact .pure fun _ _ => .none
  · exact .pure fun _ _ => .none
  · refine (hE.invoke hv' hc).bind fun w₁ r r' _ hr => ?_
    refine (hM.couples_newObject cells_empty).bind fun w₂ o o' _ ho => .pure fun _ _ => ?_
    exact .some (hM.refs_insert hr ho)
  · exact .pure fun _ _ => .none
  · cases v' with
    | intrinsic i =>
      exact (hE.invoke hv' hc).bind fun _ _ _ _ hr => .pure fun _ _ => .some hr
    | builtin _ => exact .pure fun _ _ => .none
    | _ => cases hn

/-- The possibilities of a constructor are called in the same order. -/
theorem couples_constructAll {r r' : Reference} (span : Span) (hr : M.Refs r r')
    (hc : M.coupling.Sites w c c') :
    M.coupling.Couples u w (E.constructAll span c r) (E'.constructAll span c' r')
      M.coupling.Operands := by
  unfold Evaluator.constructAll
  refine (Coupling.Couples.mapM (R := fun _ => Option.Rel M.Refs) hr (fun _ h => h)
    fun w₁ v v' _ _ hv => hM.couples_constructWith hE hv hc).bind fun w₁ rs rs' _ hrs => ?_
  have hany : rs'.any Option.isSome = rs.any Option.isSome := by
    induction hrs with
    | nil => rfl
    | cons h _ ih => rw [List.any_cons, List.any_cons, ih]; cases h <;> rfl
  have hsome : List.Forall₂ M.Refs (rs.filterMap id) (rs'.filterMap id) := by
    clear hany
    induction hrs with
    | nil => exact .nil
    | cons h _ ih =>
      cases h with
      | none => exact ih
      | some h => exact .cons h ih
  rw [hany]
  have hend : ∀ {w₂}, M.coupling.Couples u w₂
      (pure (Operand.known (.unionAll (rs.filterMap id))))
      (pure (Operand.known (.unionAll (rs'.filterMap id)))) M.coupling.Operands :=
    .pure fun _ _ => .known (hM.refs_unionAll hsome)
  split
  · exact hend
  · exact (hM.couples_warn _).seq hend

end

/-! ## Scopes -/

/-- A scope that may be entered has matching templates. -/
theorem couples_template {n : Node} {start : Int} (h : M.clear u n) (hn : n.entry? = some start) :
    M.coupling.Couples u w (Run.template start) (Run.template start)
      fun _ => M.Templates u := by
  refine ⟨fun w₁ _ s t hst hu => ?_⟩
  rw [Run.template_eq start A hu, Run.template_eq start B (hst.2.unit.trans hu)]
  have hprograms := hM.programs u
  revert hprograms
  cases A.programs[u]? <;> cases B.programs[u]? <;> intro hprograms <;> cases hprograms
  · exact rfl
  · rename_i hprograms
    have ht := hprograms.2 n start h hn
    revert ht
    dsimp only
    generalize Hoisting.find? _ start = t
    generalize Hoisting.find? _ start = t'
    rintro (ht | _)
    · exact ⟨w₁, trivial, hst, hu, ht⟩
    · exact rfl

/-- Matching templates make the same frames. -/
theorem couples_instantiate {t t' : ScopeTemplate} (st : Stack) (h : M.Templates u t t') :
    M.coupling.Couples u w (Run.instantiate t st) (Run.instantiate t' st)
      fun _ st st' => st' = st := by
  obtain ⟨rfl, hclear⟩ := h
  have hempty : ∀ (vars : List String) (f : Frame), (∀ b ∈ f.bindings, b.2 = .known .empty) →
      ∀ b ∈ (vars.foldl (fun f name => f.define name (.known .empty)) f).bindings,
        b.2 = .known .empty := by
    intro vars
    induction vars with
    | nil => exact fun _ h => h
    | cons name vars ih =>
      intro f hf
      refine ih _ ?_
      have hset : ∀ bs : List (String × Operand), (∀ b ∈ bs, b.2 = .known .empty) →
          ∀ b ∈ Frame.setBinding name (.known .empty) bs, b.2 = .known .empty := by
        intro bs
        induction bs with
        | nil =>
          intro _ b hb
          rw [List.mem_singleton.1 hb]
        | cons first rest ih =>
          obtain ⟨n, old⟩ := first
          intro h b hb
          rw [Frame.setBinding] at hb
          split at hb
          · rcases List.mem_cons.1 hb with rfl | hb
            · rfl
            · exact h b (List.mem_cons_of_mem _ hb)
          · rcases List.mem_cons.1 hb with rfl | hb
            · exact h _ List.mem_cons_self
            · exact ih (fun b hb => h b (List.mem_cons_of_mem _ hb)) b hb
      exact hset f.bindings hf
  unfold Run.instantiate
  refine (hM.couples_newFrame (hempty t.vars .empty (by simp [Frame.empty]))).bind
    fun w₁ f f' _ hf => ?_
  subst hf
  refine Coupling.Couples.seq (Q := fun _ _ _ => True) ?_ (.pure fun _ _ => rfl)
  refine .forM (forall₂_map_self _ t.functions) fun w₂ fn _ _ hmem heq => ?_
  subst heq
  rw [Script.Function.name_pruned]
  cases fn.name with
  | none => exact .pure fun _ _ => trivial
  | some id =>
    exact (hM.couples_newFunction (hclear fn hmem)).bind fun w₃ v v' _ hv =>
      hM.couples_define _ id.name (.known (refs_single hv))

/-! ## Functions -/

omit hM in
/-- Matching functions are counted under the same key. -/
theorem key_eq {fn fn' : Closure} (h : M.Closures fn fn') : fn'.key = fn.key := by
  have hcode := h.code
  unfold Closure.key
  revert hcode
  cases fn.code <;> cases fn'.code <;> intro h <;> cases h
  · rfl
  · rename_i h
    rw [h.1]
    simp

/-- A call that is not followed is warned about once. -/
theorem couples_refuse (warned : Bool) {f : State → State} (message : String)
    (hf : ∀ s t, s.Parallel t → (f s).Parallel (f t))
    (hcontent : ∀ s, (f s).content = s.content) (hunit : ∀ s, (f s).unit = s.unit) :
    M.coupling.Couples u w
      (do
        unless warned do
          modify f
          Run.warn message
        return false)
      (do
        unless warned do
          modify f
          Run.warn message
        return false) fun _ b b' => b' = b := by
  cases warned with
  | true => exact .pure fun _ _ => rfl
  | false =>
    refine Coupling.Couples.seq (Q := fun _ _ _ => True) ?_
      ((hM.couples_warn message).seq (.pure fun _ _ => rfl))
    refine change fun s t hc hp hu => ⟨(), _, (), _, rfl, rfl, ?_, hf s t hp, ?_, trivial⟩
    · rwa [hcontent, hcontent]
    · rw [hunit, hu]

/-- A call is followed in both analyses or in neither. -/
theorem couples_admits {fn fn' : Closure} (h : M.Closures fn fn') (site : Site) :
    M.coupling.Couples u w (Evaluator.admits fn site) (Evaluator.admits fn' site)
      fun _ b b' => b' = b := by
  have hname : fn'.displayName = fn.displayName := by
    unfold Closure.displayName
    rw [h.name]
  unfold Evaluator.admits
  refine .read (.get fun w₁ _ s t hst => ?_)
  have hp : s.Parallel t := hst.2
  have hafford : M.coupling.Couples u w₁ (Evaluator.affords fn A.options.budget? s)
      (Evaluator.affords fn' A.options.budget? t) fun _ b b' => b' = b := by
    unfold Evaluator.affords
    rw [key_eq h, hname, hp.active, hp.reentries, hp.budgetWarned]
    split
    · exact .pure fun _ _ => rfl
    · split
      · refine hM.couples_refuse _ _ (fun s t hp => ?_) (fun _ => rfl) fun _ => rfl
        exact { hp with budgetWarned := congrArg (fn.key :: ·) hp.budgetWarned }
      · exact .pure fun _ _ => rfl
  have hbudget : B.options.budget? = A.options.budget? := by
    unfold Options.budget?
    rw [hM.maxCallDepth]
  rw [hbudget, hM.maxCallDepth, hp.depth, hp.ceilingWarned]
  dsimp only
  by_cases hmax : 0 ≤ A.options.maxCallDepth
  · rw [if_pos hmax, if_pos hmax]
    split
    · refine (couples_log ..).seq (hM.couples_refuse _ _ (fun s t hp => ?_) (fun _ => rfl)
        fun _ => rfl)
      exact { hp with ceilingWarned := rfl }
    · exact hafford
  · rw [if_neg hmax, if_neg hmax]
    split
    · exact Coupling.Couples.bind (Q := fun _ _ _ => True) (.throw rfl) fun _ _ _ _ _ => hafford
    · exact hafford

omit hM in
/-- Calls of functions with the same key are counted alike. -/
theorem couples_counted {α β : Type} {x : Run α} {y : Run β} {Q : M.coupling.Stage → α → β → Prop}
    (key : FunctionKey) (h : M.coupling.Couples u w x y Q) :
    M.coupling.Couples u w (Run.counted key x) (Run.counted key y) Q := by
  refine ⟨fun w₁ hle s t hst hu => ?_⟩
  obtain ⟨hc, hp⟩ : M.content s.content t.content ∧ s.Parallel t := hst
  let enter (s : State) : State :=
    { s with
      reentries := if 0 < s.active.count key then s.reentries.add key else s.reentries
      depth := s.depth + 1
      calls := s.calls + 1
      active := s.active.add key }
  let leave (s : State) : State :=
    { s with depth := s.depth - 1, active := s.active.remove key }
  have henter : (enter s).Parallel (enter t) :=
    { hp with
      reentries := by simp only [enter, hp.reentries, hp.active]
      depth := by simp only [enter, hp.depth]
      calls := by simp only [enter, hp.calls]
      active := by simp only [enter, hp.active] }
  have h := h.run w₁ hle (enter s) (enter t) ⟨hc, henter⟩ hu
  show M.coupling.Ends u w₁ Q (x.restoring leave A (enter s)) (y.restoring leave B (enter t))
  unfold restoring
  revert h
  generalize x A (enter s) = r
  generalize y B (enter t) = r'
  cases r <;> cases r' <;> intro h
  case ok.ok =>
    obtain ⟨w₂, hle₂, ⟨hc, hp⟩, hu, hq⟩ := h
    refine ⟨w₂, hle₂, ⟨hc, ?_⟩, hu, hq⟩
    exact { hp with
      depth := congrArg (· - 1) hp.depth
      active := congrArg (·.remove key) hp.active }
  all_goals exact h

omit hM in
/-- Code behind a call reports at that call in both analyses. -/
theorem couples_anchored {α β : Type} {x : Run α} {y : Run β} {Q : M.coupling.Stage → α → β → Prop}
    (span : Span) (h : M.coupling.Couples u w x y Q) :
    M.coupling.Couples u w (do anchored (← anchor span) x) (do anchored (← anchor span) y) Q := by
  refine ⟨fun w₁ hle s t hst hu => ?_⟩
  obtain ⟨hc, hp⟩ : M.content s.content t.content ∧ s.Parallel t := hst
  let enter (s : State) : State := { s with anchors := s.anchors.head?.getD span :: s.anchors }
  have henter : (enter s).Parallel (enter t) :=
    { hp with anchors := by simp only [enter, hp.anchors] }
  have h := h.run w₁ hle (enter s) (enter t) ⟨hc, henter⟩ hu
  show M.coupling.Ends u w₁ Q (x.restoring ({ · with anchors := s.anchors }) A (enter s))
    (y.restoring ({ · with anchors := t.anchors }) B (enter t))
  unfold restoring
  revert h
  generalize x A (enter s) = r
  generalize y B (enter t) = r'
  cases r <;> cases r' <;> intro h
  case ok.ok =>
    obtain ⟨w₂, hle₂, ⟨hc, hp'⟩, hu, hq⟩ := h
    exact ⟨w₂, hle₂, ⟨hc, { hp' with anchors := hp.anchors }⟩, hu, hq⟩
  all_goals exact h

/-- Calls of matching functions match if their parameters are bound and their bodies run alike. -/
theorem couples_callFunction {E E' : Evaluator} {id id' : Nat} {c c' : CallSite}
    (hv : M.value (.function id) (.function id')) (hc : M.coupling.Sites w c c')
    (h : ∀ {w₁ fn fn' code code'}, M.coupling.le w w₁ →
      M.coupling.Callees w₁ fn fn' code code' → M.coupling.Couples code.unit w₁
        (do E.runBody code (← E.bindParams (.function id) fn code c.args))
        (do E'.runBody code' (← E'.bindParams (.function id') fn' code' c'.args))
        fun _ => M.Refs) :
    M.coupling.Couples u w (E.callFunction id c) (E'.callFunction id' c') fun _ => M.Refs := by
  have hempty : ∀ {w₁}, M.coupling.Couples u w₁ (pure .empty : Run Reference) (pure .empty)
      fun _ => M.Refs := .pure fun _ _ => refs_empty
  unfold Evaluator.callFunction
  refine hM.couples_checkCanceled.seq (.get fun w₁ _ s t hst => ?_)
  have hclosure : Option.Rel M.Closures (s.heap.closure? id) (t.heap.closure? id') :=
    hM.closure hst.1 hv
  revert hclosure
  generalize s.heap.closure? id = fn
  generalize t.heap.closure? id' = fn'
  rintro (@⟨fn, fn', hfn⟩ | _)
  · dsimp only
    rw [hc.site]
    refine (hM.couples_admits hfn c.site).bind fun w₂ b b' _ hb => ?_
    subst hb
    cases b' with
    | false => exact hempty
    | true =>
      refine (Coupling.Couples.mapM (R := fun _ => M.Refs) hc.args (fun _ h => h)
        fun _ _ _ _ _ ho => hM.couples_value ho).bind fun w₃ args args' _ _ => ?_
      refine .read ((couples_log ..).seq ?_)
      rw [key_eq hfn]
      have hcode := hfn.code
      revert hcode
      cases hk : fn.code <;> cases hk' : fn'.code <;> intro hcode <;> cases hcode
      · exact hempty
      · rename_i code code' hcode
        obtain ⟨rfl, hclear⟩ := hcode
        have hrun : M.coupling.Couples u w₃
            (Run.counted fn.key (Run.inUnit code.unit do
              E.runBody code (← E.bindParams (.function id) fn code c.args)))
            (Run.counted fn.key (Run.inUnit code.unit do
              E'.runBody ⟨code.unit, code.literal.emptied (M.empties code.unit)⟩
                (← E'.bindParams (.function id') fn'
                  ⟨code.unit, code.literal.emptied (M.empties code.unit)⟩ c'.args)))
            fun _ => M.Refs := by
          refine couples_counted _ (.inUnit (fun _ hst => ⟨hst.1, { hst.2 with unit := rfl }⟩)
            (fun hst => hst.2.unit)
            (h trivial ⟨hk, hk', rfl, rfl, hfn.name, hfn.scope, hclear⟩))
        refine .get fun w₄ _ s t hst => ?_
        rw [hst.2.depth]
        split
        · exact ⟨hrun.run⟩
        · exact hrun
  · exact hempty

/-! ## Laws -/

/-- The target of an item may be run with it. -/
theorem clear_target {target : Pattern} {value : Option Expr}
    (h : M.clear u (.ofItem (.mk target value))) : M.clear u (.ofPattern target) := by
  cases value with
  | none => exact h
  | some value => exact hM.part h (by simp [Node.ofItem, Node.parts, Node.children])

mutual

/-- The names of a pattern are not hidden. -/
theorem names_shown : ∀ {p : Pattern}, M.clear u (.ofPattern p) → ∀ name ∈ p.names, ¬ M.hides name
  | .leaf target, h, name, hn => by
    cases target with
    | identifier id =>
      obtain rfl := List.mem_singleton.1 hn
      exact hM.identifier h
    | _ => cases hn
  | .array span items rest, h, name, hn => by
    have hpart : ∀ c ∈ (Node.pattern (.array span items rest)).parts, M.clear u c :=
      fun c hc => hM.part h hc
    simp only [Node.parts, Node.children, Pattern.children, List.mem_append, List.mem_map,
      List.mem_filterMap, id, Option.mem_toList] at hpart
    rcases List.mem_append.1 hn with hn | hn
    · exact itemNames_shown (fun i hi => hpart _ (.inl ⟨i, ⟨_, hi, rfl⟩, rfl⟩)) name hn
    · cases rest with
      | none => cases hn
      | some p => exact names_shown (hpart _ (.inr ⟨p, rfl, rfl⟩)) name hn
  | .object span properties rest, h, name, hn => by
    have hpart : ∀ c ∈ (Node.pattern (.object span properties rest)).parts, M.clear u c :=
      fun c hc => hM.part h hc
    simp only [Node.parts, Node.children, Pattern.children, List.mem_append, List.mem_map,
      Option.mem_toList] at hpart
    rcases List.mem_append.1 hn with hn | hn
    · exact propertyNames_shown (fun p hp => hpart _ (.inl ⟨p, hp, rfl⟩)) name hn
    · cases rest with
      | none => cases hn
      | some p => exact names_shown (hpart _ (.inr ⟨p, rfl, rfl⟩)) name hn

/-- The names of array patterns that may be run are not hidden. -/
theorem itemNames_shown : ∀ {items : List (Option Script.PatternItem)},
    (∀ i, some i ∈ items → M.clear u (.ofItem i)) → ∀ name ∈ Script.itemNames items, ¬ M.hides name
  | [], _, _, hn => nomatch hn
  | none :: _, h, name, hn =>
    itemNames_shown (fun i hi => h i (List.mem_cons_of_mem _ hi)) name hn
  | some (.mk _ _) :: _, h, name, hn =>
    (List.mem_append.1 hn).elim
      (fun hn => names_shown (hM.clear_target (h _ List.mem_cons_self)) name hn)
      fun hn => itemNames_shown (fun i hi => h i (List.mem_cons_of_mem _ hi)) name hn

/-- The names of object patterns that may be run are not hidden. -/
theorem propertyNames_shown : ∀ {properties : List Script.PatternProperty},
    (∀ p ∈ properties, M.clear u (.patternProperty p)) →
    ∀ name ∈ Script.propertyNames properties, ¬ M.hides name
  | [], _, _, hn => nomatch hn
  | .short id value :: _, h, name, hn => by
    rcases List.mem_cons.1 hn with rfl | hn
    · exact hM.identifier (hM.part (h _ List.mem_cons_self) (by simp [Node.parts, Node.children]))
    · exact propertyNames_shown (fun p hp => h p (List.mem_cons_of_mem _ hp)) name hn
  | .keyed key computed (.mk target value) :: _, h, name, hn => by
    rcases List.mem_append.1 hn with hn | hn
    · have hitem : M.clear u (.ofItem (.mk target value)) :=
        hM.part (h _ List.mem_cons_self) (by simp [Node.parts, Node.children])
      exact names_shown (hM.clear_target hitem) name hn
    · exact propertyNames_shown (fun p hp => h p (List.mem_cons_of_mem _ hp)) name hn

end

/-- The names of a declarator are not hidden. -/
theorem bindingNames_shown {b : Script.Binding} (h : M.clear u (.binding b)) :
    ∀ name ∈ b.target.names, ¬ M.hides name := by
  obtain ⟨target, init⟩ := b
  exact hM.names_shown (hM.part h (by simp [Node.parts, Node.children, Script.Binding.target]))

/-- Matching references hold native values only, or both hold others. -/
theorem onlyNative_eq {r r' : Reference} (h : M.Refs r r') : r'.onlyNative = r.onlyNative := by
  have hnative : ∀ {v v' : Value}, M.value v v' → v'.isNative = v.isNative := by
    intro v v' hv
    have hkind := hM.kind hv
    cases v <;> cases v' <;> first | rfl | cases hkind
  have hall : ∀ {vs vs' : List Value}, List.Forall₂ M.value vs vs' →
      vs'.isEmpty = vs.isEmpty ∧ vs'.all Value.isNative = vs.all Value.isNative := by
    intro vs vs' h
    induction h with
    | nil => exact ⟨rfl, rfl⟩
    | cons hv _ ih => exact ⟨rfl, by rw [List.all_cons, List.all_cons, hnative hv, ih.2]⟩
  obtain ⟨hempty, hall⟩ := hall h
  unfold Reference.onlyNative Reference.isEmpty
  rw [hempty, hall]

/-- A spread argument is refused in both analyses or in neither. -/
theorem couples_refuseSpread {o o' : Operand} (inner : Expr) (ho : M.coupling.Operands w o o') :
    M.coupling.Couples u w (Evaluator.refuseSpread o inner)
      (Evaluator.refuseSpread o' (inner.emptied (M.empties u))) fun _ _ _ => True := by
  unfold Evaluator.refuseSpread
  refine (hM.couples_value ho).bind fun w₁ r r' _ hr => ?_
  rw [hM.onlyNative_eq hr, Expr.span_pruned]
  split
  · exact .pure fun _ _ => trivial
  · exact (hM.couples_unsupported ..).imp fun _ _ _ _ _ => trivial

/-- A lawful matching fulfils the laws of couplings. -/
theorem laws : M.coupling.Laws where
  value_le _ h := h
  ref_le _ h := h
  cell_le _ h := h
  frame_le _ h := h
  runs_le _ h := h
  opens_le _ h := h
  scope_le _ h := h
  binds_le _ h := h
  result_le _ h := h
  installs_le _ h := h
  value_kind := hM.kind
  value_native := hM.native
  ref_empty := refs_empty
  ref_single := refs_single
  ref_insert := hM.refs_insert
  ref_union := hM.refs_union
  ref_arrays := hM.refs_arrays
  ref_containers := hM.refs_containers
  value_primitive := hM.primitive
  value_intrinsic := hM.intrinsic
  value_builtin := hM.builtin
  cell_empty := cells_empty
  cell_set k := hM.cells_set (k := k)
  cell_wildcard h := ⟨.nil, .some h⟩
  programs v := by
    have h := hM.programs v
    revert h
    cases A.programs[v]? <;> cases B.programs[v]? <;> intro h <;> cases h
    · exact .none
    · rename_i h
      exact .some h.1
  part h hc := ⟨h.1, hM.part h.2 hc⟩
  push h hf := ⟨by rw [h.1, hf], h.2⟩
  opens_of_runs h := h
  runs_of_opens h _ hc := ⟨h.1, hM.part h.2 hc⟩
  installs_push _ h := h
  assigned h := hM.names_shown (hM.part h.2 (by simp [Node.parts, Node.children, Expr.children]))
  updated h := hM.identifier (hM.part h.2 (by simp [Node.parts, Node.children, Expr.children]))
  declared {u w span bindings st st'} h b hb := hM.bindingNames_shown
    (hM.part h.2 (by simp [Node.parts, Node.children, Stmt.children, hb]))
  declaredFirst {u w bindings st st'} h b hb := hM.bindingNames_shown
    (hM.part h.2 (by simp [Node.parts, Node.children, hb]))
  declaredEach h := hM.bindingNames_shown (hM.part h.2 (by simp [Node.parts, Node.children]))
  assignedEach site h := hM.names_shown (hM.part h.2 (by simp [Node.parts, Node.children]))
  scope_params h hf := ⟨by rw [h.1, hf], hM.params h.2⟩
  scope_body h hf _ := ⟨by rw [h.1, hf], hM.body h.2⟩
  scope_pattern _ _ _ _ _ _ := trivial
  result_function _ := trivial
  result_other _ := trivial
  failures_refl _ := rfl
  failures_within path h := congrArg (fun e : Failure => e.within path) h
  states_unit _ h := ⟨h.1, { h.2 with unit := rfl }⟩
  unit_eq h := h.2.unit
  deref h := hM.couples_deref h
  getKey k h := hM.couples_getKey k h
  setKey k hr hv := hM.couples_setKey k hr hv
  newObject h := hM.couples_newObject h
  newArray h := hM.couples_newArray h
  newFrame := hM.couples_newFrame nofun
  newFunction {u w fn st st'} h := by
    obtain ⟨rfl, h⟩ := h
    exact (hM.couples_newFunction (hM.literal h)).imp fun _ _ _ _ hv => ⟨hv, trivial⟩
  spreadInto ho hr := reads fun _ _ hc _ => ⟨_, _, rfl, rfl, hM.cells_spreadInto hc ho hr⟩
  markAccessors a _ _ _ _ _ h := hM.couples_markAccessors a h
  define {u w f f' o o'} name hf ho := by
    obtain rfl : f' = f := hf
    exact hM.couples_define f' name ho
  top h := by
    obtain ⟨rfl, -⟩ := h
    exact couples_top _
  lookup h := by
    obtain ⟨rfl, h⟩ := h
    exact hM.couples_lookup _ (hM.identifier h)
  writeName site violation h hn _ ho := by
    obtain ⟨rfl, -⟩ := h
    exact hM.couples_writeName _ site violation hn ho
  addVariable h hn ho := by
    obtain ⟨rfl, -⟩ := h
    exact hM.couples_addVariable _ hn ho
  checkGlobal site violation h := (hM.couples_checkGlobal site violation h).imp
    fun _ _ _ _ _ => trivial
  report site message := hM.couples_report site fun _ => ⟨rfl, rfl⟩
  log := couples_log
  warn := hM.couples_warn
  unsupported := hM.couples_unsupported
  checkCanceled := hM.couples_checkCanceled
  throws h := hM.couples_throws h
  enter h hn := hM.couples_template h.2 hn
  instantiate {u w n t t' st st'} h ht := by
    obtain ⟨rfl, h⟩ := h
    exact (hM.couples_instantiate _ ht).imp fun _ _ _ _ hst c hc => ⟨hst, hM.part h hc⟩
  refuseSpread inner ho := hM.couples_refuseSpread inner ho
  concat hc := hM.couples_concat hc
  flat hc := hM.couples_flat hc
  invokeAll hE hr hc := hM.couples_invokeAll hE hr hc
  readSlots site hE ho hr := hM.couples_readSlots hE site ho hr
  callSetters site hE hr ho hv := hM.couples_callSetters hE site hr ho hv
  constructAll span hE hr hc := hM.couples_constructAll hE span hr hc
  callFunction _ hv hc h := hM.couples_callFunction hv hc h
  resolver := hM.resolver
  external := hM.external

end Matching.Lawful

end FrozenGlobals
