import FrozenGlobals.Proofs.Analysis.Destructuring
import FrozenGlobals.Proofs.Discipline.Bindings
import FrozenGlobals.Proofs.Execution.Names

/-!
# Logical assignments

`t op= e` for a logical operator `op` writes what `e` evaluates to and yields just that. The target
then stands for what it stood for and what was written (`Setup.logical_assign`), as it does after
its expansion `t op (t = e)`. The expansion yields what the target stood for, too; in
`defaultedHolder` that is where the global is, and a write to it is missed.
-/

namespace FrozenGlobals

open Run Evaluator
open Script (Span Expr BinaryOp AssignOp)

/-! ## Names -/

theorem Stack.mem_of_programFrame? : ∀ {stack : Stack} {f : Nat}, programFrame? stack = some f →
    f ∈ stack
  | [_], _, h => by
    cases h
    exact List.mem_singleton_self _
  | [_, _], _, h => by
    cases h
    exact List.mem_cons_self
  | _ :: b :: c :: rest, f, h =>
    .tail _ (@mem_of_programFrame? (b :: c :: rest) _ h)

namespace Run

variable {setup : Setup} {stack : Stack} {s s' : State} {name : String}

/-- A name that was bound anew stands for what it is bound to. -/
theorem meaning_of_rebind {r : Reference} (hf : ∀ f ∈ stack, f < s.heap.frames.size)
    (h : rebind name r stack setup s = .ok () s') :
    s'.heap.meaning stack name = .known r ∧ s'.thrown = s.thrown := by
  obtain ⟨frame?, t, howner, h⟩ := ok_of_bind h
  cases howner
  have hdefine : ∀ f, f ∈ stack → (∀ f', s.heap.owner? stack name = some f' → f' = f) →
      define f name (.known r) setup s = .ok () s' →
      s'.heap.meaning stack name = .known r ∧ s'.thrown = s.thrown := by
    intro f hmem howner h
    cases h
    exact ⟨by rw [Heap.meaning, Heap.lookup?_define _ hmem howner (hf f hmem)], rfl⟩
  cases howner : s.heap.owner? stack name with
  | some f =>
    rw [howner] at h
    exact hdefine f (Heap.owner?_mem howner).1
      (fun f' hf' => Option.some.inj (hf'.symm.trans howner)) h
  | none =>
    rw [howner] at h
    cases hprogram : Stack.programFrame? stack with
    | none =>
      rw [hprogram] at h
      cases h
    | some f =>
      rw [hprogram] at h
      exact hdefine f (Stack.mem_of_programFrame? hprogram)
        (fun f' hf' => by cases howner.symm.trans hf') h

/-- A name that was written stands for what it stood for and what was written. -/
theorem meaning_of_writeName {value : Operand} {site : Site} {violation : Violation}
    (hf : ∀ f ∈ stack, f < s.heap.frames.size)
    (h : writeName name value stack site violation setup s = .ok () s') :
    s'.heap.meaning stack name =
        .known (((s.heap.meaning stack name).now s).union (value.now s)) ∧
      s'.thrown = s.thrown := by
  obtain ⟨own, t, hnotes, -, heq⟩ := writeName_eq setup name value stack site violation s
  obtain ⟨hmeaning, hthrown⟩ := meaning_of_rebind (by rwa [hnotes.heap]) (heq ▸ h)
  exact ⟨hmeaning, hthrown.trans hnotes.thrown⟩

end Run

/-! ## Members -/

namespace Setup

variable {setup : Setup} {stack : Stack} {s t t' s' : State} {n : Nat} {target value : Expr}
  {o : Operand}

/-- A write of a value to a member: the object keeps what it held, and what can be written to holds
the value under the key. The `length` of an array cannot be written. -/
structure WritesMember (object : Operand) (key : Key) (o : Operand) (s s' : State) : Prop where
  keeps : s.Keeps s'
  written : ∀ {w v}, w ∈ object.now s' → (s'.heap.contents w).isSome →
    ((∃ id, w = .array id) → key ≠ .name "length") → v ∈ o.now s' → v ∈ s'.heap.getKeyOf key w

/-- What was held by an object is held by it afterwards. -/
theorem WritesMember.mem_getKey {object : Operand} {key : Key} (h : WritesMember object key o t s')
    (ht : s.Keeps t) {v : Value} (hv : v ∈ s.heap.getKey (object.now t) key) :
    v ∈ s'.heap.getKey (object.now s') key := by
  obtain ⟨w, hw, hv⟩ := Heap.mem_getKey.1 hv
  exact Heap.mem_getKey.2 ⟨w, h.keeps.now hw, (ht.trans h.keeps).heap.reads hv⟩

theorem writesMember_setKey (s : State) (object : Operand) (key : Key) (o : Operand) :
    WritesMember object key o s
      { s with heap := s.heap.setKey (object.now s) key (o.now s) } where
  keeps := ⟨Heap.keeps_setKey .., fun _ => id⟩
  written {w v} hw hc hk hv := by
    have hw : w ∈ object.now s := by cases object <;> exact hw
    have hv : v ∈ o.now s := by cases o <;> exact hv
    obtain ⟨c', hc'⟩ := Option.isSome_iff_exists.1 hc
    rw [Heap.getKeyOf_of_contents hc']
    rw [Heap.contents_setKey, if_pos hw] at hc'
    obtain ⟨c, hc, rfl⟩ := Option.map_eq_some_iff.1 hc'
    refine Contents.mem_get_of_written (fun a ha => hk ?_) hv
    subst ha
    cases w with
    | array id => exact ⟨id, rfl⟩
    | _ => simp [Heap.contents] at hc

theorem WritesMember.of_keeps {object : Operand} {key : Key} (h : WritesMember object key o t s')
    (ht : s.Keeps t) : WritesMember object key o s s' := ⟨ht.trans h.keeps, h.written⟩

/-- An assignment to a member evaluates the member, checks it, calls its setters and writes. -/
theorem writesMember_of_assignTo (htarget : Execution.isMember target) {site : Site}
    (h : (ofFuel n).assignTo target o site stack setup s = .ok () s') :
    ∃ object key t, (ofFuel n).memberTarget target stack setup s = .ok (object, key) t ∧
      s.Keeps t ∧ WritesMember object key o t s' := by
  have hE := Evaluator.agrees_keeping setup n
  have hwrite : ∀ {object : Operand} {key : Key} {t : State},
      (do
        let slot ← getKey (← deref object) key
        let _ ← checkGlobal slot site .assign
        let _ ← checkGlobal (← deref object) site .assignProperty
        (ofFuel n).callSetters slot object o site
        setKey (← deref object) key (← deref o)) setup t = .ok () s' →
      WritesMember object key o t s' := by
    intro object key t h
    rw [bind_of_ok (deref_eq setup object t)] at h
    obtain ⟨slot, u, hslot, h⟩ := ok_of_bind h
    cases hslot
    obtain ⟨_, u₁, hassign, h⟩ := ok_of_bind h
    rw [bind_of_ok (deref_eq setup object u₁)] at h
    obtain ⟨_, u₂, hproperty, h⟩ := ok_of_bind h
    obtain ⟨_, u₃, hsetters, h⟩ := ok_of_bind h
    rw [bind_of_ok (deref_eq setup object u₃), bind_of_ok (deref_eq setup o u₃)] at h
    cases h
    refine (writesMember_setKey u₃ object key o).of_keeps ?_
    have hchecks := (State.Keeps.of_ok hassign fun _ => .checkGlobal _ _ trivial).trans
      (State.Keeps.of_ok hproperty fun _ => .checkGlobal _ _ trivial)
    exact hchecks.trans (State.Keeps.of_ok hsetters fun _ =>
      hE.callSetters (fun _ => trivial) _ object o site)
  cases target with
  | dot span e name =>
    obtain ⟨⟨object, key⟩, t, hmember, h⟩ := ok_of_bind h
    exact ⟨object, key, t, hmember,
      .of_ok hmember fun _ => hE.memberDot trivial trivial, hwrite h⟩
  | bracket span e key =>
    obtain ⟨⟨object, key⟩, t, hmember, h⟩ := ok_of_bind h
    exact ⟨object, key, t, hmember,
      .of_ok hmember fun _ => hE.memberBracket trivial trivial trivial, hwrite h⟩
  | _ => cases htarget

/-! ## Assignments -/

/-- A logical assignment evaluates its value, writes it, and yields it. -/
theorem assignTo_of_logical {op : BinaryOp} (hop : op.isLogical) {span : Span}
    (h : (ofFuel (n + 2)).resolve (.assign span (.combined op) (.leaf target) value) stack setup s =
      .ok o s') :
    ∃ t, (ofFuel (n + 1)).resolve value stack setup s = .ok o t ∧ s.Keeps t ∧
      (ofFuel n).assignTo target o ⟨.assign, span⟩ stack setup t = .ok () s' := by
  obtain ⟨right, t, hvalue, h⟩ := ok_of_bind h
  obtain ⟨_, u, hbind, h⟩ := ok_of_bind h
  simp only [hop, if_true] at hbind h
  cases h
  exact ⟨t, hvalue, .of_ok hvalue fun _ =>
    (Evaluator.agrees_keeping setup (n + 1)).resolve trivial trivial, hbind⟩

/-- The expansion of a logical assignment to a name does what the assignment does. It yields what
the name stood for, too. -/
theorem resolve_expansion {op : BinaryOp} (hop : op.isLogical) {span span' : Span}
    {x : Script.Identifier}
    (h : (ofFuel (n + 2)).resolve (.assign span (.combined op) (.leaf (.identifier x)) value) stack
      setup s = .ok o s') :
    (ofFuel (n + 3)).resolve (.binary span' op (.identifier x)
        (.assign span .plain (.leaf (.identifier x)) value)) stack setup s =
      .ok (.known (((s.heap.meaning stack x.name).now s').union (o.now s'))) s' := by
  obtain ⟨t, hvalue, -, hassign⟩ := assignTo_of_logical hop h
  have hright : (ofFuel (n + 2)).resolve (.assign span .plain (.leaf (.identifier x)) value) stack
      setup s = .ok o s' := by
    refine (bind_of_ok hvalue).trans ?_
    exact bind_of_ok (x := (ofFuel (n + 1)).bind (.assign ⟨.assign, span⟩) _ o stack) hassign
  have hleft : (ofFuel (n + 2)).resolve (.identifier x) stack setup s =
      .ok (s.heap.meaning stack x.name) s := lookup_eq ..
  refine (bind_of_ok hleft).trans ((bind_of_ok hright).trans ?_)
  rw [bind_of_ok (deref_eq ..), bind_of_ok (deref_eq ..)]
  simp only [binaryResult, hop, if_true]
  rfl

/-- A logical assignment `t op= e` yields what `e` evaluates to, at the state it leads to. A name
`t` stands for that and what it stood for when it was written; the expansion `t op (t = e)` ends in
the same state, and yields what the name stood for, too. For a member `t`, everything that can be
written to holds what it held before and what `e` evaluates to, and without accessors that is what a
read gives. -/
theorem logical_assign {op : BinaryOp} (hop : op.isLogical) {span : Span}
    (h : (ofFuel n).resolve (.assign span (.combined op) (.leaf target) value) stack setup s =
      .ok o s') :
    ∃ m t, (ofFuel m).resolve value stack setup s = .ok o t ∧ (∀ v ∈ o.now t, v ∈ o.now s') ∧
      (∀ x, target = .identifier x →
        ((∀ f ∈ stack, f < s.heap.frames.size) → s'.heap.meaning stack x.name =
          .known (((t.heap.meaning stack x.name).now t).union (o.now s'))) ∧
        ∀ span', (ofFuel (n + 1)).resolve (.binary span' op target
            (.assign span .plain (.leaf target) value)) stack setup s =
          .ok (.known (((s.heap.meaning stack x.name).now s').union (o.now s'))) s') ∧
      (Execution.isMember target → ∃ k object key t',
        (ofFuel k).memberTarget target stack setup t = .ok (object, key) t' ∧
        WritesMember object key o t' s' ∧
        (∀ v ∈ s.heap.getKey (object.now t') key, v ∈ s'.heap.getKey (object.now s') key) ∧
        ∀ site, let slot := s'.heap.getKey (object.now s') key
          (∀ v ∈ slot, s'.heap.accessor? v = none) →
          (ofFuel k).readMember object key site setup s' = .ok (.known slot) s') := by
  match n, h with
  | 0, h => cases h
  | 1, h =>
    obtain ⟨_, _, hvalue, -⟩ := ok_of_bind h
    cases hvalue
  | n + 2, h =>
    obtain ⟨t, hvalue, hkeeps, hassign⟩ := assignTo_of_logical hop h
    have hright : ∀ v ∈ o.now t, v ∈ o.now s' := fun v hv =>
      State.Keeps.now (.of_ok hassign fun _ =>
      Evaluator.Agrees.assignTo trivial (Evaluator.agrees_keeping setup n)
        (fun _ _ _ => trivial) (fun _ => trivial) o trivial) hv
    refine ⟨n + 1, t, hvalue, hright, ?_, fun htarget => ?_⟩
    · rintro x rfl
      refine ⟨fun hframes => ?_, fun _ => resolve_expansion hop h⟩
      have hframes' : ∀ f ∈ stack, f < t.heap.frames.size := fun f hf =>
        Nat.lt_of_lt_of_le (hframes f hf) hkeeps.heap.frames
      obtain ⟨hmeaning, hthrown⟩ := meaning_of_writeName hframes' hassign
      have hnow : o.now s' = o.now t := by
        cases o with
        | known r => rfl
        | thrown => exact hthrown
      rw [hnow]
      exact hmeaning
    · obtain ⟨object, key, t', hmember, hevaluated, hwrites⟩ :=
        writesMember_of_assignTo htarget hassign
      refine ⟨n, object, key, t', hmember, hwrites,
        fun v hv => hwrites.mem_getKey (hkeeps.trans hevaluated) hv, ?_⟩
      intro site slot hplain
      exact readMember_of_plain hplain

end Setup

/-- The program `let l = {x: g};`, behind which comes an assignment to `.x.p` of an expression. The
global `g` is an empty object. -/
def defaultedHolder (e : Expr) : Setup where
  options := Options.standard
  programs := #[.ofProgram ⟨"script", "let l = \x7bx: g\x7d; (l ||= \x7b\x7d).x.p = 1;",
    [.declareLexical ⟨0, 15⟩ [.mk (.leaf (.identifier ⟨"l", ⟨4, 5⟩⟩)) (some (.object ⟨8, 14⟩
      [.keyed (.string ⟨9, 10⟩ "x") false .value (.identifier ⟨"g", ⟨12, 13⟩⟩)]))],
      .expression (.assign ⟨17, 34⟩ .plain
        (.leaf (.dot ⟨17, 30⟩ (.dot ⟨17, 28⟩ e "x") "p")) (.number ⟨33, 34⟩ (some (.ofNat 1))))]⟩]
  graph := emptyGlobal
  resolver := none
  canceled := false

/-- The assignments `g ||= {}` and `g.p ||= {}` end, and report a write to the global. -/
theorem logical_assign_global :
    let name : Expr := .identifier ⟨"g", ⟨0, 1⟩⟩
    let fresh : Expr := .object ⟨8, 10⟩ []
    let setup := defaultedHolder name
    let s := setup.stateAfter (newGlobals (.container 0)) .start
    (∃ o s', ∃ t : State,
      (ofFuel 8).resolve (.assign ⟨0, 10⟩ (.combined .or) (.leaf name) fresh) [0]
        setup s = .ok o s' ∧ s'.diagnostics.toList.map (·.span) = [⟨0, 10⟩] ∧
      s'.heap.meaning [0] "g" = .known (((t.heap.meaning [0] "g").now t).union (o.now s'))) ∧
    ∃ o s' object t', (ofFuel 8).resolve (.assign ⟨0, 10⟩ (.combined .or)
        (.leaf (.dot ⟨0, 3⟩ name "p")) fresh) [0] setup s = .ok o s' ∧
      s'.diagnostics.toList.map (·.span) = [⟨0, 10⟩] ∧
      Setup.WritesMember object (.name "p") o t' s' := by
  intro name fresh setup s
  constructor
  · obtain ⟨o, s', h, hspans⟩ := setup.exists_of_recorded s ((ofFuel 8).resolve
      (.assign ⟨0, 10⟩ (.combined .or) (.leaf name) fresh) [0]) [⟨0, 10⟩] (by decide +kernel)
    obtain ⟨-, t, -, -, hname, -⟩ := Setup.logical_assign rfl h
    exact ⟨o, s', t, h, hspans, (hname _ rfl).1 (by decide +kernel)⟩
  · obtain ⟨o, s', h, hspans⟩ := setup.exists_of_recorded s ((ofFuel 8).resolve
      (.assign ⟨0, 10⟩ (.combined .or) (.leaf (.dot ⟨0, 3⟩ name "p")) fresh) [0]) [⟨0, 10⟩]
      (by decide +kernel)
    obtain ⟨-, t, -, -, -, hmember⟩ := Setup.logical_assign rfl h
    obtain ⟨k, object, key, t', htarget, hwrites, -⟩ := hmember rfl
    have hkey : key = .name "p" := by
      obtain ⟨_, _, _, hend⟩ := ok_of_bind htarget
      cases hend
      rfl
    exact ⟨o, s', object, t', h, hspans, hkey ▸ hwrites⟩

/-- The object is one of the possibilities of `l`, but not of the assignment `l ||= {}`. Behind its
expansion `l || (l = {})` the write to the global is reported, and behind the assignment it is
missed. -/
theorem defaultedHolder_unreported :
    ((defaultedHolder (.binary ⟨17, 25⟩ .or (.identifier ⟨"l", ⟨17, 18⟩⟩) (.assign ⟨17, 25⟩ .plain
      (.leaf (.identifier ⟨"l", ⟨17, 18⟩⟩)) (.object ⟨23, 25⟩ [])))).analyze
        (.container 0)).1.toOption =
      some ⟨[⟨"Cannot assign to property of global value g", ⟨17, 34⟩, "g"⟩], []⟩ ∧
    ((defaultedHolder (.assign ⟨17, 25⟩ (.combined .or) (.leaf (.identifier ⟨"l", ⟨17, 18⟩⟩))
      (.object ⟨23, 25⟩ []))).analyze (.container 0)).1.toOption = some ⟨[], []⟩ := by
  decide +kernel

end FrozenGlobals
