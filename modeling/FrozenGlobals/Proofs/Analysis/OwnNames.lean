import FrozenGlobals.Proofs.Coupling.Order
import FrozenGlobals.Proofs.Discipline.Bindings
import FrozenGlobals.Proofs.Execution.Names

/-!
# Functions and their own names

A call of a function other than an arrow binds the name of the function in the frame of its
parameters, in front of the block that declares it. `Setup.own_name` says that the name stands for
that binding as long as the body runs: what the block binds the name to is neither read nor written
under it. For a declaration that is one binding too many: `rebound` declares a function, assigns
something else to its name and calls it, and the body still finds the function itself.
-/

namespace FrozenGlobals

open Run Evaluator
open Script (Span Expr Binding Params Identifier)

/-- Parameters that are names without defaults. -/
def Script.Params.Simple (p : Params) : Prop :=
  (∀ b ∈ p.items, ∃ id, b = .mk (.leaf (.identifier id)) none) ∧
    ∀ rest ∈ p.rest, ∃ id, rest = .leaf (.identifier id)

section
variable {setup : Setup} {E : Evaluator} {s t : State} {stack : Stack} {frame : Nat} {name : String}

/-- Binding other names leaves a name as it is. -/
theorem Heap.find?_define_of_ne {h : Heap} {other : String} (hne : name ≠ other) (o : Operand) :
    ((h.define frame other o).frame frame).find? name = (h.frame frame).find? name := by
  rw [frame_define]
  split
  · rw [Frame.find?_define, if_neg hne]
  · rfl

/-- Names that are no parameters are left alone where simple parameters are bound. -/
theorem Evaluator.find?_of_bindItems {items : List Binding} {args left : List Operand}
    (hsimple : ∀ b ∈ items, ∃ id, b = .mk (.leaf (.identifier id)) none)
    (hname : name ∉ Binding.names items)
    (h : E.bindItems frame stack items args setup s = .ok left t) :
    (t.heap.frame frame).find? name = (s.heap.frame frame).find? name := by
  induction items generalizing args s with
  | nil =>
    cases h
    rfl
  | cons b items ih =>
    obtain ⟨id, rfl⟩ := hsimple b List.mem_cons_self
    have hnames : name ≠ id.name ∧ name ∉ Binding.names items := by
      simpa [Binding.names, Script.Pattern.names, Binding.target] using hname
    have hrest : E.bindItems frame stack items (args.drop 1) setup
        { s with heap := s.heap.define frame id.name (args.head?.getD (.known .undefined)) } =
        .ok left t := h
    rw [ih (fun b hb => hsimple b (.tail _ hb)) hnames.2 hrest]
    exact Heap.find?_define_of_ne hnames.1 _

/-- Arguments are collected in a new array, and frames are left alone. -/
theorem Evaluator.ok_of_arrayOf {α : Type} {args : List Operand} {f : Reference → Run α} {a : α}
    (h : (do f (← arrayOf (← derefAll args))) setup s = .ok a t) :
    ∃ r heap, heap.frames = s.heap.frames ∧ f r setup { s with heap } = .ok a t := by
  rw [bind_of_ok (show derefAll args setup s = _ from bind_of_ok (mapM_deref args s))] at h
  exact ⟨_, (s.heap.addArray _).2, rfl, h⟩

theorem Evaluator.find?_of_bindParamsIn {params : Params} {args : List Operand} {stack' : Stack}
    (hsimple : params.Simple) (hname : name ∉ params.names)
    (h : E.bindParamsIn frame stack params args setup s = .ok stack' t) :
    (t.heap.frame frame).find? name = (s.heap.frame frame).find? name := by
  obtain ⟨hitems, hrest⟩ := hsimple
  rw [Params.names, List.mem_append, not_or] at hname
  obtain ⟨left, u, hbound, h⟩ := ok_of_bind h
  rw [← find?_of_bindItems hitems hname.1 hbound]
  cases hr : params.rest with
  | none =>
    rw [hr] at h
    cases h
    rfl
  | some rest =>
    obtain ⟨id, rfl⟩ := hrest rest hr
    have hne : name ≠ id.name := by
      simpa [hr, Script.restNames, Script.Pattern.names] using hname.2
    rw [hr] at h
    obtain ⟨_, heap, hframes, h⟩ := ok_of_arrayOf h
    cases h
    refine (Heap.find?_define_of_ne (h := heap) hne _).trans ?_
    rw [Heap.frame, hframes]
    rfl

end

namespace Setup

variable {setup : Setup} {s t : State} {n : Nat} {self : Value} {fn : Closure} {code : Code}
  {args : List Operand} {stack : Stack}

/-- A call of a function binds its name to the function, and then it binds `arguments` and the
parameters. -/
theorem ok_of_bindParams (hname : fn.name ≠ "") (harrow : code.literal.isArrow = false)
    (h : (ofFuel n).bindParams self fn code args setup s = .ok stack t) :
    ∃ r, ∃ heap : Heap, heap.frames =
        (((s.heap.addFrame .empty).2.define s.heap.frames.size fn.name
          (.known (.single self))).frames) ∧
      (ofFuel n).bindParamsIn s.heap.frames.size (s.heap.frames.size :: fn.scope)
        code.literal.params
        args setup { s with heap := heap.define s.heap.frames.size "arguments" (.known r) } =
          .ok stack t := by
  have hempty : fn.name.isEmpty = false := by simpa [String.isEmpty_iff] using hname
  obtain ⟨frame, u, hframe, h⟩ := ok_of_bind h
  cases hframe
  simp only [harrow, hempty] at h
  obtain ⟨_, u, hdefine, h⟩ := ok_of_bind h
  cases hdefine
  obtain ⟨r, heap, hframes, h⟩ := ok_of_arrayOf h
  exact ⟨r, heap, hframes, h⟩

/-- The name of a function is bound in a new frame on top of the frames that it sees. If the
parameters are simple, it is bound to the function itself unless a parameter has the name, and
nothing else is bound but `arguments` and the parameters. -/
theorem bound_of_bindParams (hname : fn.name ≠ "") (harrow : code.literal.isArrow = false)
    (h : (ofFuel n).bindParams self fn code args setup s = .ok stack t) :
    stack = s.heap.frames.size :: fn.scope ∧
    ((t.heap.frame s.heap.frames.size).find? fn.name).isSome ∧
    (code.literal.params.Simple → ∀ x, x ≠ "arguments" → x ∉ code.literal.params.names →
      (t.heap.frame s.heap.frames.size).find? x =
        if x = fn.name then some (.known (.single self)) else none) := by
  obtain ⟨r, heap, hframes, h⟩ := ok_of_bindParams hname harrow h
  have hframe : ∀ x, (heap.frame s.heap.frames.size).find? x =
      if x = fn.name then some (.known (.single self)) else none := by
    intro x
    rw [Heap.frame, hframes]
    show (((s.heap.addFrame .empty).2.define _ fn.name _).frame _).find? _ = _
    rw [Heap.frame_define, if_pos ⟨rfl, by simp [Heap.addFrame]⟩, Frame.find?_define,
      Heap.frame_addFrame, if_pos rfl]
    rfl
  obtain ⟨hkeeps, rfl⟩ := State.Keeps.of_ok_and h fun _ =>
    (agrees_keeping setup n).bindParamsIn trivial (fun _ _ _ _ => trivial) _ args
  have hbound : ((heap.frame s.heap.frames.size).find? fn.name).isSome := by
    rw [hframe, if_pos rfl]
    rfl
  refine ⟨rfl, hkeeps.heap.bound ((Heap.keeps_define ..).bound hbound),
    fun hsimple x harguments hfree => ?_⟩
  rw [find?_of_bindParamsIn hsimple hfree h, Heap.find?_define_of_ne harguments]
  exact hframe x

/-- A write to a name that a frame owns changes that frame only. -/
theorem frame_of_writeName {name : String} {value : Operand} {site : Site} {violation : Violation}
    {frame : Nat} {o : Operand} (howner : s.heap.owner? stack name = some frame)
    (ho : (s.heap.frame frame).find? name = some o)
    (h : writeName name value stack site violation setup s = .ok () t) :
    (∀ f, f ≠ frame → t.heap.frame f = s.heap.frame f) ∧
      (t.heap.frame frame).find? name = some (.known ((o.now s).union (value.now s))) := by
  obtain ⟨own, u, hnotes, -, heq⟩ := writeName_eq setup name value stack site violation s
  rw [heq] at h
  obtain ⟨_, u', hframe, h⟩ := ok_of_bind h
  cases hframe
  rw [hnotes.heap, howner] at h
  cases h
  have hmeaning : s.heap.meaning stack name = o := by
    rw [Heap.meaning, Heap.lookup?_of_owner? howner, ho]
  have hlt : frame < s.heap.frames.size := by
    by_contra hge
    rw [Heap.frame, Array.getElem?_eq_none (by omega)] at ho
    cases ho
  constructor
  · intro f hf
    rw [Heap.frame_define, if_neg fun hand => hf hand.1, hnotes.heap]
  · rw [Heap.frame_define, if_pos ⟨rfl, hnotes.heap ▸ hlt⟩, Frame.find?_define, if_pos rfl,
      hmeaning]

/-- While a function that is no arrow is called, its own name is bound in the frame of the call, at
first to the function itself. As long as no frame further inside binds it, the name stands for that
binding, and writes to the name leave all other frames alone, among them those that the function
sees. All other names but `arguments` and the parameters stand for what they stand for there. -/
theorem own_name (hname : fn.name ≠ "") (harrow : code.literal.isArrow = false)
    (h : (ofFuel n).bindParams self fn code args setup s = .ok stack t) :
    let frame := s.heap.frames.size
    stack = frame :: fn.scope ∧
    (code.literal.params.Simple → ∀ x, x ≠ "arguments" → x ∉ code.literal.params.names →
      t.heap.meaning stack x =
        if x = fn.name then .known (.single self) else t.heap.meaning fn.scope x) ∧
    ∀ {u inner}, t.Keeps u → (∀ f ∈ inner, (u.heap.frame f).find? fn.name = none) →
      ∃ o, (u.heap.frame frame).find? fn.name = some o ∧
        (∀ m span, (ofFuel (m + 1)).resolve (.identifier ⟨fn.name, span⟩) (inner ++ stack) setup u =
          .ok o u) ∧
        ∀ {value site violation u'},
          writeName fn.name value (inner ++ stack) site violation setup u = .ok () u' →
          (∀ f, f ≠ frame → u'.heap.frame f = u.heap.frame f) ∧
          (u'.heap.frame frame).find? fn.name = some (.known ((o.now u).union (value.now u))) := by
  obtain ⟨rfl, hbound, hnames⟩ := bound_of_bindParams hname harrow h
  refine ⟨rfl, fun hsimple x harguments hfree => ?_, fun {u inner} hkeeps hinner => ?_⟩
  · have hx := hnames hsimple x harguments hfree
    by_cases hown : x = fn.name
    · rw [if_pos hown] at hx ⊢
      rw [Heap.meaning, Heap.lookup?, List.findSome?_cons, hx]
    · rw [if_neg hown] at hx ⊢
      rw [Heap.meaning, Heap.lookup?, List.findSome?_cons, hx]
      rfl
  · obtain ⟨o, ho⟩ := Option.isSome_iff_exists.1 (hkeeps.heap.bound hbound)
    have howner : u.heap.owner? (inner ++ s.heap.frames.size :: fn.scope) fn.name =
        some s.heap.frames.size := by
      rw [Heap.owner?_append hinner]
      exact Heap.owner?_cons_of_isSome (ho ▸ rfl) _
    have hmeaning : u.heap.meaning (inner ++ s.heap.frames.size :: fn.scope) fn.name = o := by
      rw [Heap.meaning, Heap.lookup?_of_owner? howner, ho]
    exact ⟨o, ho, fun m span => hmeaning ▸ lookup_eq .., fun hwrite =>
      frame_of_writeName howner ho hwrite⟩

end Setup

/-- The program `function name() { f.x = 1; } const old = name; f = g; old();`. The global `g` is an
empty object. -/
def rebound (name : String) : Setup where
  options := Options.standard
  programs := #[.ofProgram ⟨"script",
    "function " ++ name ++ "() \x7b f.x = 1; \x7d const old = " ++ name ++ "; f = g; old();",
    [.declareFunction (.mk ⟨0, 25⟩ false (some ⟨name, ⟨9, 10⟩⟩) (.mk ⟨10, 12⟩ [] none)
        (.block (.mk ⟨13, 25⟩ [.expression (.assign ⟨15, 22⟩ .plain
          (.leaf (.dot ⟨15, 18⟩ (.identifier ⟨"f", ⟨15, 16⟩⟩) "x"))
            (.number ⟨21, 22⟩ (some (.ofNat 1))))]))),
      .declareLexical ⟨26, 40⟩ [.mk (.leaf (.identifier ⟨"old", ⟨32, 35⟩⟩))
        (some (.identifier ⟨name, ⟨38, 39⟩⟩))],
      .expression (.assign ⟨41, 46⟩ .plain (.leaf (.identifier ⟨"f", ⟨41, 42⟩⟩))
        (.identifier ⟨"g", ⟨45, 46⟩⟩)),
      .expression (.call ⟨48, 53⟩ (.identifier ⟨"old", ⟨48, 51⟩⟩) [])]⟩]
  graph := emptyGlobal
  resolver := none
  canceled := false

/-- The function `function f() {}` is called without arguments. -/
theorem own_name_called :
    let fn : Script.Function := .mk ⟨0, 15⟩ false (some ⟨"f", ⟨9, 10⟩⟩) (.mk ⟨10, 12⟩ [] none)
      (.block (.mk ⟨13, 15⟩ []))
    let setup := rebound "f"
    let s := setup.stateAfter (newGlobals (.container 0)) .start
    ∃ stack t, (ofFuel 1).bindParams (.function 0) ⟨"f", some ⟨0, fn⟩, [0], none⟩ ⟨0, fn⟩
      [] setup s =
        .ok stack t ∧ stack = [1, 0] ∧ fn.params.Simple ∧
      t.heap.meaning stack "f" = .known (.single (.function 0)) ∧
      t.heap.meaning stack "g" = t.heap.meaning [0] "g" := by
  intro fn setup s
  obtain ⟨stack, t, h, -⟩ := setup.exists_of_recorded s ((ofFuel 1).bindParams (.function 0)
    ⟨"f", some ⟨0, fn⟩, [0], none⟩ ⟨0, fn⟩ []) [] (by decide +kernel)
  obtain ⟨hstack, hnames, -⟩ := Setup.own_name (by decide) rfl h
  have hsimple : fn.params.Simple := ⟨nofun, nofun⟩
  refine ⟨stack, t, h, hstack.trans (by decide +kernel), hsimple, ?_, ?_⟩
  · rw [hnames hsimple "f" (by decide) nofun]
    rfl
  · rw [hnames hsimple "g" (by decide) nofun]
    rfl

/-- When the function is called, `f` is the global. If the function has another name, the write to
it is reported; under the name `f` it finds itself, and the write is missed. -/
theorem rebound_unreported :
    ((rebound "h").analyze (.container 0)).1.toOption =
        some ⟨[⟨"Cannot assign to property of global value g", ⟨15, 22⟩, "g"⟩], []⟩ ∧
    ((rebound "f").analyze (.container 0)).1.toOption = some ⟨[], []⟩ := by
  decide +kernel

end FrozenGlobals
