import FrozenGlobals.Proofs.Analysis.OwnNames

/-!
# Spread arguments

A spread and all arguments behind it fold into one reference, the tail, which is passed in four
positions: `Setup.arguments_of_spread`. So a parameter at the position of the spread or at one of
the next three may be everything that is spread or written behind it, and so may the elements of
`arguments` and of the rest parameter (`Setup.spread_reaches`). Parameters further back get nothing:
`spreadCall` writes to a global that the fourth parameter finds and the fifth one misses.
-/

namespace FrozenGlobals

open Run Evaluator
open Script (Expr Binding Identifier Params)

/-- A name that the innermost frame binds is found there. -/
theorem Heap.lookup?_cons_of_some {h : Heap} {f : Nat} {name : String} {o : Operand}
    (ho : (h.frame f).find? name = some o) (stack : Stack) :
    h.lookup? (f :: stack) name = some o := by
  rw [lookup?, List.findSome?_cons, ho]

/-! ## What is passed -/

/-- An expression with dots in front of it. -/
def Script.Expr.IsSpread (e : Expr) : Prop := ∃ inner, e = .spread inner

namespace Setup

/-- Arguments are evaluated one after another, and each passes what it may be at that moment. A
spread passes the elements of what is spread, and it may be noted that spreads are not modelled. -/
inductive Passes (setup : Setup) (E : Evaluator) (stack : Stack) :
    List Expr → State → List Reference → State → Prop
  | nil {s : State} : Passes setup E stack [] s [] s
  | plain {e : Expr} {es : List Expr} {o : Operand} {rs : List Reference} {s t s' : State} :
      ¬e.IsSpread → E.resolve e stack setup s = .ok o t → Passes setup E stack es t rs s' →
      Passes setup E stack (e :: es) s (o.now t :: rs) s'
  | spread {inner : Expr} {es : List Expr} {o : Operand} {rs : List Reference} {s t u s' : State} :
      E.resolve inner stack setup s = .ok o t → t.Noted u → Passes setup E stack es u rs s' →
      Passes setup E stack (.spread inner :: es) s (t.heap.getKey (o.now t) .any :: rs) s'

variable {setup : Setup} {E : Evaluator} {callee : Operand} {stack : Stack} {s s' : State}
  {ops : List Operand}

/-- A spread that is passed over is noted. -/
theorem noted_of_refuseSpread {inner : Expr} (h : refuseSpread callee inner setup s = .ok () s') :
    s.Noted s' := by
  unfold refuseSpread at h
  rw [bind_of_ok (deref_eq setup callee s)] at h
  split at h
  · cases h
    rfl
  · unfold unsupported at h
    rw [read_bind] at h
    split at h
    · cases h
    · obtain ⟨entries, heq⟩ := warn_eq setup
        (Unsupported.message ⟨.spreadArgument, .spread, inner.span⟩) s
      rw [heq] at h
      cases h
      rfl

/-- A spread adds the elements of what is spread to the tail. -/
theorem ok_of_spread {inner : Expr} {rest : List Expr} {tail : Option Reference}
    (h : E.arguments callee stack (.spread inner :: rest) tail setup s = .ok ops s') :
    ∃ o t u, E.resolve inner stack setup s = .ok o t ∧ t.Noted u ∧
      E.arguments callee stack rest
        (some ((tail.getD .empty).union (t.heap.getKey (o.now t) .any))) setup u = .ok ops s' := by
  rw [Evaluator.Couples.arguments_spread] at h
  obtain ⟨o, t, hsource, h⟩ := ok_of_bind h
  obtain ⟨_, u, hrefuse, h⟩ := ok_of_bind h
  have hnoted := noted_of_refuseSpread hrefuse
  rw [bind_of_ok (deref_eq setup o u)] at h
  obtain ⟨items, u', hitems, h⟩ := ok_of_bind h
  cases hitems
  have hitems : u.heap.getKey (o.now u) .any = t.heap.getKey (o.now t) .any := by
    rw [State.Noted] at hnoted
    rw [hnoted]
    cases o <;> rfl
  exact ⟨o, t, u, hsource, hnoted, hitems ▸ h⟩

/-- Behind a spread everything is added to the tail, which fills four positions in the end. -/
theorem arguments_of_tail {es : List Expr} {tail : Reference}
    (h : E.arguments callee stack es (some tail) setup s = .ok ops s') :
    ∃ rs tail', setup.Passes E stack es s rs s' ∧ ops = List.replicate spreadSlots (.known tail') ∧
      ∀ x, x ∈ tail' ↔ x ∈ tail ∨ ∃ r ∈ rs, x ∈ r := by
  induction es generalizing tail s with
  | nil =>
    cases h
    exact ⟨[], tail, .nil, rfl, by simp⟩
  | cons e es ih =>
    by_cases hspread : e.IsSpread
    · obtain ⟨inner, rfl⟩ := hspread
      obtain ⟨o, t, u, hsource, hnoted, h⟩ := ok_of_spread h
      obtain ⟨rs, tail', hrest, rfl, hmem⟩ := ih h
      exact ⟨_, tail', .spread hsource hnoted hrest, rfl, by simp [hmem, or_assoc]⟩
    · rw [Evaluator.arguments] at h
      · obtain ⟨arg, t, hvalue, h⟩ := ok_of_bind h
        obtain ⟨o, t', he, hderef⟩ := ok_of_bind hvalue
        rw [deref_eq] at hderef
        cases hderef
        obtain ⟨rs, tail', hrest, rfl, hmem⟩ := ih h
        exact ⟨_, tail', .plain hspread he hrest, rfl, by simp [hmem, or_assoc]⟩
      · exact fun inner heq => hspread ⟨inner, heq⟩

/-- The arguments before the first spread are passed as they are. The spread and those behind it
fold into one reference that is passed in four positions. -/
theorem arguments_of_spread {pre rest : List Expr} {inner : Expr} (hpre : ∀ e ∈ pre, ¬e.IsSpread)
    (h : E.arguments callee stack (pre ++ .spread inner :: rest) none setup s = .ok ops s') :
    ∃ t rs heads rs' tail, setup.Passes E stack pre s rs t ∧ heads.length = pre.length ∧
      setup.Passes E stack (.spread inner :: rest) t rs' s' ∧
      ops = heads ++ List.replicate spreadSlots (.known tail) ∧
      ∀ x, x ∈ tail ↔ ∃ r ∈ rs', x ∈ r := by
  induction pre generalizing s ops with
  | nil =>
    obtain ⟨o, t, u, hsource, hnoted, h⟩ := ok_of_spread h
    obtain ⟨rs, tail, hrest, rfl, hmem⟩ := arguments_of_tail h
    exact ⟨s, [], [], _, tail, .nil, rfl, .spread hsource hnoted hrest, rfl, by simp [hmem]⟩
  | cons e pre ih =>
    have he : ¬e.IsSpread := hpre e List.mem_cons_self
    rw [List.cons_append, Evaluator.arguments] at h
    · obtain ⟨o, t, hresolve, h⟩ := ok_of_bind h
      obtain ⟨left, u, hleft, h⟩ := ok_of_bind h
      cases h
      obtain ⟨t', rs, heads, rs', tail, hpasses, hlength, hfold, rfl, hmem⟩ :=
        ih (fun e he => hpre e (.tail _ he)) hleft
      exact ⟨t', _, o :: heads, rs', tail, .plain he hresolve hpasses,
        by simp [hlength], hfold, rfl,
        hmem⟩
    · exact fun inner heq => he ⟨inner, heq⟩

end Setup

/-! ## What parameters take -/

namespace Evaluator

/-- What a parameter takes: what is passed, or what its default gives as well. -/
def taken (E : Evaluator) (init : Option Expr) (passed : Operand) (stack : Stack) :
    Run Operand := do
  match init with
  | none => return passed
  | some init =>
      let fallback ← E.resolve init stack
      return .known ((← deref passed).union (← deref fallback))

/-- Parameters are bound one after another. Each takes a value, in some state, and is bound to it
there. -/
inductive Binds (E : Evaluator) (setup : Setup) (frame : Nat) (stack : Stack) :
    List Binding → List Operand → State → List (Operand × State) → State → Prop
  | nil {args : List Operand} {s : State} : Binds E setup frame stack [] args s [] s
  | cons {b : Binding} {items : List Binding} {args : List Operand} {value : Operand}
      {values : List (Operand × State)} {s t u s' : State} :
      E.taken b.init (args.head?.getD (.known .undefined)) stack setup s = .ok value t →
      E.bindParam frame stack b value (pure ()) setup t = .ok () u →
      Binds E setup frame stack items (args.drop 1) u values s' →
      Binds E setup frame stack (b :: items) args s ((value, t) :: values) s'

variable {setup : Setup} {E : Evaluator} {frame : Nat} {stack : Stack} {s s' : State}
  {items : List Binding} {args left : List Operand} {values : List (Operand × State)}

/-- A parameter is bound before the next ones are. -/
theorem bindParam_seq {α : Type} (E : Evaluator) (frame : Nat) (stack : Stack) (b : Binding)
    (value : Operand) (next : Run α) :
    E.bindParam frame stack b value next = (do
      E.bindParam frame stack b value (pure ())
      next) := by
  unfold bindParam
  split <;> simp only [bind_assoc, pure_bind]

/-- Parameters are bound one after another, each with the arguments left. -/
theorem bindItems_cons (E : Evaluator) (frame : Nat) (stack : Stack) (b : Binding)
    (items : List Binding) (args : List Operand) :
    E.bindItems frame stack (b :: items) args = (do
      let value ← E.taken b.init (args.head?.getD (.known .undefined)) stack
      E.bindParam frame stack b value (pure ())
      E.bindItems frame stack items (args.drop 1)) := by
  simp only [← bindParam_seq]
  conv_lhs => unfold bindItems
  unfold taken
  cases b.init with
  | none => rfl
  | some init =>
    simp only [bind_assoc, pure_bind]
    rfl

/-- Arguments are dropped as parameters are bound. -/
theorem binds_of_bindItems (h : E.bindItems frame stack items args setup s = .ok left s') :
    left = args.drop items.length ∧ ∃ values, E.Binds setup frame stack items args s values s' := by
  induction items generalizing args s with
  | nil =>
    cases h
    exact ⟨rfl, [], .nil⟩
  | cons b items ih =>
    rw [bindItems_cons] at h
    obtain ⟨value, t, htaken, h⟩ := ok_of_bind h
    obtain ⟨_, u, hbind, h⟩ := ok_of_bind h
    obtain ⟨rfl, values, hrest⟩ := ih h
    exact ⟨by rw [List.drop_drop, List.length_cons, Nat.add_comm], _, .cons htaken hbind hrest⟩

/-- What is passed is part of what is taken. -/
theorem mem_of_taken {init : Option Expr} {passed value : Operand}
    (h : E.taken init passed stack setup s = .ok value s') {x : Value} (hx : x ∈ passed.now s') :
    x ∈ value.now s' := by
  cases init with
  | none =>
    cases h
    exact hx
  | some init =>
    obtain ⟨fallback, t, hfallback, h⟩ := ok_of_bind h
    rw [bind_of_ok (deref_eq setup passed t), bind_of_ok (deref_eq setup fallback t)] at h
    cases h
    exact Reference.mem_union.2 (.inl hx)

/-- Each parameter takes what is passed in its position. -/
theorem Binds.taken (h : E.Binds setup frame stack items args s values s') {i : Nat}
    {b : Binding} (hb : items[i]? = some b) :
    ∃ value t u, values[i]? = some (value, t) ∧
      E.taken b.init (args[i]?.getD (.known .undefined)) stack setup u = .ok value t := by
  induction h generalizing i with
  | nil => cases hb
  | @cons b' items args value values s t u s' htaken hbind hrest ih =>
    cases i with
    | zero =>
      cases hb
      exact ⟨value, t, s, rfl, by rwa [List.head?_eq_getElem?] at htaken⟩
    | succ i =>
      obtain ⟨value, t, u, hvalue, htaken⟩ := ih hb
      refine ⟨value, t, u, hvalue, ?_⟩
      rwa [List.getElem?_drop, Nat.add_comm] at htaken

/-- A name that is bound by one simple parameter and none behind it is bound to what is passed
there. -/
theorem find?_of_bindItems_at
    (hsimple : ∀ b ∈ items, ∃ id, b = .mk (.leaf (.identifier id)) none)
    (hframe : frame < s.heap.frames.size) {i : Nat} {id : Identifier}
    (hid : items[i]? = some (.mk (.leaf (.identifier id)) none))
    (hlater : id.name ∉ Binding.names (items.drop (i + 1)))
    (h : E.bindItems frame stack items args setup s = .ok left s') :
    (s'.heap.frame frame).find? id.name = some (args[i]?.getD (.known .undefined)) := by
  induction items generalizing i args s with
  | nil => cases hid
  | cons b items ih =>
    obtain ⟨id', rfl⟩ := hsimple b List.mem_cons_self
    have htail : ∀ b ∈ items, ∃ id, b = .mk (.leaf (.identifier id)) none :=
      fun b hb => hsimple b (.tail _ hb)
    have hrest : E.bindItems frame stack items (args.drop 1) setup
        { s with heap := s.heap.define frame id'.name (args.head?.getD (.known .undefined)) } =
        .ok left s' := h
    cases i with
    | zero =>
      cases hid
      have hlater : id.name ∉ Binding.names items := hlater
      rw [find?_of_bindItems htail hlater hrest]
      show ((s.heap.define _ _ _).frame _).find? _ = _
      rw [Heap.frame_define, if_pos ⟨rfl, hframe⟩, Frame.find?_define, if_pos rfl,
        List.head?_eq_getElem?]
    | succ i =>
      rw [ih htail (by simpa [Heap.define] using hframe) hid hlater hrest, List.getElem?_drop,
        Nat.add_comm]

/-- Binds a name to a new array of what operands stand for. -/
def defineArray (frame : Nat) (name : String) (args : List Operand) : Run Unit := do
  define frame name (.known (← arrayOf (← derefAll args)))

/-- The array of all arguments is bound and holds what they stand for. -/
theorem ok_of_defineArray {name : String} (hframe : frame < s.heap.frames.size)
    (h : defineArray frame name args setup s = .ok () s') :
    ∃ id, (s'.heap.frame frame).find? name = some (.known (.single (.array id))) ∧
      s'.heap.contents (.array id) = some (.array ⟨.unionAll (args.map (·.now s)), false⟩) ∧
      (∀ other, other ≠ name →
        (s'.heap.frame frame).find? other = (s.heap.frame frame).find? other) ∧
      s'.heap.frames.size = s.heap.frames.size := by
  unfold defineArray at h
  rw [bind_of_ok (show derefAll args setup s = _ from bind_of_ok (mapM_deref args s))] at h
  cases h
  refine ⟨s.heap.arrays.size, ?_, ?_, fun other hother => ?_, by simp [Heap.define]⟩
  · show (((s.heap.addArray _).2.define frame name _).frame frame).find? name = _
    rw [Heap.frame_define, if_pos ⟨rfl, hframe⟩, Frame.find?_define, if_pos rfl]
  · exact (Heap.contents_addArray s.heap _ _).trans (if_pos rfl)
  · exact Heap.find?_define_of_ne hother _

/-- Binds the rest parameter to the arguments left over. -/
def bindRestParam (frame : Nat) (params : Params) (left : List Operand) : Run Unit := do
  match params.rest with
  | none => pure ()
  | some (.leaf (.identifier id)) => defineArray frame id.name left
  | some rest => unsupported .paramBinding rest.kind rest.span

/-- Binding the rest parameter leaves the other parameters as they are. -/
theorem find?_of_bindRestParam {params : Params} {name : String} (hsimple : params.Simple)
    (hname : name ∉ Script.restNames params.rest) (hframe : frame < s.heap.frames.size)
    (h : bindRestParam frame params left setup s = .ok () s') :
    (s'.heap.frame frame).find? name = (s.heap.frame frame).find? name := by
  unfold bindRestParam at h
  cases hr : params.rest with
  | none =>
    rw [hr] at h
    cases h
    rfl
  | some rest =>
    obtain ⟨id, rfl⟩ := hsimple.2 rest hr
    rw [hr] at h hname
    obtain ⟨_, -, -, hothers, -⟩ := ok_of_defineArray hframe h
    exact hothers name (by simpa [Script.restNames, Script.Pattern.names] using hname)

/-- Pushes the frame of a call, in which functions other than arrows bind their own name and
`arguments`. -/
def openFrame (self : Value) (fn : Closure) (code : Code) (args : List Operand) : Run Nat := do
  let frame ← newFrame .empty
  unless code.literal.isArrow do
    unless fn.name.isEmpty do define frame fn.name (.known (.single self))
    defineArray frame "arguments" args
  return frame

/-- Parameters are bound in a frame that is opened for the call. -/
theorem bindParams_eq (E : Evaluator) (self : Value) (fn : Closure) (code : Code)
    (args : List Operand) :
    E.bindParams self fn code args = (do
      let frame ← openFrame self fn code args
      E.bindParamsIn frame (frame :: fn.scope) code.literal.params args) := by
  unfold bindParams openFrame bindParamsIn defineArray
  cases code.literal.isArrow with
  | true => rfl
  | false =>
    cases fn.name.isEmpty with
    | true => simp only [Bool.false_eq_true, if_false, if_true, bind_assoc]; rfl
    | false => simp only [Bool.false_eq_true, if_false, bind_assoc]; rfl

/-- The rest parameter is bound after the other ones. -/
theorem bindParamsIn_eq (E : Evaluator) (frame : Nat) (stack : Stack) (params : Params)
    (args : List Operand) :
    E.bindParamsIn frame stack params args = (do
      let left ← E.bindItems frame stack params.items args
      bindRestParam frame params left
      return stack) := by
  unfold bindParamsIn bindRestParam defineArray
  refine bind_congr fun left => ?_
  generalize params.rest = rest
  split <;> simp only [bind_assoc, pure_bind]

end Evaluator

namespace Setup

variable {setup : Setup} {s s' t t' : State} {n m p : Nat} {func : Value} {fn : Closure}
    {code : Code}
  {ops : List Operand} {stack : Stack} {tail : Reference}

/-- A call that is given a tail in four positions, starting with `p`, binds what its parameters take
in a new frame. -/
structure Receives (setup : Setup) (m : Nat) (func : Value) (fn : Closure) (code : Code)
    (ops : List Operand) (p : Nat) (tail : Reference) (t : State) (stack : Stack) (t' : State) :
    Prop where
  pushes : stack = t.heap.frames.size :: fn.scope
  /-- The parameters in the four positions take the tail, and those behind them take nothing. -/
  parameters : ∃ u u' values, openFrame func fn code ops setup t = .ok t.heap.frames.size u ∧
    (ofFuel m).Binds setup t.heap.frames.size stack code.literal.params.items ops u values u' ∧
    ∀ i b, code.literal.params.items[i]? = some b → p ≤ i →
      ∃ value v, values[i]? = some (value, v) ∧
      (i < p + spreadSlots → ∀ x ∈ tail, x ∈ value.now v) ∧
      (p + spreadSlots ≤ i → b.init = none → value = .known .undefined)
  /-- So they stand for the tail and for nothing if names are bound once and without defaults. -/
  names : code.literal.params.Simple → ∀ i id,
    code.literal.params.items[i]? = some (.mk (.leaf (.identifier id)) none) →
    id.name ∉ Binding.names (code.literal.params.items.drop (i + 1)) →
    id.name ∉ Script.restNames code.literal.params.rest → p ≤ i →
    t'.heap.lookup? stack id.name =
      some (.known (if i < p + spreadSlots then tail else .undefined))
  /-- The tail is among the elements of `arguments`. -/
  arguments : code.literal.isArrow = false → ∃ u id,
    openFrame func fn code ops setup t = .ok t.heap.frames.size u ∧
    u.heap.lookup? stack "arguments" = some (.known (.single (.array id))) ∧
    (∀ x ∈ tail, x ∈ t'.heap.getKeyOf .any (.array id)) ∧
    (code.literal.params.Simple → "arguments" ∉ code.literal.params.names →
      t'.heap.lookup? stack "arguments" = some (.known (.single (.array id))))
  /-- The tail is among the elements of the rest parameter if one of the positions is left for
  it. -/
  rest : ∀ {id}, code.literal.params.rest = some (.leaf (.identifier id)) → ∃ a,
    t'.heap.lookup? stack id.name = some (.known (.single (.array a))) ∧
    (code.literal.params.items.length < p + spreadSlots →
      ∀ x ∈ tail, x ∈ t'.heap.getKeyOf .any (.array a)) ∧
    (p + spreadSlots ≤ code.literal.params.items.length → t'.heap.getKeyOf .any (.array a) = .empty)

/-- A frame is pushed on the frames that there are, and `arguments` is bound there to a new
array. -/
theorem ok_of_openFrame {frame : Nat} (h : openFrame func fn code ops setup s = .ok frame t) :
    frame = s.heap.frames.size ∧ frame < t.heap.frames.size ∧
      (code.literal.isArrow = false → ∃ id,
        (t.heap.frame frame).find? "arguments" = some (.known (.single (.array id))) ∧
        t.heap.contents (.array id) = some (.array ⟨.unionAll (ops.map (·.now s)), false⟩)) := by
  obtain ⟨frame', u, hpush, h⟩ := ok_of_bind h
  cases hpush
  cases harrow : code.literal.isArrow with
  | true =>
    simp only [harrow] at h
    cases h
    exact ⟨rfl, by simp, nofun⟩
  | false =>
    simp only [harrow] at h
    -- the own name of the function is bound first, if it has one
    obtain ⟨u, hsize, hnow, h⟩ : ∃ u : State, s.heap.frames.size < u.heap.frames.size ∧
        ops.map (·.now u) = ops.map (·.now s) ∧ (do
          defineArray s.heap.frames.size "arguments" ops
          return s.heap.frames.size) setup u = .ok frame t := by
      cases hname : fn.name.isEmpty with
      | true =>
        simp only [hname] at h
        exact ⟨_, by simp, List.map_congr_left fun o _ => by cases o <;> rfl, h⟩
      | false =>
        simp only [hname] at h
        obtain ⟨_, u, hdefine, h⟩ := ok_of_bind h
        cases hdefine
        exact ⟨_, by simp [Heap.define], List.map_congr_left fun o _ => by cases o <;> rfl, h⟩
    obtain ⟨_, u', hdefine, h⟩ := ok_of_bind h
    cases h
    obtain ⟨id, hbound, hcontents, -, hsize'⟩ := ok_of_defineArray hsize hdefine
    exact ⟨rfl, hsize' ▸ hsize, fun _ => ⟨id, hbound, hnow ▸ hcontents⟩⟩

/-- What a call finds for a spread and the arguments behind it. -/
theorem receives_of_bindParams {heads : List Operand}
    (hops : ops = heads ++ List.replicate spreadSlots (.known tail)) (hp : heads.length = p)
    (h : (ofFuel m).bindParams func fn code ops setup t = .ok stack t') :
    setup.Receives m func fn code ops p tail t stack t' := by
  rw [bindParams_eq] at h
  obtain ⟨frame, u, hopen, hin⟩ := ok_of_bind h
  obtain ⟨rfl, hframe, harguments⟩ := ok_of_openFrame hopen
  obtain ⟨hkept, rfl⟩ := State.Keeps.of_ok_and hin fun _ =>
    (agrees_keeping setup m).bindParamsIn trivial (fun _ _ _ _ => trivial) _ ops
  have hrun := hin
  rw [bindParamsIn_eq] at hrun
  obtain ⟨left, u', hitems, hrun⟩ := ok_of_bind hrun
  obtain ⟨_, v, hrest, hend⟩ := ok_of_bind hrun
  cases hend
  obtain ⟨rfl, values, hbinds⟩ := binds_of_bindItems hitems
  have hkeeps : u.Keeps u' := State.Keeps.of_ok hitems fun _ =>
    (agrees_keeping setup m).bindItems trivial _ (fun _ _ _ _ => trivial) (fun _ _ _ => trivial) ops
  have hframe' : t.heap.frames.size < u'.heap.frames.size :=
    Nat.lt_of_lt_of_le hframe hkeeps.heap.frames
  have hpassed : ∀ i, p ≤ i → ops[i]?.getD (.known .undefined) =
      .known (if i < p + spreadSlots then tail else .undefined) := by
    intro i hi
    rw [hops, List.getElem?_append_right (hp ▸ hi), List.getElem?_replicate, hp]
    by_cases hlt : i < p + spreadSlots
    · rw [if_pos hlt, if_pos (by omega)]
      rfl
    · rw [if_neg hlt, if_neg (by omega)]
      rfl
  have htail : ∀ (v : State), ∀ x ∈ tail, x ∈ Reference.unionAll (ops.map (·.now v)) := by
    intro v x hx
    refine Reference.mem_unionAll.2 ⟨tail, List.mem_map.2 ⟨.known tail, ?_, rfl⟩, hx⟩
    simp [hops, spreadSlots]
  refine ⟨rfl, ⟨u, u', values, hopen, hbinds, fun i b hb hi => ?_⟩, ?_, fun harrow => ?_, ?_⟩
  · obtain ⟨value, v, w, hvalue, htaken⟩ := hbinds.taken hb
    rw [hpassed i hi] at htaken
    refine ⟨value, v, hvalue, fun hlt x hx => ?_, fun hge hinit => ?_⟩
    · rw [if_pos hlt] at htaken
      exact mem_of_taken htaken hx
    · rw [if_neg (by omega), hinit] at htaken
      cases htaken
      rfl
  · intro hsimple i id hid hlater hother hi
    have hbound := find?_of_bindItems_at hsimple.1 hframe hid hlater hitems
    rw [← find?_of_bindRestParam hsimple hother hframe' hrest, hpassed i hi] at hbound
    exact Heap.lookup?_cons_of_some hbound _
  · obtain ⟨id, hbound, hcontents⟩ := harguments harrow
    refine ⟨u, id, hopen, Heap.lookup?_cons_of_some hbound _, fun x hx => ?_,
      fun hsimple hother => ?_⟩
    · refine hkept.heap.reads ?_
      rw [Heap.getKeyOf_of_contents hcontents]
      exact htail t x hx
    · rw [← find?_of_bindParamsIn hsimple hother hin] at hbound
      exact Heap.lookup?_cons_of_some hbound _
  · intro id hid
    unfold bindRestParam at hrest
    rw [hid] at hrest
    obtain ⟨a, hbound, hcontents, -⟩ := ok_of_defineArray hframe' hrest
    refine ⟨a, Heap.lookup?_cons_of_some hbound _, fun hlt x hx => ?_, fun hge => ?_⟩
    · rw [Heap.getKeyOf_of_contents hcontents]
      refine Reference.mem_unionAll.2 ⟨tail, List.mem_map.2 ⟨.known tail, ?_, rfl⟩, hx⟩
      have hslots : 0 < spreadSlots := by decide
      refine List.mem_of_getElem? (i := p + spreadSlots - 1 - code.literal.params.items.length) ?_
      rw [List.getElem?_drop, hops, List.getElem?_append_right (by omega), List.getElem?_replicate,
        if_pos (by omega)]
    · rw [Heap.getKeyOf_of_contents hcontents, List.drop_of_length_le]
      · rfl
      · simpa [hops, hp] using hge

variable {callee : Operand} {pre rest : List Expr} {inner : Expr}

/-- All that is spread and all arguments behind the first spread fold into one tail. Every call of a
function with these arguments binds it to the parameter at the position of the spread and to the
next three, and keeps it among the elements of `arguments` and, if one of these positions is left
for it, of the rest parameter; to parameters further back it binds nothing. -/
theorem spread_reaches (hpre : ∀ e ∈ pre, ¬e.IsSpread)
    (h : (ofFuel n).arguments callee stack (pre ++ .spread inner :: rest) none setup s =
      .ok ops s') :
    ∃ t rs rs' tail, setup.Passes (ofFuel n) stack pre s rs t ∧
      setup.Passes (ofFuel n) stack (.spread inner :: rest) t rs' s' ∧
      (∀ x, x ∈ tail ↔ ∃ r ∈ rs', x ∈ r) ∧
      ∀ {m func fn code u stack' u'}, (ofFuel m).bindParams func fn code ops setup u =
        .ok stack' u' →
        setup.Receives m func fn code ops pre.length tail u stack' u' := by
  obtain ⟨t, rs, heads, rs', tail, hpasses, hlength, hfold, hops, hmem⟩ :=
    arguments_of_spread hpre h
  exact ⟨t, rs, rs', tail, hpasses, hfold, hmem, fun hcall =>
    receives_of_bindParams hops hlength hcall⟩

end Setup

/-- The function `function f(a, b, c, d, e) { d.x = 1; }`, or with another name of one letter for
`d` in its body. -/
def fiveParameters (name : String) : Script.Function :=
  .mk ⟨0, 38⟩ false (some ⟨"f", ⟨9, 10⟩⟩)
    (.mk ⟨10, 25⟩ [.mk (.leaf (.identifier ⟨"a", ⟨11, 12⟩⟩)) none,
      .mk (.leaf (.identifier ⟨"b", ⟨14, 15⟩⟩)) none,
        .mk (.leaf (.identifier ⟨"c", ⟨17, 18⟩⟩)) none,
      .mk (.leaf (.identifier ⟨"d", ⟨20, 21⟩⟩)) none,
        .mk (.leaf (.identifier ⟨"e", ⟨23, 24⟩⟩)) none]
      none)
    (.block (.mk ⟨26, 38⟩ [.expression (.assign ⟨28, 35⟩ .plain
      (.leaf (.dot ⟨28, 31⟩ (.identifier ⟨name, ⟨28, 29⟩⟩) "x"))
        (.number ⟨34, 35⟩ (some (.ofNat 1))))]))

/-- The array `[g]`. -/
def holdingGlobal : Expr := .array ⟨44, 47⟩ [some (.identifier ⟨"g", ⟨45, 46⟩⟩)]

/-- The program `function f(a, b, c, d, e) { d.x = 1; } f(...[g]);`, or with another name of one
letter for `d` in the body. The global `g` is an empty object, and what is not modelled is warned
about. -/
def spreadCall (name : String) : Setup where
  options := { Options.standard with strict := false }
  programs := #[.ofProgram ⟨"script",
    "function f(a, b, c, d, e) \x7b " ++ name ++ ".x = 1; \x7d f(...[g]);",
    [.declareFunction (fiveParameters name),
      .expression (.call ⟨39, 48⟩ (.identifier ⟨"f", ⟨39, 40⟩⟩) [.spread holdingGlobal])]⟩]
  graph := emptyGlobal
  resolver := none
  canceled := false

/-- Where `[g]` was evaluated, it has the global among its elements. -/
def holdsGlobal : EStateM.Result Failure State Operand → Bool
  | .ok o t => decide (.object 0 ∈ t.heap.getKey (o.now t) .any)
  | .error _ _ => false

/-- In the call the fourth parameter is the global, and the fifth one is undefined. -/
theorem spread_reaches_fourth :
    let setup := spreadCall "d"
    let s := setup.stateAfter (newGlobals (.container 0)) .start
    let fn : Closure := ⟨"f", some ⟨0, fiveParameters "d"⟩, [0], none⟩
    ∃ ops t stack t' tail,
      (ofFuel 3).arguments (.known .empty) [0] [.spread holdingGlobal] none setup s = .ok ops t ∧
      (ofFuel 1).bindParams (.function 0) fn ⟨0, fiveParameters "d"⟩ ops setup t = .ok stack t' ∧
      .object 0 ∈ tail ∧ t'.heap.lookup? stack "d" = some (.known tail) ∧
      t'.heap.lookup? stack "e" = some (.known .undefined) := by
  intro setup s fn
  obtain ⟨stack, t', hrun, -⟩ := setup.exists_of_recorded s (do
    let ops ← (ofFuel 3).arguments (.known .empty) [0] [.spread holdingGlobal] none
    (ofFuel 1).bindParams (.function 0) fn ⟨0, fiveParameters "d"⟩ ops) [] (by decide +kernel)
  obtain ⟨ops, t, hargs, hcall⟩ := ok_of_bind hrun
  obtain ⟨t₀, rs, rs', tail, hpre, hfold, hmem, hreceives⟩ :=
    Setup.spread_reaches (List.forall_mem_nil _) (show (ofFuel 3).arguments (.known .empty) [0]
      ([] ++ [.spread holdingGlobal]) none setup s = .ok ops t from hargs)
  have hsimple : (fiveParameters "d").params.Simple := by
    refine ⟨fun b hb => ?_, nofun⟩
    simp only [fiveParameters, Script.Function.params, Params.items, List.mem_cons,
      List.not_mem_nil, or_false] at hb
    rcases hb with rfl | rfl | rfl | rfl | rfl <;> exact ⟨_, rfl⟩
  have hnames := (hreceives hcall).names hsimple
  refine ⟨ops, t, stack, t', tail, hargs, hcall, ?_, ?_, ?_⟩
  · cases hpre
    cases hfold with
    | plain hplain => exact absurd ⟨_, rfl⟩ hplain
    | @spread _ _ o _ _ t₁ _ _ hsource hnoted hrest =>
      cases hrest
      refine (hmem _).2 ⟨_, List.mem_singleton.2 rfl, ?_⟩
      have hheld : holdsGlobal ((ofFuel 3).resolve holdingGlobal [0] setup s) = true := by
        decide +kernel
      rw [hsource] at hheld
      exact of_decide_eq_true hheld
  · exact hnames 3 ⟨"d", ⟨20, 21⟩⟩ rfl (by decide) (by decide) (Nat.zero_le _)
  · exact hnames 4 ⟨"e", ⟨23, 24⟩⟩ rfl (by decide) (by decide) (Nat.zero_le _)

/-- The fourth parameter finds the global that is spread, and the write to it is reported. The fifth
one finds nothing, and the write is missed. -/
theorem spreadCall_unreported :
    ((spreadCall "d").analyze (.container 0)).1.toOption =
        some ⟨[⟨"Cannot assign to property of global value g", ⟨28, 35⟩, "g"⟩],
          ["SPREAD_ARGUMENT_ERR: Spread arguments are not supported (spread at 44-47)"]⟩ ∧
    ((spreadCall "e").analyze (.container 0)).1.toOption =
        some ⟨[],
          ["SPREAD_ARGUMENT_ERR: Spread arguments are not supported (spread at 44-47)"]⟩ := by
  decide +kernel

end FrozenGlobals
