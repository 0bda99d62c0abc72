import FrozenGlobals.Proofs.Analysis.Evaluation
import FrozenGlobals.Proofs.Discipline.Calling

/-!
# Agreement of evaluations

Functions, external code, expressions and statements agree if the evaluators one level below do.
`Licence.Lifts` says what a step may ask of the level below: the parts of a node, calls from it, the
callbacks of native methods, what a function runs when it is called, and the external code that a
call is followed into. `Evaluator.Agrees.step` is the step itself.
-/

namespace FrozenGlobals

open Run Discipline
open Script (Span Node Expr Pattern Stmt)

namespace Licence

variable {setup : Setup}

/-- What is licensed for an optional chain is licensed for what the chain wraps. -/
theorem Covers.unwrapOptional {L : Licence} {p : Position} {e : Expr} (h : L.Covers p (.expr e)) :
    L.Covers p (.expr (FrozenGlobals.unwrapOptional e)) := by
  fun_induction FrozenGlobals.unwrapOptional e with
  | case1 inner ih => exact ih (h.part (by simp [Node.parts, Node.children, Expr.children]))
  | case2 inner ih => exact ih (h.part (by simp [Node.parts, Node.children, Expr.children]))
  | case3 => exact h

/-- The statements of a block are licensed with it. -/
theorem Covers.body {L : Licence} {p : Position} {b : Script.Block} (h : L.Covers p (.block b)) :
    ∀ s ∈ b.body, L.node p (.stmt s) := fun _ hs =>
  (h.part (Node.mem_children_of_mem_body (List.mem_map_of_mem hs))).node

/-- What a function of a program runs may be run in a call of it. -/
def Enters (L : Licence) (D : Discipline setup) (p : Position) : Prop :=
  ∀ {u fn n}, D.code u fn → p.depth < setup.callLevels → n ∈ fn.runs setup.options.strict →
    L.Covers (p.called u) n

/-- A call may be followed into external code. -/
structure Follows (L : Licence) (D : Discipline setup) (p : Position) (span : Span) : Prop where
  program : ∀ f g, D.scope [f, g]
  anchor : ∀ s, D.inv s → s.position = p →
    State.Brackets D.inv D.le s { s with anchors := p.anchor span :: s.anchors }
      ({ · with anchors := s.anchors })
  implement : ∀ {u prepared s}, setup.Implements u → setup.programs[u]? = some prepared →
    s ∈ prepared.program.body → L.Covers { p.anchored span with unit := u } (.stmt s)
  handler : ∀ v c, L.call (p.anchored span) v c

/-- What is licensed at one level is licensed in all that it leads to one level below. -/
structure Lifts (L' L : Licence) (D : Discipline setup) : Prop where
  opens : L'.Opens D
  part : ∀ {p n c}, L'.node p n → c ∈ n.parts → L.Covers p c
  place : ∀ {p n span}, L'.node p n → n.mutation? = some span → D.place p.unit span
  call : ∀ {p n v c}, L'.node p n → D.Calls p v c → L.call p v c
  site : ∀ {p v c}, L'.call p v c → D.Calls p v c
  function : ∀ {p fn}, L'.node p (.expr (.function fn)) → D.code p.unit fn
  native : ∀ {p b c}, L'.call p (.builtin b) c → L.Passes p c
  enter : ∀ {p id c}, L'.call p (.function id) c → L.Enters D p
  follow : ∀ {p span callee args}, setup.resolver.isSome →
    L'.node p (.expr (.call span callee args)) → L.Follows D p span

/-- What is licensed at one level has all it needs at the level below. -/
theorem Lifts.allows {L' L : Licence} {D : Discipline setup} (h : L'.Lifts L D) {p : Position}
    {n : Node} (hn : L'.node p n) : L.Allows D p n := ⟨h.part hn, h.place hn, h.call hn⟩

end Licence

/-- Running the statement enters blocks, whatever its parts do. -/
def Script.Stmt.entersBlocks : Stmt → Bool
  | .block _ | .tryCatch .. => true
  | _ => false

namespace Evaluator

/-- Binds a parameter of a function to a value before something else is done. -/
def bindParam {α : Type} (E : Evaluator) (frame : Nat) (stack : Stack) (b : Script.Binding)
    (value : Operand) (next : Run α) : Run α := do
  match b.target with
  | .leaf (.identifier id) => define frame id.name value
  | target =>
      unsupported .paramBinding target.kind target.span
      E.bind .lexical target value stack
  next

/-- Binds the parameters of a function in a frame that may hold more already. -/
def bindParamsIn (E : Evaluator) (frame : Nat) (stack : Stack) (params : Script.Params)
    (args : List Operand) : Run Stack := do
  let left ← E.bindItems frame stack params.items args
  match params.rest with
  | none => pure ()
  | some (.leaf (.identifier id)) =>
      define frame id.name (.known (← arrayOf (← derefAll left)))
  | some rest => unsupported .paramBinding rest.kind rest.span
  return stack

/-- What a call of a function runs. -/
def runCode (E : Evaluator) (self : Value) (fn : Closure) (code : Code) (args : List Operand) :
    Run Reference := inUnit code.unit do
  E.runBody code (← E.bindParams self fn code args)

/-- Whether a call that is within the limit of nested calls is followed. -/
def affords (fn : Closure) (budget? : Option Nat) (s : State) : Run Bool := do
  match budget? with
  | none => return true
  | some budget =>
      if 0 < s.active.count fn.key && budget ≤ s.reentries.count fn.key then
        unless s.budgetWarned.contains fn.key do
          modify fun s => { s with budgetWarned := fn.key :: s.budgetWarned }
          warn ("invocation budget of " ++ toString budget ++ " recursive calls to "
            ++ fn.displayName ++ " exhausted; further recursive calls are not followed")
        return false
      else return true

end Evaluator

/-- What is warned about once. -/
theorem Run.warnOnce (setup : Setup) (known : Bool) (f : State → State) (message : String)
    (s : State) : ∃ s', (if known = true then pure false else do
        modify f
        warn message
        pure false : Run Bool) setup s = .ok false s' ∧
      (known = true ∧ s' = s ∨ known = false ∧ ∃ log, s' = { f s with
        log
        warnings :=
          if setup.options.warnings then (f s).warnings.push message else (f s).warnings }) := by
  cases known with
  | true => exact ⟨s, rfl, .inl ⟨rfl, rfl⟩⟩
  | false =>
    obtain ⟨entries, heq⟩ := warn_eq setup message (f s)
    have hend : (warn message >>= fun _ => pure false : Run Bool) setup (f s) = _ := bind_of_ok heq
    exact ⟨_, hend, .inr ⟨rfl, entries, rfl⟩⟩

/-- A call is followed from the state as it is if calls may nest deeper and its function may be
entered once more. Else it is skipped, or fails without a ceiling. -/
theorem Evaluator.admits_eq (setup : Setup) (fn : Closure) (site : Site) (s : State) :
    (admits fn site setup s = .ok true s ∧ s.depth < setup.callLevels ∧
      s.Affords setup.options fn.key) ∨
    (∃ skip log, (skip = .tooDeep site ∨ ∃ budget, skip = .spent fn budget) ∧
      Skip.Due setup.options s skip ∧
      admits fn site setup s = .ok false { s.skipped setup.options skip with log }) ∨
    setup.options.maxCallDepth < 0 ∧
      admits fn site setup s = .error (.callDepthExceeded s.depth site.span) s := by
  have hend : s.depth < setup.callLevels →
      (affords fn setup.options.budget? s setup s = .ok true s ∧ s.depth < setup.callLevels ∧
        s.Affords setup.options fn.key) ∨
      ∃ skip log, (skip = .tooDeep site ∨ ∃ budget, skip = .spent fn budget) ∧
        Skip.Due setup.options s skip ∧
        affords fn setup.options.budget? s setup s =
          .ok false { s.skipped setup.options skip with log } := by
    intro hlt
    cases hbudget : setup.options.budget? with
    | none => exact .inl ⟨rfl, hlt, fun _ h => nomatch hbudget.symm.trans h⟩
    | some budget =>
      unfold affords
      dsimp only
      split
      · next hspent =>
        simp only [Bool.and_eq_true, decide_eq_true_eq] at hspent
        obtain ⟨s', heq, hs'⟩ := warnOnce setup (s.budgetWarned.contains fn.key)
          (fun s => { s with budgetWarned := fn.key :: s.budgetWarned })
          ("invocation budget of " ++ toString budget ++ " recursive calls to "
            ++ fn.displayName ++ " exhausted; further recursive calls are not followed") s
        obtain ⟨log, hs'⟩ : ∃ log,
          s' = { s.skipped setup.options (.spent fn budget) with log } := by
          rcases hs' with ⟨hknown, rfl⟩ | ⟨hknown, log, rfl⟩
          · exact ⟨s'.log, by rw [State.skipped_known (.spent fn budget) hknown]⟩
          · exact ⟨log, by rw [State.skipped_spent budget hknown]; rfl⟩
        exact .inr ⟨.spent fn budget, log, .inr ⟨budget, rfl⟩, ⟨hbudget, hspent⟩, hs' ▸ heq⟩
      · next hspare =>
        refine .inl ⟨rfl, hlt, fun b hb hactive => ?_⟩
        obtain rfl := Option.some.inj (hbudget.symm.trans hb)
        by_contra hle
        exact hspare (by simp [hactive, Nat.not_lt.1 hle])
  unfold admits
  rw [read_bind]
  dsimp only
  rw [get_bind]
  by_cases hmax : 0 ≤ setup.options.maxCallDepth
  · have hlevels : setup.callLevels = setup.options.maxCallDepth.toNat := if_pos hmax
    rw [if_pos hmax]
    split
    · next hdeep =>
      obtain ⟨entries, hlog⟩ := log_ok setup .debug
        (fun s => ("Call depth ceiling reached, skipping call", callFields fn site s)) s
      rw [bind_of_ok hlog]
      obtain ⟨s', heq, hs'⟩ := warnOnce setup s.ceilingWarned ({ · with ceilingWarned := true })
        ("call at " ++ site.span.render ++ " not followed: call depth ceiling "
          ++ toString setup.options.maxCallDepth ++ " reached") { s with log := entries }
      obtain ⟨log, hs'⟩ : ∃ log, s' = { s.skipped setup.options (.tooDeep site) with log } := by
        rcases hs' with ⟨hknown, rfl⟩ | ⟨hknown, log, rfl⟩
        · exact ⟨entries, by rw [State.skipped_known (.tooDeep site) hknown]⟩
        · exact ⟨log, by rw [State.skipped_tooDeep hknown]; rfl⟩
      exact .inr (.inl ⟨.tooDeep site, log, .inl rfl, ⟨hmax, hdeep⟩, hs' ▸ heq⟩)
    · next hdeep =>
      rcases hend (by omega) with h | h
      · exact .inl h
      · exact .inr (.inl h)
  · have hlevels : setup.callLevels = hardCallDepth := if_neg hmax
    rw [if_neg hmax]
    split
    · exact .inr (.inr ⟨by omega, rfl⟩)
    · rcases hend (by omega) with h | h
      · exact .inl h
      · exact .inr (.inl h)

/-- A computation does the same in a strict analysis and in one that is not. -/
def Setup.Indifferent {α : Type} (setup : Setup) (x : Run α) : Prop :=
  ∀ strict s, x (setup.treating strict) s = x setup s

namespace Setup.Indifferent

variable {setup : Setup} {α β : Type} {x : Run α}

/-- Indifferent computations one after another are indifferent. -/
theorem bind {f : α → Run β} (hx : setup.Indifferent x) (hf : ∀ a, setup.Indifferent (f a)) :
    setup.Indifferent (x >>= f) := by
  intro strict s
  cases hxs : x setup s with
  | ok a t => rw [bind_of_ok hxs, bind_of_ok ((hx strict s).trans hxs), hf]
  | error e t => rw [bind_of_error hxs, bind_of_error ((hx strict s).trans hxs)]

/-- Reading the state is indifferent. -/
theorem get {f : State → Run β} (hf : ∀ s, setup.Indifferent (f s)) :
    setup.Indifferent (MonadState.get >>= f) := fun strict s => hf s strict s

/-- Logging is indifferent. -/
theorem log (level : Log.Level) (entry : State → String × Log.Fields) :
    setup.Indifferent (Run.log level entry) := by
  intro strict s
  unfold Run.log
  have hsink : (setup.treating strict).options.sink? = setup.options.sink? := rfl
  rw [read_bind, read_bind, hsink]
  cases setup.options.sink? with
  | none => rfl
  | some logger => rfl

/-- Warnings are indifferent. -/
theorem warn (message : String) : setup.Indifferent (Run.warn message) := by
  unfold Run.warn
  refine bind (log _ _) fun _ strict s => ?_
  have hwarnings : (setup.treating strict).options.warnings = setup.options.warnings := rfl
  rw [read_bind, read_bind, hwarnings]
  cases setup.options.warnings <;> rfl

/-- Whether a call is followed does not depend on whether the analysis is strict. -/
theorem admits (fn : Closure) (site : Site) : setup.Indifferent (Evaluator.admits fn site) := by
  have hwarn : ∀ (known : Bool) (f : State → State) (message : String),
      setup.Indifferent (do
        unless known do
          modify f
          Run.warn message
        return false) := by
    intro known f message
    cases known with
    | true => exact fun _ _ => rfl
    | false => exact bind (fun _ _ => rfl) fun _ => bind (warn message) fun _ _ _ => rfl
  have hend : ∀ s, setup.Indifferent (Evaluator.affords fn setup.options.budget? s) := by
    intro s
    unfold Evaluator.affords
    cases setup.options.budget? with
    | none => exact fun _ _ => rfl
    | some budget =>
      dsimp only
      split
      · exact hwarn _ _ _
      · exact fun _ _ => rfl
  intro strict s
  have hbudget : (setup.treating strict).options.budget? = setup.options.budget? := rfl
  have hdepth : (setup.treating strict).options.maxCallDepth = setup.options.maxCallDepth := rfl
  unfold Evaluator.admits
  rw [read_bind, read_bind]
  dsimp only
  rw [hbudget, hdepth]
  refine get (fun s => ?_) strict s
  by_cases hmax : 0 ≤ setup.options.maxCallDepth
  · rw [if_pos hmax]
    split
    · exact bind (log _ _) fun _ => hwarn _ _ _
    · exact hend s
  · rw [if_neg hmax]
    split
    · exact fun _ _ => rfl
    · exact hend s

end Setup.Indifferent

namespace Evaluator.Agrees

variable {setup : Setup} {D : Discipline setup} {L : Licence} {E E' : Evaluator} {p : Position}
  {stack : Stack}

/-! ## Scopes -/

section
variable (hE : Agrees D L E E')
include hE

/-- Statements in sequence agree. -/
theorem walkAll (hs : D.scope stack) (fold : Bool) {body : List Stmt}
    (h : ∀ s ∈ body, L.node p (.stmt s)) :
    D.Agree p (E.walkAll fold body stack) (E'.walkAll fold body stack) fun _ => True :=
  .foldlM fun s hmem _ => (hE.walk hs (h s hmem)).bind fun _ _ => .pure trivial

/-- The statements of a block that may be entered agree, below a frame of its own. -/
theorem walkBlock [D.Abreast] (hs : D.scope stack) (fold : Bool) {b : Script.Block}
    (he : D.enters p.unit b.start) (h : ∀ s ∈ b.body, L.node p (.stmt s)) :
    D.Agree p (E.walkBlock fold b stack) (E'.walkBlock fold b stack) fun _ => True := by
  unfold Evaluator.walkBlock
  refine Agree.checkCanceled.seq ((Agree.template he).bind fun t ht => Agree.log.seq ?_)
  refine (Agree.instantiate (fun _ => D.push _ hs) ht).bind fun inner hinner => ?_
  exact hE.walkAll hinner fold h

/-- A block that is licensed agrees: it may be entered, and its statements are licensed. -/
theorem walkCovered [D.Abreast] (hs : D.scope stack) (fold : Bool) {b : Script.Block}
    (h : L.Covers p (.block b)) :
    D.Agree p (E.walkBlock fold b stack) (E'.walkBlock fold b stack) fun _ => True :=
  hE.walkBlock hs fold (hE.opens h.node rfl) h.body

/-- A program agrees if its statements are licensed where it is run. -/
theorem runProgram {u : Nat} {global : Nat} (hu : D.unit u) (hg : ∀ f, D.scope [f, global])
    (h : ∀ {prepared s}, setup.programs[u]? = some prepared → s ∈ prepared.program.body →
      L.node { p with unit := u } (.stmt s)) :
    D.Agree p (E.runProgram u [global]) (E'.runProgram u [global]) fun _ => True := by
  unfold Evaluator.runProgram
  refine .inUnit hu ((Agree.template (D.root hu)).bind fun t ht => ?_)
  refine (Agree.instantiate hg ht).bind fun inner hinner => .read ?_
  cases hprepared : setup.programs[u]? with
  | none =>
    refine .throw fun s hs hp => D.missing hs ?_
    have hunit : s.unit = u := congrArg Position.unit hp
    rw [hunit]
    exact hprepared
  | some prepared => exact hE.walkAll hinner _ fun s hmem => h hprepared hmem

/-! ## Functions -/

omit hE in
/-- The initializers of parameters are licensed if what the function runs is. -/
theorem initializer_of_runs {fn : Script.Function}
    (h : ∀ n ∈ fn.runs setup.options.strict, L.Covers p n) :
    ∀ b ∈ fn.params.items, ∀ e ∈ b.init, L.node p (.expr e) := by
  intro b hb e he
  have hinit : Node.expr e ∈ Script.HoistStep.initializers fn.params :=
    List.mem_filterMap.2 ⟨b, hb, by rw [Option.mem_def.1 he]; rfl⟩
  unfold Script.Function.runs at h
  split at h
  · exact (h _ (List.mem_append_left _ hinit)).node
  · obtain ⟨b, hb, hc⟩ := Node.exists_binding_of_mem_initializers hinit
    exact (((h (.params fn.params) (by simp)).part hb).part hc).node

omit hE in
/-- Where constructs are passed over, the targets of parameters are licensed as well. -/
theorem target_of_runs {fn : Script.Function}
    (h : ∀ n ∈ fn.runs setup.options.strict, L.Covers p n)
    (hstrict : setup.options.strict = false) :
    ∀ b ∈ fn.params.items, L.node p (.ofPattern b.target) := by
  intro b hb
  rw [hstrict] at h
  have hbinding : Node.binding b ∈ (Node.params fn.params).parts := by
    generalize fn.params = params at hb
    cases params
    exact List.mem_append_left _ (List.mem_map_of_mem hb)
  refine (((h (.params fn.params) (by simp [Script.Function.runs])).part hbinding).part ?_).node
  cases b
  simp [Node.parts, Node.children, Script.Binding.target]

/-- A parameter is bound alike: a name in the frame of the call, a pattern by an activity. -/
theorem bindParam {α : Type} {x x' : Run α} {Q : α → Prop} (hs : D.scope stack) (frame : Nat)
    (b : Script.Binding) (hb : setup.options.strict = false → L.node p (.ofPattern b.target))
    (value : Operand) (hx : D.Agree p x x' Q) :
    D.Agree p (E.bindParam frame stack b value x) (E'.bindParam frame stack b value x') Q := by
  unfold Evaluator.bindParam
  split
  · exact (Agree.define ..).seq hx
  · next target _ =>
    refine (Agree.passOver ..).bind fun _ hstrict => ?_
    exact (hE.bind hs (D.installs_lexical p) (hb hstrict)).seq hx

/-- Parameters are bound alike, defaults included. -/
theorem bindItems (hs : D.scope stack) (frame : Nat) {items : List Script.Binding}
    (hi : ∀ b ∈ items, ∀ e ∈ b.init, L.node p (.expr e))
    (ht : setup.options.strict = false → ∀ b ∈ items, L.node p (.ofPattern b.target))
    (args : List Operand) :
    D.Agree p (E.bindItems frame stack items args) (E'.bindItems frame stack items args)
      fun _ => True := by
  induction items generalizing args with
  | nil => exact .pure trivial
  | cons b rest ih =>
    have hrest := fun args => ih (fun b hmem => hi b (List.mem_cons_of_mem _ hmem))
      (fun hstrict b hmem => ht hstrict b (List.mem_cons_of_mem _ hmem)) args
    have hb : setup.options.strict = false → L.node p (.ofPattern b.target) := fun hstrict =>
      ht hstrict b (by simp)
    unfold Evaluator.bindItems
    cases hinit : b.init with
    | none => exact hE.bindParam hs frame b hb _ (hrest _)
    | some init =>
      refine (hE.resolve hs (hi b (by simp) init hinit)).bind fun fallback _ => ?_
      refine (Agree.deref _).bind fun _ _ => (Agree.deref _).bind fun _ _ => ?_
      exact hE.bindParam hs frame b hb _ (hrest _)

/-- Parameters, the rest included, are bound alike in a frame of the call. -/
theorem bindParamsIn (hs : D.scope stack) {fn : Script.Function}
    (h : ∀ n ∈ fn.runs setup.options.strict, L.Covers p n) (frame : Nat) (args : List Operand) :
    D.Agree p (E.bindParamsIn frame stack fn.params args)
      (E'.bindParamsIn frame stack fn.params args)
      fun result => result = stack := by
  refine (hE.bindItems hs frame (initializer_of_runs h) (target_of_runs h) args).bind
    fun left _ => ?_
  split
  · exact .pure rfl
  · refine (Agree.derefAll left).bind fun r _ => (arrayOf r).bind fun _ _ => ?_
    exact (Agree.define ..).seq (.pure rfl)
  · exact (Agree.unsupported ..).seq (.pure rfl)

/-- The frame of a call is made and filled alike, and may be seen. -/
theorem bindParams {self : Value} {fn : Closure} {code : Code} (hs : D.scope fn.scope)
    (h : ∀ n ∈ code.literal.runs setup.options.strict, L.Covers p n) (args : List Operand) :
    D.Agree p (E.bindParams self fn code args) (E'.bindParams self fn code args) D.scope := by
  have hend : ∀ frame, D.Agree p (E.bindParamsIn frame (frame :: fn.scope) code.literal.params args)
      (E'.bindParamsIn frame (frame :: fn.scope) code.literal.params args) D.scope := by
    intro frame
    have hstack : D.scope (frame :: fn.scope) := D.push frame hs
    refine (hE.bindParamsIn hstack h frame args).imp ?_
    rintro _ rfl
    exact hstack
  unfold Evaluator.bindParams
  refine (Agree.newFrame _).bind fun frame _ => ?_
  cases code.literal.isArrow with
  | true => exact hend frame
  | false =>
    cases fn.name.isEmpty with
    | true =>
      refine (Agree.derefAll args).bind fun r _ => (arrayOf r).bind fun _ _ => ?_
      exact (Agree.define ..).seq (hend frame)
    | false =>
      refine (Agree.define ..).seq ?_
      refine (Agree.derefAll args).bind fun r _ => (arrayOf r).bind fun _ _ => ?_
      exact (Agree.define ..).seq (hend frame)

/-- The body of a function agrees, be it a block or an expression. -/
theorem runBody [D.Abreast] {code : Code} (hs : D.scope stack)
    (h : L.Covers p (.ofBody code.literal.body)) :
    D.Agree p (E.runBody code stack) (E'.runBody code stack) fun _ => True := by
  unfold Evaluator.runBody
  cases hbody : code.literal.body with
  | block b =>
    rw [hbody] at h
    exact hE.walkCovered hs false h
  | expression value =>
    rw [hbody] at h
    have hvalue : L.Covers p (.expr value) :=
      h.part (by simp [Node.ofBody, Node.parts, Node.children])
    exact hE.value hs hvalue.node

end

/-- Both computations follow a call, or both skip it, where ceilings are the same. -/
theorem admits [D.Level] (fn : Closure) (site : Site) :
    D.Keeps p (Evaluator.admits fn site) fun _ => True := by
  refine ⟨fun s hs hp => ?_⟩
  have htwin : Evaluator.admits fn site D.twin s = Evaluator.admits fn site setup s := by
    rw [D.twin_eq, Setup.Indifferent.admits]
  unfold AgreeAt
  rcases admits_eq setup fn site s with
    ⟨heq, -⟩ | ⟨skip, log, -, hdue, heq⟩ | ⟨hmax, heq⟩
  · rw [htwin, heq]
    exact ⟨.refl _ _, hs, D.refl s, trivial⟩
  · rw [htwin, heq]
    obtain ⟨hskipped, hle⟩ := D.change hs (.skip hdue)
    obtain ⟨hinv, hle'⟩ := D.change hskipped (.note log _)
    exact ⟨.refl _ _, hinv, D.trans hle hle', trivial⟩
  · rw [htwin, heq]
    exact .inr ⟨.refl _ _, hs, D.refl s, D.expected hmax⟩

/-- A call agrees if both computations follow it or skip it, and what it runs agrees. -/
theorem callFunctionOf [D.Abreast] (id : Nat) (c : CallSite) {s : State} (hs : D.inv s)
    (hadmits : setup.canceled = false → ∀ fn, s.heap.closure? id = some fn →
      D.AgreeAt s (Evaluator.admits fn c.site) (Evaluator.admits fn c.site) fun _ => True)
    (hrun : ∀ fn code log, s.heap.closure? id = some fn → fn.code = some code →
      s.depth < setup.callLevels → s.Affords setup.options fn.key → D.inv { s with log } →
      D.AgreeAt { s with log } (counted fn.key (E.runCode (.function id) fn code c.args))
        (counted fn.key (E'.runCode (.function id) fn code c.args)) fun _ => True) :
    D.AgreeAt s (E.callFunction id c) (E'.callFunction id c) fun _ => True := by
  unfold Evaluator.callFunction
  refine (Agree.checkCanceled.run s hs rfl).bindAt fun _ t ht _ _ _ => ?_
  rw [checkCanceled_eq] at ht
  obtain ⟨hcanceled, rfl⟩ : setup.canceled = false ∧ t = s := by
    split at ht
    · cases ht
    · next hcanceled =>
      cases ht
      exact ⟨by simpa using hcanceled, rfl⟩
  refine .get ?_
  cases hfn : t.heap.closure? id with
  | none => exact .pure hs trivial
  | some fn =>
    refine (hadmits hcanceled fn hfn).bindAt fun followed u hu _ hinv _ => ?_
    cases followed with
    | false => exact .pure hinv trivial
    | true =>
      -- a call that is followed is followed from the state as it is
      obtain ⟨rfl, hdepth, hafford⟩ : u = t ∧ t.depth < setup.callLevels ∧
          t.Affords setup.options fn.key := by
        rcases admits_eq setup fn c.site t with
          ⟨heq, hdepth, hafford⟩ | ⟨skip, log, -, -, heq⟩ | ⟨-, heq⟩ <;> cases heq.symm.trans hu
        exact ⟨rfl, hdepth, hafford⟩
      refine ((Agree.mapM_deref c.args).run u hs rfl).bindAt fun args v hv _ _ _ => ?_
      cases (FrozenGlobals.mapM_deref c.args u).symm.trans hv
      refine .read ((Agree.log.run u hs rfl).bindAt fun _ w hw _ hinv _ => ?_)
      obtain ⟨entries, hlog⟩ := log_ok setup .debug _ u
      cases hlog.symm.trans hw
      cases hcode : fn.code with
      | none => exact .pure hinv trivial
      | some code =>
        have hrun := hrun fn code entries hfn hcode hdepth hafford hinv
        refine .get ?_
        dsimp only
        split
        · exact hrun
        · exact hrun

section
variable (hE : Agrees D L E E')
include hE

/-- What a call runs agrees. -/
theorem runCode [D.Abreast] {self : Value} {fn : Closure} {code : Code} (hs : D.scope fn.scope)
    (hunit : D.unit code.unit)
    (h : ∀ n ∈ code.literal.runs setup.options.strict, L.Covers { p with unit := code.unit } n)
    (args : List Operand) :
    D.Agree p (E.runCode self fn code args) (E'.runCode self fn code args) fun _ => True := by
  refine .inUnit hunit ((hE.bindParams hs h args).bind fun stack hs => ?_)
  exact hE.runBody hs (h _ (code.literal.ofBody_mem_runs _))

/-- A call agrees where both computations follow it or skip it. -/
theorem callFunctionAt [D.Abreast] [D.Counting] (h : L.Enters D p) (id : Nat) (c : CallSite)
    {s : State} (hs : D.inv s) (hp : s.position = p)
    (hadmits : setup.canceled = false → ∀ fn, s.heap.closure? id = some fn →
      D.AgreeAt s (Evaluator.admits fn c.site) (Evaluator.admits fn c.site) fun _ => True) :
    D.AgreeAt s (E.callFunction id c) (E'.callFunction id c) fun _ => True := by
  subst hp
  refine callFunctionOf id c hs hadmits fun fn code log hfn hcode hdepth _ hinv => ?_
  obtain ⟨hscope, hcodes⟩ := D.closure hs hfn
  have hrun : D.Agree s.position (counted fn.key (E.runCode (.function id) fn code c.args))
      (counted fn.key (E'.runCode (.function id) fn code c.args)) fun _ => True :=
    .counted hdepth (hE.runCode hscope (D.runnable (hcodes code hcode))
      (fun _ => h (hcodes code hcode) hdepth) c.args)
  exact hrun.run _ hinv rfl

/-- Calls of a function agree if what it runs is licensed one level deeper. -/
theorem callFunction [D.Level] [D.Counting] (h : L.Enters D p) (id : Nat) (c : CallSite) :
    D.Agree p (E.callFunction id c) (E'.callFunction id c) fun _ => True :=
  ⟨fun s hs hp => hE.callFunctionAt h id c hs hp fun _ fn _ => (admits fn c.site).run s hs hp⟩

/-- Calls of what is no function of a script. -/
theorem invokeNative {v : Value} {c : CallSite} (hv : D.Calls p v c)
    (hn : ∀ b, v = .builtin b → L.Passes p c) (hf : ∀ id, v ≠ .function id) :
    D.Agree p (E.invokeStep v c) (E'.invokeStep v c) fun _ => True := by
  unfold Evaluator.invokeStep
  cases v with
  | intrinsic i => exact callIntrinsic i (hv.resolve_left (by simp))
  | builtin b => exact hE.callBuiltin (hn b rfl) b (hv.resolve_left (by simp))
  | function id => exact absurd rfl (hf id)
  | primitive _ | object _ | array _ => exact .pure trivial

/-- A call of any value agrees, if native methods may pass on calls and functions may be entered. -/
theorem invokeStep [D.Level] [D.Counting] {v : Value} {c : CallSite} (hv : D.Calls p v c)
    (hn : ∀ b, v = .builtin b → L.Passes p c) (hf : ∀ id, v = .function id → L.Enters D p) :
    D.Agree p (E.invokeStep v c) (E'.invokeStep v c) fun _ => True := by
  by_cases h : ∃ id, v = .function id
  · obtain ⟨id, rfl⟩ := h
    exact hE.callFunction (hf id rfl) id c
  · exact hE.invokeNative hv hn fun id hid => h ⟨id, hid⟩

/-! ## External code -/

/-- An implementation agrees if programs may be entered below the anchor of the call. -/
theorem runImplementation {span : Span} (h : L.Follows D p span) {impl : Implementation}
    (himpl : ∀ u, impl.program = some u → setup.Implements u) (c : CallSite) (index : Nat) :
    D.Agree (p.anchored span) (E.runImplementation c index impl)
      (E'.runImplementation c index impl) fun _ => True := by
  unfold Evaluator.runImplementation
  cases hu : impl.program with
  | none => exact .throw_expected trivial
  | some u =>
    refine (Agree.newGlobals _).bind fun frame _ => ?_
    refine (hE.runProgram (D.external (himpl u hu)) (fun _ => h.program _ _)
      fun hprepared hs => ?_).bind fun handlers _ => ?_
    · exact (h.implement (himpl u hu) hprepared hs).node
    · exact hE.invokeAll fun v _ => h.handler v _

/-- The callbacks that are found for a path agree, run one after another. -/
theorem followCallbacks {resolver : Resolver} (hr : setup.resolver = some resolver) {c : CallSite}
    (h : L.Follows D p c.site.span) (path : Path) :
    D.Agree p (E.followCallbacks resolver path c) (E'.followCallbacks resolver path c)
      fun _ => True := by
  unfold Evaluator.followCallbacks
  refine .within ((Agree.modify fun s _ _ => ?_).seq ?_)
  · exact .note s.log _
  · cases himpls : resolver path with
    | error text => exact .throw_expected trivial
    | ok impls =>
      cases impls with
      | nil => exact .pure trivial
      | cons first rest =>
        refine Agree.log.seq ((Agree.anchor _).bind fun a ha => ?_)
        subst ha
        refine .anchored h.anchor (.foldlM fun entry hentry _ => ?_)
        have hmem : entry.1 ∈ first :: rest := List.fst_mem_of_mem_zipIdx hentry
        refine (hE.runImplementation h (fun u hu => ?_) c entry.2).bind
          fun _ _ => .pure trivial
        exact ⟨resolver, path, _, _, hr, himpls, hmem, hu⟩

/-! ## Call expressions -/

variable (hs : D.scope stack)
include hs

/-- Arguments agree, those after a spread folded into one. -/
theorem arguments {args : List Expr} (h : ∀ e ∈ args, L.Covers p (.expr e)) (callee : Operand)
    (tail : Option Reference) :
    D.Agree p (E.arguments callee stack args tail) (E'.arguments callee stack args tail)
      fun _ => True := by
  fun_induction Evaluator.arguments E callee stack args tail with
  | case1 | case2 => exact .pure trivial
  | case3 inner rest tail ih =>
    have hinner : L.Covers p (.expr inner) :=
      (h (.spread inner) (by simp)).part (by simp [Node.parts, Node.children, Expr.children])
    have hrest : ∀ source, D.Agree p
        (do
          let items ← Evaluator.elements (← deref source)
          E.arguments callee stack rest (some ((tail.getD .empty).union items)))
        (do
          let items ← Evaluator.elements (← deref source)
          E'.arguments callee stack rest (some ((tail.getD .empty).union items)))
        fun _ => True := fun source =>
      (Agree.deref source).bind fun r _ => (elements r).bind fun items _ =>
        ih items fun e he => h e (List.mem_cons_of_mem _ he)
    refine (hE.resolve hs hinner.node).bind fun source _ => ?_
    refine (Agree.deref callee).bind fun r _ => ?_
    split
    · exact hrest source
    · exact (Agree.unsupported ..).seq (hrest source)
  | case4 e rest hne ih =>
    rw [Evaluator.arguments]
    · refine (hE.resolve hs (h e (by simp)).node).bind fun _ _ => ?_
      exact (ih fun e he => h e (List.mem_cons_of_mem _ he)).bind fun _ _ => .pure trivial
    · exact hne
  | case5 e rest tail hne ih =>
    rw [Evaluator.arguments]
    · refine (hE.value hs (h e (by simp)).node).bind fun r _ => ?_
      exact ih r fun e he => h e (List.mem_cons_of_mem _ he)
    · exact hne

/-- The callee of a call agrees, with its receiver. -/
theorem calleeOf {callee : Expr} (h : L.Covers p (.expr callee))
    (hc : ∀ {v c}, D.Calls p v c → L.call p v c) :
    D.Agree p (E.calleeOf callee stack) (E'.calleeOf callee stack) fun _ => True := by
  unfold Evaluator.calleeOf
  have hinner := h.unwrapOptional
  revert hinner
  cases unwrapOptional callee with
  | dot span object name =>
    intro hinner
    have hobject := hinner.part (c := .expr object)
      (by simp [Node.parts, Node.children, Expr.children])
    refine (hE.memberDot hs hobject.node).bind fun member _ => ?_
    exact (hE.readMember hc member.1 member.2 _).bind fun _ _ => .pure trivial
  | bracket span object key =>
    intro hinner
    have hobject := hinner.part (c := .expr object)
      (by simp [Node.parts, Node.children, Expr.children])
    have hkey := hinner.part (c := .expr key)
      (by simp [Node.parts, Node.children, Expr.children])
    refine (hE.memberBracket hs hobject.node hkey.node).bind fun member _ => ?_
    exact (hE.readMember hc member.1 member.2 _).bind fun _ _ => .pure trivial
  | _ => exact fun hinner => (hE.resolve hs hinner.node).bind fun _ _ => .pure trivial

/-- Call expressions agree. -/
theorem call {span : Span} {callee : Expr} {args : List Expr}
    (h : L.Allows D p (.expr (.call span callee args)))
    (hf : setup.resolver.isSome → L.Follows D p span) :
    D.Agree p (E.call span callee args stack) (E'.call span callee args stack)
      fun _ => True := by
  have hcallee : L.Covers p (.expr callee) :=
    h.part (by simp [Node.parts, Node.children, Expr.children])
  have hargs : ∀ e ∈ args, L.Covers p (.expr e) := fun e he =>
    h.part (by simp [Node.parts, Node.children, Expr.children, he])
  unfold Evaluator.call
  refine (hE.calleeOf hs hcallee h.call).bind fun found _ => ?_
  obtain ⟨target, source⟩ := found
  refine (hE.arguments hs hargs target none).bind fun args _ => ?_
  refine (Agree.deref target).bind fun r _ => ?_
  refine (hE.invokeAll fun v _ => h.call (.inr (h.place rfl))).bind fun result _ => .read ?_
  cases source with
  | none => exact .pure trivial
  | some member =>
  obtain ⟨receiver, key⟩ := member
  cases hr : setup.resolver with
  | none => exact .pure trivial
  | some resolver =>
    refine (Agree.deref target).bind fun r _ => ?_
    split
    · exact .pure trivial
    · refine .get fun s _ _ => (Agree.deref receiver).bind fun r _ => ?_
      cases s.provenance.findAny? r with
      | none => exact .pure trivial
      | some path =>
        refine (hE.followCallbacks hr ?_ _).bind fun _ _ => .pure trivial
        exact hf (by simp [hr])

/-- `new` expressions agree. -/
theorem construct {span : Span} {callee : Expr} {args : List Expr}
    (h : L.Allows D p (.expr (.construct span callee args))) :
    D.Agree p (E.construct span callee args stack) (E'.construct span callee args stack)
      fun _ => True := by
  have hcallee : L.Covers p (.expr callee) :=
    h.part (by simp [Node.parts, Node.children, Expr.children])
  have hargs : ∀ e ∈ args, L.Covers p (.expr e) := fun e he =>
    h.part (by simp [Node.parts, Node.children, Expr.children, he])
  unfold Evaluator.construct
  refine (hE.resolve hs hcallee.unwrapOptional.node).bind fun target _ => ?_
  refine (hE.arguments hs hargs target none).bind fun args _ => ?_
  refine (Agree.deref target).bind fun r _ => ?_
  refine Agree.bind (Q := fun _ => True) (.mapM fun v _ => ?_) fun results _ => ?_
  · unfold Evaluator.constructWith
    cases v with
    | intrinsic i =>
      exact (hE.invoke (h.call (.inr (h.place rfl)))).bind fun _ _ => .pure trivial
    | function id =>
      refine (hE.invoke (h.call (.inl ⟨id, rfl⟩))).bind fun _ _ => ?_
      exact (Agree.newObject _).bind fun _ _ => .pure trivial
    | primitive _ | object _ | array _ | builtin _ => exact .pure trivial
  · split
    · exact .pure trivial
    · exact Agree.seq .warn (.pure trivial)

/-! ## Expressions -/

/-- Array literals agree. -/
theorem arrayLiteral {span : Span} {items : List (Option Expr)}
    (h : L.Allows D p (.expr (.array span items))) :
    D.Agree p (E.arrayLiteral items stack) (E'.arrayLiteral items stack) fun _ => True := by
  refine Agree.bind (Q := fun _ => True) (.mapM fun item hitem => ?_) fun r _ =>
    (arrayOf _).bind fun _ _ => .pure trivial
  unfold Evaluator.arrayItem
  cases item with
  | none => exact .pure trivial
  | some e =>
    have he : L.Covers p (.expr e) := h.part (by
      simp only [Node.parts, Node.children, Expr.children]
      exact List.mem_map_of_mem (List.mem_filterMap.2 ⟨_, hitem, rfl⟩))
    cases e with
    | spread inner =>
      have hinner : L.Covers p (.expr inner) :=
        he.part (by simp [Node.parts, Node.children, Expr.children])
      refine (hE.value hs hinner.node).bind fun r _ => ?_
      exact (elements _).imp fun _ _ => trivial
    | _ => exact hE.value hs he.node

omit hE hs in
/-- Functions are made accessors alike. -/
theorem markAccessors (a : Accessor) (r : Reference) :
    D.Keeps p (Evaluator.markAccessors a r) fun _ => True := by
  refine .forM fun v _ => ?_
  cases v with
  | function id => exact .modify fun _ _ _ => .accessor id a
  | _ => exact .pure trivial

/-- A property of an object literal is added alike. -/
theorem addProperty {property : Script.Property} (h : L.Covers p (.property property))
    (o : ObjectCell) :
    D.Agree p (E.addProperty stack o property) (E'.addProperty stack o property)
      fun _ => True := by
  unfold Evaluator.addProperty
  cases property with
  | short id fallback =>
    exact (Agree.lookup ..).bind fun _ _ => (Agree.deref _).bind fun _ _ => .pure trivial
  | keyed key computed kind value =>
    have hkey : L.Covers p (.expr key) := h.part (by simp [Node.parts, Node.children])
    have hvalue : L.Covers p (.expr value) := h.part (by simp [Node.parts, Node.children])
    refine (hE.propertyKey hs hkey.node).bind fun k _ => ?_
    refine (hE.value hs hvalue.node).bind fun r _ => ?_
    cases kind.accessor? with
    | some a => exact (markAccessors a r).seq (.pure trivial)
    | none => exact .pure trivial
  | spread inner =>
    have hinner : L.Covers p (.expr inner) := h.part (by simp [Node.parts, Node.children])
    exact (hE.value hs hinner.node).bind fun _ _ => .get fun _ _ _ => .pure trivial

/-- Object literals agree. -/
theorem objectLiteral {span : Span} {properties : List Script.Property}
    (h : L.Allows D p (.expr (.object span properties))) :
    D.Agree p (E.objectLiteral properties stack) (E'.objectLiteral properties stack)
      fun _ => True := by
  refine Agree.bind (Q := fun _ => True) (.foldlM fun property hmem o => ?_) fun _ _ =>
    (Agree.newObject _).bind fun _ _ => .pure trivial
  exact hE.addProperty hs (h.part (by
    simp only [Node.parts, Node.children, Expr.children]
    exact List.mem_map_of_mem hmem)) o

omit hE hs in
/-- Expressions whose value is not tracked agree. -/
theorem untracked (e : Expr) : D.Keeps p (Evaluator.untracked e) fun _ => True :=
  Agree.seq .warn (.pure trivial)

/-- Expressions of every form agree. -/
theorem resolveStep {e : Expr} (h : L.Allows D p (.expr e))
    (hfn : ∀ fn, e = .function fn → D.code p.unit fn)
    (hcall : ∀ span callee args, e = .call span callee args → setup.resolver.isSome →
      L.Follows D p span) :
    D.Agree p (E.resolveStep e stack) (E'.resolveStep e stack) fun _ => True := by
  have part : ∀ {inner : Expr}, Node.expr inner ∈ (Node.expr e).parts → L.node p (.expr inner) :=
    fun hmem => (h.part hmem).node
  cases e with
  | identifier id => exact (Agree.lookup ..)
  | string _ _ | boolean _ _ | null _ | regExp _ => exact .pure trivial
  | number _ value => cases value <;> exact .pure trivial
  | template span tag parts =>
    refine Agree.seq (Q := fun _ => True) (.forM fun e he => hE.visit hs (part ?_)) ?_
    · simp [Node.parts, Node.children, Expr.children, he]
    · cases tag with
      | none => exact .pure trivial
      | some tag =>
        refine (hE.visit hs (part ?_)).seq (Agree.seq .warn (.pure trivial))
        simp [Node.parts, Node.children, Expr.children]
  | array span items => exact hE.arrayLiteral hs h
  | object span properties => exact hE.objectLiteral hs h
  | function fn => exact (Agree.newFunction hs (hfn fn rfl)).bind fun _ _ => .pure trivial
  | classLiteral cls =>
    refine (hE.visit? hs fun e he => part ?_).seq (untracked _)
    simpa [Node.parts] using he
  | call span callee args => exact hE.call hs h (hcall span callee args rfl)
  | construct span callee args => exact hE.construct hs h
  | dot span object name =>
    refine (hE.memberDot hs (part ?_)).bind fun member _ => hE.readMember h.call _ _ _
    simp [Node.parts, Node.children, Expr.children]
  | bracket span object key =>
    refine (hE.memberBracket hs (part ?_) (part ?_)).bind fun member _ =>
      hE.readMember h.call _ _ _
    · simp [Node.parts, Node.children, Expr.children]
    · simp [Node.parts, Node.children, Expr.children]
  | privateDot span object name =>
    refine (hE.visit hs (part ?_)).seq (.pure trivial)
    simp [Node.parts, Node.children, Expr.children]
  | assign span op target value => exact assign hs hE h
  | unary span op operand =>
    cases op with
    | delete => exact deleteProperty hs hE h
    | _ =>
      refine (hE.visit hs (part ?_)).seq (.pure trivial)
      simp [Node.parts, Node.children, Expr.children]
  | update span operand => exact update hs hE h
  | binary span op left right =>
    refine (hE.resolve hs (part ?_)).bind fun l _ => (hE.resolve hs (part ?_)).bind fun r _ => ?_
    · simp [Node.parts, Node.children, Expr.children]
    · simp [Node.parts, Node.children, Expr.children]
    · exact (Agree.deref l).bind fun _ _ => (Agree.deref r).bind fun _ _ => .pure trivial
  | conditional span test yes no =>
    refine (hE.visit hs (part ?_)).seq ?_
    · simp [Node.parts, Node.children, Expr.children]
    · refine (hE.resolve hs (part ?_)).bind fun l _ =>
        (hE.resolve hs (part ?_)).bind fun r _ => ?_
      · simp [Node.parts, Node.children, Expr.children]
      · simp [Node.parts, Node.children, Expr.children]
      · exact (Agree.deref l).bind fun _ _ => (Agree.deref r).bind fun _ _ => .pure trivial
  | sequence span items =>
    refine .foldlM fun e he _ => hE.resolve hs (part ?_)
    simp [Node.parts, Node.children, Expr.children, he]
  | optional inner | optionalChain inner | spread inner =>
    refine hE.resolve hs (part ?_)
    simp [Node.parts, Node.children, Expr.children]
  | yield span argument =>
    refine (hE.visit? hs fun e he => part ?_).seq (untracked _)
    simpa [Node.parts, Node.children, Expr.children] using he
  | await span argument =>
    refine (hE.visit hs (part ?_)).seq (untracked _)
    simp [Node.parts, Node.children, Expr.children]
  | privateName _ _ | thisValue _ | superValue _ | newTarget _ => exact untracked _

/-! ## Statements -/

/-- A declarator agrees, whatever it declares. -/
theorem declare {how : Install} (hhow : D.Installs p how) {b : Script.Binding}
    (h : L.Covers p (.binding b)) :
    D.Agree p (E.declare how stack b) (E'.declare how stack b) fun _ => True := by
  obtain ⟨target, init⟩ := b
  have htarget : L.Covers p (.ofPattern target) := h.part (by simp [Node.parts, Node.children])
  refine (hE.resolve? hs fun e he => (h.part ?_).node).bind fun _ _ =>
    hE.bind hs hhow htarget.node
  simp only [Node.parts, Node.children, List.mem_cons, List.mem_map, Option.mem_toList]
  exact .inr ⟨e, he, rfl⟩

/-- The declarators of a declaration agree, in order. -/
theorem declareAll {how : Install} (hhow : D.Installs p how) {bindings : List Script.Binding}
    (h : ∀ b ∈ bindings, L.Covers p (.binding b)) :
    D.Agree p (bindings.forM (E.declare how stack)) (bindings.forM (E'.declare how stack))
      fun _ => True :=
  .forM fun b hb => hE.declare hs hhow (h b hb)

/-- The head of a `for` loop agrees. -/
theorem forInit {init : Option Script.ForInit} (h : ∀ i ∈ init, L.Covers p (.forInit i)) :
    D.Agree p (E.forInit init stack) (E'.forInit init stack) fun _ => True := by
  unfold Evaluator.forInit
  cases init with
  | none => exact .pure trivial
  | some init =>
    have hinit := h init rfl
    cases init with
    | expression e =>
      exact hE.visit hs (hinit.part (c := .expr e) (by simp [Node.parts, Node.children])).node
    | declareVar bindings =>
      exact hE.declareAll hs (D.installs_variable p) fun b hb =>
        hinit.part (by simp [Node.parts, Node.children, hb])
    | declareLexical span bindings =>
      exact hE.declareAll hs (D.installs_lexical p) fun b hb =>
        hinit.part (by simp [Node.parts, Node.children, hb])

/-- The target of a loop over a collection agrees. -/
theorem forTarget {target : Script.ForTarget} (h : L.Covers p (.forTarget target))
    (hc : ∀ {v c}, D.Calls p v c → L.call p v c) (value : Operand) {site : Site}
    (hplace : ∀ t, target = .assign t → D.place p.unit site.span) :
    D.Agree p (E.forTarget target value site stack) (E'.forTarget target value site stack)
      fun _ => True := by
  unfold Evaluator.forTarget
  cases target with
  | declareVar b =>
    obtain ⟨target, init⟩ := b
    have hb := h.part (c := .binding (.mk target init)) (by simp [Node.parts, Node.children])
    have htarget := hb.part (c := .ofPattern target) (by simp [Node.parts, Node.children])
    exact hE.bind hs (D.installs_variable p) htarget.node
  | declareLexical start target =>
    have htarget := h.part (c := .ofPattern target) (by simp [Node.parts, Node.children])
    exact hE.bind hs (D.installs_lexical p) htarget.node
  | assign target =>
    have htarget := h.part (c := .ofPattern target) (by simp [Node.parts, Node.children])
    cases target with
    | leaf e => exact assignTo hs hE htarget.part hc value (hplace _ rfl)
    | array _ _ _ | object _ _ _ => exact .unsupported ..

/-- The clauses of a `switch` agree, in order. -/
theorem walkCases (fold : Bool) {cases : List Script.Case}
    (h : ∀ c ∈ cases, L.Covers p (.clause c)) :
    D.Agree p (E.walkCases fold cases stack) (E'.walkCases fold cases stack) fun _ => True := by
  refine .foldlM fun clause hmem result => ?_
  obtain ⟨start, test, body⟩ := clause
  have hclause := h _ hmem
  refine (hE.visit? hs fun e he => (hclause.part ?_).node).seq ?_
  · simp only [Node.parts, Node.children, List.mem_append, List.mem_map, Option.mem_toList]
    exact .inl ⟨e, he, rfl⟩
  · refine (hE.walkAll hs fold fun s hs => (hclause.part ?_).node).bind fun _ _ => .pure trivial
    simp [Node.parts, Node.children, hs]

/-- A `catch` clause agrees. -/
theorem walkCatch [D.Abreast] (fold : Bool) {handler : Option Script.Catch}
    (h : ∀ c ∈ handler, L.Covers p (.handler c)) :
    D.Agree p (E.walkCatch fold handler stack) (E'.walkCatch fold handler stack)
      fun _ => True := by
  unfold Evaluator.walkCatch
  cases handler with
  | none => exact .pure trivial
  | some handler =>
    obtain ⟨start, parameter, body⟩ := handler
    have hhandler := h _ rfl
    have hbody : L.Covers p (.block body) :=
      hhandler.part (by simp [Node.parts, Node.children])
    refine (Agree.pushFrame hs).bind fun inner hinner => ?_
    cases parameter with
    | none => exact hE.walkCovered hinner fold hbody
    | some target =>
      have htarget : L.Covers p (.ofPattern target) :=
        hhandler.part (by simp [Node.parts, Node.children])
      exact (hE.bind hinner (D.installs_lexical p) htarget.node).seq
        (hE.walkCovered hinner fold hbody)

/-! ### Forms of statements -/

omit hE in
/-- A class declaration binds its name to nothing and warns. -/
theorem walkDeclareClass (fold : Bool) (cls : Script.Class) :
    D.Agree p (E.walkStep fold (.declareClass cls) stack)
      (E'.walkStep fold (.declareClass cls) stack) fun _ => True := by
  unfold Evaluator.walkStep
  dsimp only
  cases cls.name with
  | none => exact Agree.seq .warn (.pure trivial)
  | some id =>
    exact (Agree.top hs).bind fun _ _ => (Agree.define ..).seq (Agree.seq .warn (.pure trivial))

/-- Both branches of a conditional statement are run. -/
theorem walkIfElse (fold : Bool) {span : Span} {test : Expr} {yes : Stmt} {no : Option Stmt}
    (h : L.Allows D p (.stmt (.ifElse span test yes no))) :
    D.Agree p (E.walkStep fold (.ifElse span test yes no) stack)
      (E'.walkStep fold (.ifElse span test yes no) stack) fun _ => True := by
  refine (hE.visit hs (h.part ?_).node).seq ((hE.walk hs (h.part ?_).node).bind fun _ _ => ?_)
  · simp [Node.parts, Node.children, Stmt.children]
  · simp [Node.parts, Node.children, Stmt.children]
  · cases no with
    | none => exact .pure trivial
    | some no =>
      refine (hE.walk hs (h.part ?_).node).bind fun _ _ => .pure trivial
      simp [Node.parts, Node.children, Stmt.children]

/-- A `for` loop is run in a frame of its own. -/
theorem walkForLoop (fold : Bool) {span : Span} {init : Option Script.ForInit}
    {test update : Option Expr} {body : Stmt}
    (h : L.Allows D p (.stmt (.forLoop span init test update body))) :
    D.Agree p (E.walkStep fold (.forLoop span init test update body) stack)
      (E'.walkStep fold (.forLoop span init test update body) stack) fun _ => True := by
  refine (Agree.pushFrame hs).bind fun inner hinner => ?_
  refine (hE.forInit hinner fun i hi => h.part ?_).seq ?_
  · simp_all [Node.parts, Node.children, Stmt.children]
  refine (hE.visit? hinner fun e he => (h.part ?_).node).seq ?_
  · simp_all [Node.parts, Node.children, Stmt.children]
  refine (hE.walk hinner (h.part ?_).node).bind fun _ _ => ?_
  · simp [Node.parts, Node.children, Stmt.children]
  refine (hE.visit? hinner fun e he => (h.part ?_).node).seq (.pure trivial)
  simp_all [Node.parts, Node.children, Stmt.children]

/-- A loop over a collection binds its variable in a frame of its own. It is at fault itself if it
assigns to a target instead. -/
theorem walkForEach (fold : Bool) {span : Span} {kind : Script.LoopKind} {target : Script.ForTarget}
    {source : Expr} {body : Stmt}
    (h : L.Allows D p (.stmt (.forEach span kind target source body))) :
    D.Agree p (E.walkStep fold (.forEach span kind target source body) stack)
      (E'.walkStep fold (.forEach span kind target source body) stack) fun _ => True := by
  have htarget : L.Covers p (.forTarget target) :=
    h.part (by simp [Node.parts, Node.children, Stmt.children])
  have hbody : L.Covers p (.stmt body) :=
    h.part (by simp [Node.parts, Node.children, Stmt.children])
  have hplace : ∀ t, target = .assign t → D.place p.unit span := by
    rintro t rfl
    exact h.place rfl
  refine (Agree.pushFrame hs).bind fun inner hinner => ?_
  refine (hE.value hinner (h.part ?_).node).bind fun source _ => ?_
  · simp [Node.parts, Node.children, Stmt.children]
  cases kind with
  | forOf =>
    refine (Agree.getKey ..).bind fun value _ => ?_
    exact (hE.forTarget hinner htarget h.call _ hplace).seq (hE.walk hinner hbody.node)
  | forIn =>
    exact (hE.forTarget hinner htarget h.call _ hplace).seq (hE.walk hinner hbody.node)

/-- A `switch` opens a scope after its subject was evaluated. -/
theorem walkSwitch (fold : Bool) {span : Span} {subject : Expr} {cases : List Script.Case}
    (h : L.Allows D p (.stmt (.switchOn span subject cases))) (ho : D.enters p.unit span.start) :
    D.Agree p (E.walkStep fold (.switchOn span subject cases) stack)
      (E'.walkStep fold (.switchOn span subject cases) stack) fun _ => True := by
  refine (hE.visit hs (h.part ?_).node).seq ?_
  · simp [Node.parts, Node.children, Stmt.children]
  refine (Agree.template ho).bind fun t ht => ?_
  refine (Agree.instantiate (fun _ => D.push _ hs) ht).bind fun inner hinner => ?_
  refine hE.walkCases hinner fold fun c hc => h.part ?_
  simp [Node.parts, Node.children, Stmt.children, hc]

/-- The block, the handler and the finalizer of a `try` statement are all run. -/
theorem walkTry [D.Abreast] (fold : Bool) {span : Span} {body : Script.Block}
    {handler : Option Script.Catch} {finalizer : Option Script.Block}
    (h : L.Allows D p (.stmt (.tryCatch span body handler finalizer))) :
    D.Agree p (E.walkStep fold (.tryCatch span body handler finalizer) stack)
      (E'.walkStep fold (.tryCatch span body handler finalizer) stack) fun _ => True := by
  refine (hE.walkCovered hs fold (h.part ?_)).bind fun _ _ => ?_
  · simp [Node.parts, Node.children, Stmt.children]
  refine (hE.walkCatch hs fold fun c hc => h.part ?_).bind fun _ _ => ?_
  · simp_all [Node.parts, Node.children, Stmt.children]
  cases finalizer with
  | none => exact .pure trivial
  | some b =>
    refine (hE.walkCovered hs fold (h.part ?_)).bind fun _ _ => .pure trivial
    simp [Node.parts, Node.children, Stmt.children]

/-- Statements agree, form by form. Where blocks are entered, both computations are canceled or
neither of them is. -/
theorem walkStep (fold : Bool) {s : Stmt} (h : L.Allows D p (.stmt s))
    (ho : ∀ {start}, (Node.stmt s).hoistStep.opens = some start → D.enters p.unit start)
    (hblocks : s.entersBlocks = true → D.Abreast) :
    D.Agree p (E.walkStep fold s stack) (E'.walkStep fold s stack) fun _ => True := by
  have part : ∀ {n : Node}, n ∈ (Node.stmt s).parts → L.node p n := fun hmem => (h.part hmem).node
  cases s with
  | block b =>
    have := hblocks rfl
    obtain ⟨span, body⟩ := b
    refine hE.walkBlock hs fold (ho rfl) fun s hmem => part ?_
    simpa [Node.parts, Node.children, Stmt.children, Script.Block.body] using hmem
  | expression e =>
    refine (hE.value hs (part ?_)).bind fun _ _ => .pure trivial
    simp [Node.parts, Node.children, Stmt.children]
  | declareVar span bindings =>
    refine (hE.declareAll hs (D.installs_variable p) fun b hb => h.part ?_).seq (.pure trivial)
    simp [Node.parts, Node.children, Stmt.children, hb]
  | declareLexical span bindings =>
    refine (hE.declareAll hs (D.installs_lexical p) fun b hb => h.part ?_).seq (.pure trivial)
    simp [Node.parts, Node.children, Stmt.children, hb]
  | declareClass cls => exact walkDeclareClass hs fold cls
  | returnWith span argument =>
    refine (hE.resolve? hs fun e he => part ?_).bind fun _ _ =>
      (Agree.deref _).imp fun _ _ => trivial
    simpa [Node.parts, Node.children, Stmt.children] using he
  | throwWith span argument =>
    refine (hE.value hs (part ?_)).bind fun value _ => ?_
    · simp [Node.parts, Node.children, Stmt.children]
    · exact (Agree.modify fun _ _ _ => .throws value).seq (.pure trivial)
  | ifElse span test yes no => exact hE.walkIfElse hs fold h
  | forLoop span init test update body => exact hE.walkForLoop hs fold h
  | forEach span kind target source body => exact hE.walkForEach hs fold h
  | whileLoop span test body =>
    refine (hE.visit hs (part ?_)).seq (hE.walk hs (part ?_))
    · simp [Node.parts, Node.children, Stmt.children]
    · simp [Node.parts, Node.children, Stmt.children]
  | doWhile span body test =>
    refine (hE.walk hs (part ?_)).bind fun _ _ => (hE.visit hs (part ?_)).seq (.pure trivial)
    · simp [Node.parts, Node.children, Stmt.children]
    · simp [Node.parts, Node.children, Stmt.children]
  | switchOn span subject cases => exact hE.walkSwitch hs fold h (ho rfl)
  | tryCatch span body handler finalizer =>
    have := hblocks rfl
    exact hE.walkTry hs fold h
  | labelled span label body =>
    refine hE.walk hs (part ?_)
    simp [Node.parts, Node.children, Stmt.children]
  | withObject span object body =>
    refine (hE.visit hs (part ?_)).seq (Agree.seq .warn (hE.walk hs (part ?_)))
    · simp [Node.parts, Node.children, Stmt.children]
    · simp [Node.parts, Node.children, Stmt.children]
  | declareFunction _ | jump _ | empty _ | debugger _ => exact .pure trivial

end

/-! ## Steps -/

/-- A step agrees, statements and calls apart, if all it may ask for is licensed one level below. -/
theorem stepBy {L' : Licence} (hE : Agrees D L E E') (h : L'.Lifts L D)
    {walk walk' : Bool → Stmt → Stack → Run Reference}
    {invoke invoke' : Value → CallSite → Run Reference}
    (hwalk : ∀ {p fold s stack}, D.scope stack → L'.node p (.stmt s) →
      D.Agree p (walk fold s stack) (walk' fold s stack) fun _ => True)
    (hinvoke : ∀ {p v c}, L'.call p v c → D.Agree p (invoke v c) (invoke' v c) fun _ => True) :
    Agrees D L' ⟨E.resolveStep, E.bindStep, walk, invoke⟩
      ⟨E'.resolveStep, E'.bindStep, walk', invoke'⟩
    where
  opens := h.opens
  resolve {p e stack} hs hn := by
    refine hE.resolveStep hs (h.allows hn) (fun fn hfn => ?_) fun span callee args hcall hr => ?_
    · subst hfn
      exact h.function hn
    · subst hcall
      exact h.follow hr hn
  bind hs hhow hn := bindStep hs hE hhow (h.allows hn) _
  walk := hwalk
  invoke := hinvoke

/-- A step agrees, calls apart, if all it may ask for is licensed one level below. -/
theorem stepWith [D.Abreast] {L' : Licence} (hE : Agrees D L E E') (h : L'.Lifts L D)
    {invoke invoke' : Value → CallSite → Run Reference}
    (hinvoke : ∀ {p v c}, L'.call p v c → D.Agree p (invoke v c) (invoke' v c) fun _ => True) :
    Agrees D L'
      ⟨E.resolveStep, E.bindStep, E.walkStep, invoke⟩
      ⟨E'.resolveStep, E'.bindStep, E'.walkStep, invoke'⟩ :=
  hE.stepBy h (fun hs hn => hE.walkStep hs _ (h.allows hn) (h.opens hn) fun _ =>
    inferInstance) hinvoke

/-- A step agrees with a step one level below, where calls are counted alike. -/
theorem step [D.Level] [D.Counting] {L' : Licence} (hE : Agrees D L E E') (h : L'.Lifts L D) :
    Agrees D L'
      ⟨E.resolveStep, E.bindStep, E.walkStep, E.invokeStep⟩
      ⟨E'.resolveStep, E'.bindStep, E'.walkStep, E'.invokeStep⟩ := by
  refine hE.stepWith h fun {p v c} hn => ?_
  refine hE.invokeStep (h.site hn) (fun b hb => ?_) fun id hid => ?_
  · subst hb
    exact h.native hn
  · subst hid
    exact h.enter hn

end Evaluator.Agrees

/-! ## Analyses -/

namespace Setup

variable {setup : Setup} {D : Discipline setup} {globals : Host.Datum}

/-- The report on a program that an evaluator makes. -/
def reportWith (setup : Setup) (E : Evaluator) (globals : Host.Datum) : Run Report := do
  match setup.programs[0]? with
  | none => throw .invalidProgram
  | some main =>
      let frame ← newGlobals globals
      log .info fun s => ("Starting analysis",
        [("globals", .ofNat (s.heap.frame frame).bindings.length),
         ("containers", .ofNat s.provenance.size),
         ("statements", .ofNat main.program.body.length)])
      let _ ← E.runProgram 0 [frame]
      let s ← get
      let diagnostics := Diagnostic.dedupe s.diagnostics.toList
      log .info fun s => ("Analysis complete",
        [("raw", .ofNat s.diagnostics.size), ("diagnostics", .ofNat diagnostics.length),
         ("warnings", .ofNat s.warnings.size), ("calls", .ofNat s.calls), ("elapsed", .elapsed)])
      return ⟨diagnostics, s.warnings.toList⟩

/-- The report of an analysis is the one that its own evaluator makes. -/
theorem report_eq (setup : Setup) (globals : Host.Datum) :
    setup.report globals = setup.reportWith setup.evaluator globals := rfl

/-- Reports of two evaluators agree if their runs of the program do. -/
theorem agreeAt_reportWith {E E' : Evaluator} (hs : D.inv .start)
    (hnone : setup.programs[0]? = none → D.fails .invalidProgram)
    (hrun : ∀ frame s, newGlobals globals setup .start = .ok frame s → setup.programs[0]?.isSome →
      D.Agree ⟨0, 0, []⟩ (E.runProgram 0 [frame]) (E'.runProgram 0 [frame]) fun _ => True) :
    D.AgreeAt .start (setup.reportWith E globals) (setup.reportWith E' globals) fun _ => True := by
  unfold reportWith
  cases hmain : setup.programs[0]? with
  | none => exact (Agree.throw (p := ⟨0, 0, []⟩) fun _ _ _ => hnone hmain).run .start hs rfl
  | some main =>
    refine ((Agree.newGlobals globals).run .start hs rfl).of_result.bind ?_
    rintro frame t ⟨s, hframe⟩ ht hle
    refine Agree.run (p := ⟨0, 0, []⟩) (Agree.log.seq ?_) t ht (D.position hle)
    refine (hrun frame s hframe (by simp [hmain])).bind fun _ _ => ?_
    exact .get fun _ _ _ => Agree.log.seq (.pure trivial)

/-- A report keeps a discipline if a run of the program does. -/
theorem keeps_report (hs : D.inv .start)
    (hnone : setup.programs[0]? = none → D.fails .invalidProgram)
    (hrun : ∀ frame s, newGlobals globals setup .start = .ok frame s → setup.programs[0]?.isSome →
      D.Keeps ⟨0, 0, []⟩ (setup.evaluator.runProgram 0 [frame]) fun _ => True) :
    D.AgreeAt .start (setup.report globals) (setup.report globals) fun _ => True :=
  agreeAt_reportWith hs hnone hrun

/-- What a program evaluates to keeps a discipline if a run of the program does. -/
theorem keeps_evaluation (hs : D.inv .start)
    (hnone : setup.programs[0]? = none → D.fails .noProgram)
    (hrun : ∀ frame s, newGlobals globals setup .start = .ok frame s → setup.programs[0]?.isSome →
      D.Keeps ⟨0, 0, []⟩ (setup.evaluator.runProgram 0 [frame]) fun _ => True) :
    D.AgreeAt .start (setup.evaluation globals) (setup.evaluation globals) fun _ => True := by
  have hempty : setup.programs.isEmpty = setup.programs[0]?.isNone := by
    rw [Bool.eq_iff_iff]
    simp [Array.isEmpty]
  unfold Setup.evaluation
  rw [hempty]
  cases hmain : setup.programs[0]? with
  | none =>
    have hthrow : D.Keeps ⟨0, 0, []⟩ (throw .noProgram : Run Evaluation) fun _ => True :=
      .throw fun _ _ _ => hnone hmain
    exact hthrow.run .start hs rfl
  | some main =>
    refine ((Agree.newGlobals globals).run .start hs rfl).of_result.bind ?_
    rintro frame t ⟨s, hframe⟩ ht hle
    refine Agree.run (p := ⟨0, 0, []⟩) ?_ t ht (D.position hle)
    exact (hrun frame s hframe (by simp [hmain])).bind fun _ _ => .pure trivial

/-- A report is about the state that the analysis ends in. -/
theorem eq_of_report {report : Report} {s s' : State}
    (h : setup.report globals setup s = .ok report s') :
    report = ⟨Diagnostic.dedupe s'.diagnostics.toList, s'.warnings.toList⟩ := by
  unfold Setup.report at h
  cases hmain : setup.programs[0]? with
  | none =>
    rw [hmain] at h
    cases h
  | some main =>
    rw [hmain] at h
    obtain ⟨_, _, -, h⟩ := ok_of_bind h
    obtain ⟨_, _, -, h⟩ := ok_of_bind h
    obtain ⟨_, t, -, h⟩ := ok_of_bind h
    rw [get_bind] at h
    obtain ⟨_, _, hlog, h⟩ := ok_of_bind h
    obtain ⟨entries, heq⟩ := log_ok setup .info _ t
    cases heq.symm.trans hlog
    cases h
    rfl

/-- Where a computation that keeps a discipline ends, if it cannot give up. -/
theorem outcome_of_keeps [D.Alone] (hlost : ∀ f, ¬ D.lost f) {α : Type} {x : Run α}
    {Q : α → Prop} (h : D.AgreeAt .start x x Q) :
    D.inv (x.outcome setup).2 ∧ ∀ f, (x.outcome setup).1 = .error f → D.fails f := by
  unfold Discipline.AgreeAt at h
  unfold Run.outcome
  cases hx : x setup .start with
  | ok a s =>
    rw [hx] at h
    exact ⟨h.2.1, fun _ => nofun⟩
  | error f s =>
    rw [hx] at h
    obtain ⟨-, hs, -, hf⟩ := h.resolve_left (hlost f)
    refine ⟨hs, fun e he => ?_⟩
    cases he
    exact hf

end Setup

end FrozenGlobals
