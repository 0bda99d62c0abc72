import FrozenGlobals.Proofs.Chaining.Writing

/-!
# Calls and expressions without marks

Functions, external code and expressions follow if the evaluators one level below do.

A mark that is gone no longer takes up a level. The evaluator one level below answers for what stood
under it, so something has to be said about one more level: `Evaluator.Lasting` says that it makes
no difference once levels are enough.
-/

namespace FrozenGlobals

open Script (Span Expr Hoisting Place)

/-! ## Functions -/

/-- A function is shown under the same name without marks. -/
theorem Closure.displayName_unchained (fn : Closure) :
    fn.unchained.displayName = fn.displayName := rfl

/-- The second computation does what the first one does, unless that one ran out of levels. -/
def Setup.Outlasts (setup : Setup) {α : Type} (x x' : Run α) : Prop :=
  ∀ s, (∃ t, x setup s = .error .outOfFuel t) ∨ x' setup s = x setup s

namespace Setup.Follows

variable {setup : Setup}

/-- A call is refused, with a warning the first time. -/
theorem refuse (warned : Bool) {f f' : State → State} (message : String)
    (h : ∀ s, f' s.unchained = (f s).unchained) :
    setup.Follows
      (do
        unless warned do
          modify f
          Run.warn message
        return false)
      (do
        unless warned do
          modify f'
          Run.warn message
        return false) := by
  cases warned with
  | true => exact .pure false
  | false => exact (changes h).seq ((warn message).seq (.pure false))

/-- Whether a call is followed does not depend on marks. -/
theorem admits (fn : Closure) (site : Site) :
    setup.Follows (Evaluator.admits fn site) (Evaluator.admits fn.unchained site) := by
  unfold Evaluator.admits
  refine .read (.get fun s => ?_)
  have hafford : setup.Follows (Evaluator.affords fn setup.options.budget? s)
      (Evaluator.affords fn.unchained setup.options.budget? s.unchained) := by
    unfold Evaluator.affords
    rw [fn.key_unchained, fn.displayName_unchained, s.active_unchained, s.reentries_unchained,
      s.budgetWarned_unchained]
    split
    · exact .pure true
    · split
      · exact refuse _ _ fun _ => by rfl
      · exact .pure true
  rw [options_unchained, s.depth_unchained, s.ceilingWarned_unchained]
  dsimp only
  by_cases hmax : 0 ≤ setup.options.maxCallDepth
  · rw [if_pos hmax, if_pos hmax]
    split
    · exact (log .debug fun _ => by rfl).seq (refuse _ _ fun _ => by rfl)
    · exact hafford
  · rw [if_neg hmax, if_neg hmax]
    split
    · exact Follows.bind (.throw _) fun _ => hafford
    · exact hafford

/-- What follows with some levels follows with more of them. -/
theorem of_lasting {α : Type} {x x' x'' : Run α} (h : setup.Follows x x')
    (hlast : setup.unchained.Outlasts x' x'') : setup.Follows x x'' where
  run s := by
    have hx := h.run s
    rcases hlast s.unchained with ⟨t, ht⟩ | heq
    · rw [ht] at hx
      cases hxs : x setup s with
      | ok a s' =>
        rw [hxs] at hx
        cases hx
      | error e s' =>
        rw [hxs] at hx
        rcases hx with he | he
        · exact .inl he
        · cases he
          exact .inl rfl
    · rw [heq]
      exact hx

end Setup.Follows

namespace Evaluator

/-- One more level makes no difference to expressions, once levels are enough. -/
def Lasting (setup : Setup) (E : Evaluator) : Prop :=
  ∀ e stack, setup.Outlasts (E.resolve e stack) (E.resolveStep e stack)

namespace Follows

open Setup.Follows (deref derefAll define checkCanceled log warn unsupported newFrame newObject
  newFunction lookup)

variable {setup : Setup} {E E' : Evaluator} {stack : Stack} (hE : Follows setup E E')
include hE

/-! ## Scopes -/

/-- Statements in sequence follow. -/
theorem walkAll (fold : Bool) (body : List Script.Stmt) :
    setup.Follows (E.walkAll fold body stack)
      (E'.walkAll fold (body.map Script.Stmt.unchained) stack) := by
  unfold Evaluator.walkAll
  exact .foldlM (fun _ s => (hE.walk fold s stack).bind fun _ => .pure _) body _

/-- A block follows. -/
theorem walkBlock (fold : Bool) (b : Script.Block) :
    setup.Follows (E.walkBlock fold b stack) (E'.walkBlock fold b.unchained stack) := by
  unfold Evaluator.walkBlock
  rw [Script.Block.start_pruned, Script.Block.body_pruned]
  refine checkCanceled.seq (.template b.start fun t => ?_)
  refine Setup.Follows.seq (.log .debug fun _ => ?_) ?_
  · simp [Script.ScopeTemplate.pruned]
  · exact (Setup.Follows.instantiate t stack).bind fun _ => hE.walkAll fold b.body

/-- A program follows: without marks it is registered under the same number. -/
theorem runProgram (unit : Nat) (globals : Stack) :
    setup.Follows (E.runProgram unit globals) (E'.runProgram unit globals) := by
  unfold Evaluator.runProgram
  refine .inUnit unit (.template Hoisting.root fun t => ?_)
  refine (Setup.Follows.instantiate t globals).bind fun _ => .read ?_
  rw [show setup.unchained.programs[unit]? =
    (setup.programs[unit]?).map fun p => .ofProgram p.program.unchained from Array.getElem?_map ..]
  cases setup.programs[unit]? with
  | none => exact .throw _
  | some p =>
    show setup.Follows (E.walkAll (p.program.body.length == 1) p.program.body _)
      (E'.walkAll ((p.program.body.map Script.Stmt.unchained).length == 1)
        (p.program.body.map Script.Stmt.unchained) _)
    rw [List.length_map]
    exact hE.walkAll ..

/-! ## Functions -/

/-- A parameter is bound alike before something else is done. -/
theorem bindParam {α : Type} (frame : Nat) (b : Script.Binding) (value : Operand) {x x' : Run α}
    (hx : setup.Follows x x') :
    setup.Follows (E.bindParam frame stack b value x)
      (E'.bindParam frame stack b.unchained value x') := by
  obtain ⟨target, init⟩ := b
  have hother : setup.Follows
      (do
        Run.unsupported .paramBinding target.kind target.span
        E.bind .lexical target value stack
        x)
      (do
        Run.unsupported .paramBinding target.unchained.kind target.unchained.span
        E'.bind .lexical target.unchained value stack
        x') := Setup.Follows.seq (.unsupportedPattern ..) ((hE.bind ..).seq hx)
  cases target with
  | leaf target =>
    cases target with
    | identifier id => exact (define ..).seq hx
    | _ => exact hother
  | _ => exact hother

/-- Parameters are bound alike, defaults included. -/
theorem bindItems (frame : Nat) (items : List Script.Binding) (args : List Operand) :
    setup.Follows (E.bindItems frame stack items args)
      (E'.bindItems frame stack (items.map Script.Binding.unchained) args) := by
  induction items generalizing args with
  | nil => exact .pure args
  | cons b rest ih =>
    rw [List.map_cons]
    unfold Evaluator.bindItems
    rw [Script.Binding.init_pruned]
    cases b.init with
    | none => exact hE.bindParam frame b _ (ih _)
    | some init =>
      refine (hE.resolve init .value stack).bind fun _ => (deref _).bind fun _ => ?_
      exact (deref _).bind fun _ => hE.bindParam frame b _ (ih _)

/-- Parameters, the rest included, are bound alike. -/
theorem bindParamsIn (frame : Nat) (params : Script.Params) (args : List Operand) :
    setup.Follows (E.bindParamsIn frame stack params args)
      (E'.bindParamsIn frame stack params.unchained args) := by
  unfold Evaluator.bindParamsIn
  rw [Script.Params.items_pruned, Script.Params.rest_pruned]
  refine (hE.bindItems frame params.items args).bind fun left => ?_
  cases params.rest with
  | none => exact .pure stack
  | some rest =>
    have hother : setup.Follows
        (do
          Run.unsupported .paramBinding rest.kind rest.span
          return stack)
        (do
          Run.unsupported .paramBinding rest.unchained.kind rest.unchained.span
          return stack) := Setup.Follows.seq (.unsupportedPattern ..) (.pure stack)
    cases rest with
    | leaf target =>
      cases target with
      | identifier id =>
        exact (derefAll left).bind fun _ => (Setup.Follows.arrayOf _).bind fun _ =>
          (define ..).seq (.pure stack)
      | _ => exact hother
    | _ => exact hother

/-- The frame of a call is made and filled alike. -/
theorem bindParams (self : Value) (fn : Closure) (code : Code) (args : List Operand) :
    setup.Follows (E.bindParams self fn code args)
      (E'.bindParams self fn.unchained code.unchained args) := by
  have hend : ∀ frame, setup.Follows
      (E.bindParamsIn frame (frame :: fn.scope) code.literal.params args)
      (E'.bindParamsIn frame (frame :: fn.scope) code.literal.params.unchained args) :=
    fun frame => hE.bindParamsIn frame code.literal.params args
  unfold Evaluator.bindParams
  refine (newFrame _).bind fun frame => ?_
  rw [show code.unchained.literal.isArrow = code.literal.isArrow from
      code.literal.isArrow_pruned _,
    show code.unchained.literal.params = code.literal.params.unchained from
      code.literal.params_pruned _, show fn.unchained.name = fn.name from rfl,
    show fn.unchained.scope = fn.scope from rfl]
  have harguments : setup.Follows
      (do
        Run.define frame "arguments" (.known (← Evaluator.arrayOf (← Run.derefAll args)))
        E.bindParamsIn frame (frame :: fn.scope) code.literal.params args)
      (do
        Run.define frame "arguments" (.known (← Evaluator.arrayOf (← Run.derefAll args)))
        E'.bindParamsIn frame (frame :: fn.scope) code.literal.params.unchained args) :=
    (derefAll args).bind fun _ => (Setup.Follows.arrayOf _).bind fun _ =>
      (define ..).seq (hend frame)
  cases code.literal.isArrow with
  | true => exact hend frame
  | false =>
    cases fn.name.isEmpty with
    | true => exact harguments
    | false => exact (define ..).seq harguments

/-- The body of a function follows. -/
theorem runBody (code : Code) :
    setup.Follows (E.runBody code stack) (E'.runBody code.unchained stack) := by
  unfold Evaluator.runBody
  rw [show code.unchained.literal.body = code.literal.body.unchained from
    code.literal.body_pruned _]
  cases code.literal.body with
  | block b => exact hE.walkBlock false b
  | expression value => exact hE.value value .value

/-- A call of a function follows. -/
theorem callFunction (id : Nat) (c : CallSite) :
    setup.Follows (E.callFunction id c) (E'.callFunction id c) := by
  unfold Evaluator.callFunction
  refine checkCanceled.seq (.get fun s => ?_)
  rw [show s.unchained.heap.closure? id = (s.heap.closure? id).map Closure.unchained from
    s.heap.closure?_unchained id]
  cases s.heap.closure? id with
  | none => exact .pure _
  | some fn =>
    refine (Setup.Follows.admits fn c.site).bind fun followed => ?_
    cases followed with
    | false => exact .pure _
    | true =>
      refine (Setup.Follows.mapEach deref c.args).bind fun args => .read ?_
      refine Setup.Follows.seq (.log .debug fun s => ?_) ?_
      · dsimp only
        rw [s.heap_unchained, Heap.summary_unchained]
        rfl
      · rw [fn.key_unchained, show fn.unchained.code = fn.code.map Code.unchained from rfl]
        cases fn.code with
        | none => exact .pure _
        | some code =>
          have hrun : setup.Follows
              (Run.counted fn.key (Run.inUnit code.unit do
                E.runBody code (← E.bindParams (.function id) fn code c.args)))
              (Run.counted fn.key (Run.inUnit code.unit do
                E'.runBody code.unchained
                  (← E'.bindParams (.function id) fn.unchained code.unchained c.args))) :=
            .counted _ (.inUnit _ ((hE.bindParams ..).bind fun _ => hE.runBody code))
          refine .get fun s => ?_
          show setup.Follows
            (if s.depth % callsPerStack + 1 == callsPerStack then _ else _)
            (if s.depth % callsPerStack + 1 == callsPerStack then _ else _)
          split
          · exact ⟨hrun.run⟩
          · exact hrun

/-- A call of any value follows. -/
theorem invokeStep (v : Value) (c : CallSite) :
    setup.Follows (E.invokeStep v c) (E'.invokeStep v c) := by
  cases v with
  | intrinsic i => exact .callIntrinsic i c
  | builtin b => exact .callBuiltin hE.invoke b c
  | function id => exact hE.callFunction id c
  | _ => exact .pure _

/-! ## External code -/

/-- An implementation follows. -/
theorem runImplementation (c : CallSite) (index : Nat) (impl : Implementation) :
    setup.Follows (E.runImplementation c index impl) (E'.runImplementation c index impl) := by
  unfold Evaluator.runImplementation
  cases impl.program with
  | none => exact .throw _
  | some unit =>
    refine (Setup.Follows.newGlobals impl.globals).bind fun frame => ?_
    exact (hE.runProgram unit [frame]).bind fun _ => .invokeAll hE.invoke ..

/-- The callbacks that are found for a path follow, run one after another. -/
theorem followCallbacks (resolver : Resolver) (path : Path) (c : CallSite) :
    setup.Follows (E.followCallbacks resolver path c) (E'.followCallbacks resolver path c) := by
  unfold Evaluator.followCallbacks
  refine .within _ (Setup.Follows.seq (.changes fun _ => by rfl) ?_)
  cases resolver path with
  | error text => exact .throw _
  | ok impls =>
    cases impls with
    | nil => exact .pure _
    | cons impl impls =>
      refine (log .info fun _ => by rfl).seq ((Setup.Follows.anchor _).bind fun _ => .anchored _ ?_)
      exact .foldEach (fun _ (entry : Implementation × Nat) =>
        (hE.runImplementation c entry.2 entry.1).bind fun _ => .pure _) ..

/-! ## Call expressions -/

/-- Arguments follow, those after a spread folded into one. -/
theorem arguments (callee : Operand) (args : List Expr) (tail : Option Reference) :
    setup.Follows (E.arguments callee stack args tail)
      (E'.arguments callee stack (args.map (·.unchained .value)) tail) := by
  induction args generalizing tail with
  | nil => cases tail <;> exact .pure _
  | cons e rest ih =>
    rw [List.map_cons]
    have hother : (∀ inner, e ≠ .spread inner) → setup.Follows
        (E.arguments callee stack (e :: rest) tail)
        (E'.arguments callee stack (e.unchained .value :: rest.map (·.unchained .value)) tail) := by
      intro hne
      have hne' := Expr.unchained_ne_spread hne .value
      cases tail with
      | none =>
        rw [Evaluator.arguments, Evaluator.arguments]
        · exact (hE.resolve e .value stack).bind fun _ => (ih none).bind fun _ => .pure _
        · exact hne'
        · exact hne
      | some tail =>
        rw [Evaluator.arguments, Evaluator.arguments]
        · exact (hE.value e .value).bind fun _ => ih _
        · exact hne'
        · exact hne
    cases e with
    | spread inner =>
      rw [Expr.unchained, Expr.pruned, Couples.arguments_spread, Couples.arguments_spread]
      refine (hE.resolve inner .value stack).bind fun source => Setup.Follows.seq ?_ ?_
      · unfold refuseSpread
        rw [Expr.span_pruned]
        refine (deref callee).bind fun r => ?_
        cases r.onlyNative with
        | true => exact .pure ()
        | false => exact unsupported ..
      · exact (deref source).bind fun _ => (Setup.Follows.elements _).bind fun _ => ih _
    | _ => exact hother fun _ h => by cases h

/-- The callee of a call follows, with its receiver. -/
theorem calleeOf (callee : Expr) :
    setup.Follows (E.calleeOf callee stack) (E'.calleeOf (callee.unchained .value) stack) := by
  have hmember : ∀ (m : Operand × Key) (site : Site), setup.Follows
      (do return (← E.readMember m.1 m.2 site, some (m.1, m.2)))
      (do return (← E'.readMember m.1 m.2 site, some (m.1, m.2))) :=
    fun m site => (hE.readMember m.1 m.2 site).bind fun _ => .pure _
  unfold Evaluator.calleeOf
  rw [Expr.unwrapOptional_unchained]
  have hunmarked := callee.unmarked_unwrapOptional
  generalize unwrapOptional callee = callee at hunmarked
  cases callee with
  | optional inner => exact hunmarked.elim
  | optionalChain inner => exact hunmarked.elim
  | dot span object name => exact (hE.memberDot span object name).bind fun m => hmember m _
  | bracket span object key => exact (hE.memberBracket span object key).bind fun m => hmember m _
  | _ => exact (hE.resolve _ .value stack).bind fun _ => .pure _

/-- Call expressions follow. -/
theorem call (span : Span) (callee : Expr) (args : List Expr) :
    setup.Follows (E.call span callee args stack)
      (E'.call span (callee.unchained .value) (args.map (·.unchained .value)) stack) := by
  unfold Evaluator.call
  refine (hE.calleeOf callee).bind fun found => (hE.arguments found.1 args none).bind fun args => ?_
  obtain ⟨callee, source⟩ := found
  refine (deref callee).bind fun _ => (Setup.Follows.invokeAll hE.invoke ..).bind
    fun result => .read ?_
  rw [Setup.resolver_unchained]
  cases source with
  | none => exact .pure _
  | some member =>
    cases setup.resolver with
    | none => exact .pure _
    | some resolver =>
      refine (deref callee).bind fun r => ?_
      dsimp only
      split
      · exact .pure _
      · refine .get fun s => (deref member.1).bind fun r => ?_
        rw [State.provenance_unchained]
        cases s.provenance.findAny? r with
        | none => exact .pure _
        | some path => exact (hE.followCallbacks ..).bind fun _ => .pure _

/-- A value is called as a constructor alike. -/
theorem constructWith (c : CallSite) (v : Value) :
    setup.Follows (E.constructWith c v) (E'.constructWith c v) := by
  cases v with
  | intrinsic i => exact (hE.invoke ..).bind fun _ => .pure _
  | function id => exact (hE.invoke ..).bind fun _ => (newObject _).bind fun _ => .pure _
  | _ => exact .pure _

/-- `new` expressions follow. -/
theorem construct (span : Span) (callee : Expr) (args : List Expr) :
    setup.Follows (E.construct span callee args stack)
      (E'.construct span (callee.unchained .value) (args.map (·.unchained .value)) stack) := by
  unfold Evaluator.construct
  rw [Expr.unwrapOptional_unchained]
  refine (hE.resolve _ .value stack).bind fun target => (hE.arguments target args none).bind
    fun args => (deref target).bind fun r => ?_
  refine (Setup.Follows.mapEach (hE.constructWith _) r.values).bind fun results => ?_
  cases results.any Option.isSome with
  | true => exact .pure _
  | false => exact (warn _).seq (.pure _)

/-! ## Expressions -/

/-- An item of an array literal follows, be it spread or not. -/
theorem arrayItem (item : Option Expr) :
    setup.Follows (E.arrayItem stack item)
      (E'.arrayItem stack (item.map (·.unchained .value))) := by
  cases item with
  | none => exact .pure _
  | some e =>
    have hother : (∀ inner, e ≠ .spread inner) → setup.Follows (E.arrayItem stack (some e))
        (E'.arrayItem stack (some (e.unchained .value))) := by
      intro hne
      have hne' := Expr.unchained_ne_spread hne .value
      rw [Evaluator.arrayItem, Evaluator.arrayItem]
      · exact hE.value e .value
      · exact fun inner h => hne' inner h
      · exact fun inner h => hne inner h
    cases e with
    | spread inner => exact (hE.value inner .value).bind fun _ => .elements _
    | _ => exact hother fun _ h => by cases h

/-- Array literals follow. -/
theorem arrayLiteral (items : List (Option Expr)) :
    setup.Follows (E.arrayLiteral items stack)
      (E'.arrayLiteral (items.map (·.map (·.unchained .value))) stack) :=
  (Setup.Follows.mapM hE.arrayItem items).bind fun _ =>
    (Setup.Follows.arrayOf _).bind fun _ => .pure _

omit hE in
/-- Functions are made accessors alike. -/
theorem markAccessors (a : Accessor) (r : Reference) :
    setup.Follows (Evaluator.markAccessors a r) (Evaluator.markAccessors a r) := by
  unfold Evaluator.markAccessors
  refine .forEach (fun v => ?_) r.values
  cases v with
  | function id =>
    exact .changes fun s =>
      congrArg (fun heap => { s with heap }) (s.heap.markAccessor_unchained id a)
  | _ => exact .pure ()

/-- A property of an object literal is added alike. -/
theorem addProperty (o : ObjectCell) (property : Script.Property) :
    setup.Follows (E.addProperty stack o property)
      (E'.addProperty stack o property.unchained) := by
  cases property with
  | short id fallback => exact (lookup ..).bind fun _ => (deref _).bind fun _ => .pure _
  | keyed key computed kind value =>
    refine (hE.propertyKey key computed).bind fun _ => (hE.value value .value).bind fun r => ?_
    cases kind.accessor? with
    | none => exact .pure _
    | some a => exact (markAccessors a r).seq (.pure _)
  | spread inner => exact (hE.value inner .value).bind fun _ => .get fun _ => .pure _

/-- Object literals follow. -/
theorem objectLiteral (properties : List Script.Property) :
    setup.Follows (E.objectLiteral properties stack)
      (E'.objectLiteral (properties.map Script.Property.unchained) stack) :=
  (Setup.Follows.foldlM hE.addProperty properties .empty).bind fun _ =>
    (newObject _).bind fun _ => .pure _

omit hE in
/-- Expressions whose value is not tracked follow, with the same warning. -/
theorem untracked (e : Expr) :
    setup.Follows (Evaluator.untracked e) (Evaluator.untracked e) := (warn _).seq (.pure _)

/-- What is read after two expressions were evaluated. -/
theorem both (left right : Expr) (f : Reference → Reference → Reference) :
    setup.Follows
      (do
        let left ← E.resolve left stack
        let right ← E.resolve right stack
        return Operand.known (f (← Run.deref left) (← Run.deref right)))
      (do
        let left ← E'.resolve (left.unchained .value) stack
        let right ← E'.resolve (right.unchained .value) stack
        return Operand.known (f (← Run.deref left) (← Run.deref right))) :=
  (hE.resolve left .value stack).bind fun _ => (hE.resolve right .value stack).bind fun _ =>
    (deref _).bind fun _ => (deref _).bind fun _ => .pure _

/-- What expressions other than marks evaluate to. -/
theorem resolveUnmarked {e : Expr} (h : e.Unmarked) (place : Place) :
    setup.Follows (E.resolveStep e stack) (E'.resolveStep (e.unchained place) stack) := by
  cases e with
  | optional inner => exact h.elim
  | optionalChain inner => exact h.elim
  | identifier id => exact lookup ..
  | string _ _ | boolean _ _ | null _ | regExp _ => exact .pure _
  | number _ value => cases value <;> exact .pure _
  | template span tag parts =>
    unfold Evaluator.resolveStep
    rw [Expr.unchained, Expr.pruned, Script.prunedExprs_eq, Script.prunedExpr?_eq]
    refine Setup.Follows.seq (.forM (fun e => hE.visit e .value) parts) ?_
    cases tag with
    | none => exact .pure _
    | some tag => exact (hE.visit tag .value).seq ((warn _).seq (.pure _))
  | array span items =>
    rw [Expr.unchained, Expr.pruned, Script.prunedHoles_eq]
    exact hE.arrayLiteral items
  | object span properties =>
    rw [Expr.unchained, Expr.pruned, Script.prunedProperties_eq]
    exact hE.objectLiteral properties
  | function fn => exact (newFunction fn stack).bind fun _ => .pure _
  | classLiteral cls =>
    have hsuper : setup.Follows (E.visit? cls.superclass stack)
        (E'.visit? cls.unchained.superclass stack) := by
      rw [Script.Class.superclass_pruned]
      exact hE.visit? cls.superclass
    refine hsuper.seq ?_
    unfold Evaluator.untracked
    rw [Expr.span_pruned]
    exact untracked (.classLiteral cls)
  | call span callee args =>
    rw [Expr.unchained, Expr.pruned, Script.prunedExprs_eq]
    exact hE.call span callee args
  | construct span callee args =>
    rw [Expr.unchained, Expr.pruned, Script.prunedExprs_eq]
    exact hE.construct span callee args
  | dot span object name =>
    exact (hE.memberDot span object name).bind fun m => hE.readMember m.1 m.2 _
  | bracket span object key =>
    exact (hE.memberBracket span object key).bind fun m => hE.readMember m.1 m.2 _
  | privateDot span object name => exact (hE.visit object .value).seq (.pure _)
  | assign span op target value => exact hE.assign span op target value
  | unary span op operand =>
    cases op with
    | delete => exact hE.deleteProperty span operand
    | _ => exact (hE.visit operand .value).seq (.pure _)
  | update span operand => exact hE.update span operand
  | binary span op left right => exact hE.both left right (Evaluator.binaryResult op)
  | conditional span test yes no =>
    exact (hE.visit test .value).seq (hE.both yes no Reference.union)
  | sequence span items =>
    unfold Evaluator.resolveStep
    rw [Expr.unchained, Expr.pruned, Script.prunedExprs_eq]
    exact .foldlM (fun _ e => hE.resolve e .value stack) items _
  | spread inner => exact hE.resolve inner .value stack
  | yield span argument =>
    unfold Evaluator.resolveStep
    rw [Expr.unchained, Expr.pruned, Script.prunedExpr?_eq]
    exact (hE.visit? argument).seq (untracked (.yield span argument))
  | await span argument => exact (hE.visit argument .value).seq (untracked (.await span argument))
  | privateName _ _ | thisValue _ | superValue _ | newTarget _ => exact untracked _

/-- A mark that is gone takes up no level. -/
theorem resolveStep (hlast : Lasting setup.unchained E') (e : Expr) (place : Place) :
    setup.Follows (E.resolveStep e stack) (E'.resolveStep (e.unchained place) stack) := by
  by_cases hmarked : e.Unmarked
  · exact hE.resolveUnmarked hmarked place
  · cases e with
    | optional inner | optionalChain inner =>
      rw [Expr.unchained, Expr.pruned]
      split
      · exact hE.resolve inner place stack
      · exact (hE.resolve inner place stack).of_lasting (hlast _ stack)
    | _ => exact absurd trivial hmarked

end Follows

end Evaluator

end FrozenGlobals
