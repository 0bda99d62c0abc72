import FrozenGlobals.Proofs.Chaining.Natives

/-!
# Reads and writes without marks

Members, patterns and the expressions that write follow if what the evaluators do one level below
does. Where the shape of an expression is looked at, the expression without marks has the same
shape, so both sides take the same branch.
-/

namespace FrozenGlobals

open Script (Span Expr Pattern Place)

/-! ## Keys -/

/-- The key that an expression names outside of brackets. -/
def Key.ofPlain : Expr → Key
  | .identifier id => .name id.name
  | e => (Key.ofLiteral? e).getD .any

/-- A key behind a mark is no name and no literal, so it may be any key. -/
theorem Key.ofPlain_of_marked {e : Expr} (h : ¬ e.Unmarked) : Key.ofPlain e = .any := by
  cases e <;> first | rfl | exact absurd trivial h

/-- A key is called the same without marks. -/
theorem Key.ofPlain_unchained (e : Expr) : Key.ofPlain (e.unchained .key) = Key.ofPlain e := by
  by_cases hmarked : e.Unmarked
  · cases e <;> first | rfl | exact hmarked.elim
  · rw [ofPlain_of_marked hmarked]
    rcases Expr.unchained_of_marked hmarked .key with ⟨-, hkept⟩ | ⟨hreads, heq⟩
    · exact ofPlain_of_marked hkept
    · rw [heq]
      have hunmarked := e.unmarked_unwrapOptional
      generalize unwrapOptional e = e at hreads hunmarked
      cases e <;> first | rfl | exact hunmarked.elim | cases hreads

/-- A key outside of brackets is not evaluated. -/
theorem Evaluator.propertyKey_plain (E : Evaluator) (key : Expr) (stack : Stack) :
    E.propertyKey key false stack = pure (Key.ofPlain key) := by cases key <;> rfl

/-! ## Names and accessors -/

namespace Setup.Follows

variable {setup : Setup}

/-- What calls through a property as a getter or setter is the same. -/
theorem accessor? (v : Value) :
    setup.Follows (Evaluator.accessor? v) (Evaluator.accessor? v) := by
  cases v with
  | function id =>
    refine .of_ok fun s => ⟨_, s, rfl, ?_⟩
    show EStateM.Result.ok ((s.heap.unchained.closure? id).bind (·.accessor)) s.unchained = _
    rw [Heap.closure?_unchained]
    cases s.heap.closure? id <;> rfl
  | _ => exact .pure none

/-- A write to a name checks and binds the same name. -/
theorem writeName (name : String) (value : Operand) (stack : Stack) (site : Site)
    (violation : Violation) :
    setup.Follows (Evaluator.writeName name value stack site violation)
      (Evaluator.writeName name value stack site violation) := by
  unfold Evaluator.writeName
  refine (lookup name stack).bind fun _ => (deref _).bind fun _ => (checkGlobal ..).bind fun b => ?_
  have hrebind : ∀ current : Operand, setup.Follows
      (do Run.rebind name ((← Run.deref current).union (← Run.deref value)) stack)
      (do Run.rebind name ((← Run.deref current).union (← Run.deref value)) stack) :=
    fun current => (deref current).bind fun _ => (deref value).bind fun _ => rebind ..
  cases b with
  | true => exact hrebind _
  | false => exact (checkGlobalName ..).seq (hrebind _)

/-- A `var` is joined in the same frame. -/
theorem addVariable (name : String) (value : Operand) (stack : Stack) :
    setup.Follows (Evaluator.addVariable name value stack)
      (Evaluator.addVariable name value stack) := by
  unfold Evaluator.addVariable
  have htop : setup.Follows (do Run.define (← Run.top stack) name value)
      (do Run.define (← Run.top stack) name value) := (top stack).bind fun _ => define ..
  refine (owner? stack name).bind fun frame => ?_
  cases frame with
  | none => exact htop
  | some frame =>
    dsimp only
    split
    · exact htop
    · exact .get fun s => (deref _).bind fun _ => (deref value).bind fun _ => define ..

/-! ## Constructs that are not supported -/

/-- A target that is not supported is reported as the same kind, since targets keep their marks. -/
theorem unsupportedLeaf (code : UnsupportedCode) (e : Expr) :
    setup.Follows (Run.unsupported code e.kind e.span)
      (Run.unsupported code (e.unchained .target).kind (e.unchained .target).span) := by
  rw [Expr.kind_unchained, Expr.span_pruned]
  exact unsupported ..

/-- A pattern is bound alike in both runs. -/
theorem unsupportedPattern (code : UnsupportedCode) (p : Pattern) :
    setup.Follows (Run.unsupported code p.kind p.span)
      (Run.unsupported code p.unchained.kind p.unchained.span) := by
  rw [Pattern.kind_pruned, Pattern.span_pruned]
  exact unsupported ..

/-- An item of a pattern is bound alike in both runs. -/
theorem unsupportedItem (code : UnsupportedCode) (i : Script.PatternItem) :
    setup.Follows (Run.unsupported code i.kind i.span)
      (Run.unsupported code i.unchained.kind i.unchained.span) := by
  rw [Script.PatternItem.kind_pruned, Script.PatternItem.span_pruned]
  exact unsupported ..

end Setup.Follows

namespace Evaluator

/-- The activities of an evaluator, and the same ones without marks of another one. -/
structure Follows (setup : Setup) (E E' : Evaluator) : Prop where
  resolve : ∀ e place stack,
    setup.Follows (E.resolve e stack) (E'.resolve (e.unchained place) stack)
  bind : ∀ how p o stack, setup.Follows (E.bind how p o stack) (E'.bind how p.unchained o stack)
  walk : ∀ fold s stack, setup.Follows (E.walk fold s stack) (E'.walk fold s.unchained stack)
  invoke : ∀ v c, setup.Follows (E.invoke v c) (E'.invoke v c)

namespace Follows

open Setup.Follows (deref getKey setKey checkGlobal define top newArray newObject)

variable {setup : Setup} {E E' : Evaluator} {stack : Stack} (hE : Follows setup E E')
include hE

/-! ## Expressions and members -/

/-- An expression that may be missing. -/
theorem resolve? (e : Option Expr) :
    setup.Follows (E.resolve? e stack) (E'.resolve? (e.map (·.unchained .value)) stack) := by
  cases e with
  | none => exact .pure _
  | some e => exact hE.resolve e .value stack

/-- An expression that is visited for its parts. -/
theorem visit (e : Expr) (place : Place) :
    setup.Follows (E.visit e stack) (E'.visit (e.unchained place) stack) :=
  (hE.resolve e place stack).seq (.pure ())

/-- An expression that may be missing and is visited for its parts. -/
theorem visit? (e : Option Expr) :
    setup.Follows (E.visit? e stack) (E'.visit? (e.map (·.unchained .value)) stack) := by
  cases e with
  | none => exact .pure _
  | some e => exact hE.visit e .value

/-- The value of an expression. -/
theorem value (e : Expr) (place : Place) :
    setup.Follows (E.value e stack) (E'.value (e.unchained place) stack) :=
  (hE.resolve e place stack).bind deref

/-- The key in brackets. -/
theorem memberKey (key : Expr) :
    setup.Follows (E.memberKey key stack) (E'.memberKey (key.unchained .key) stack) := by
  unfold Evaluator.memberKey
  rw [Expr.ofLiteral?_unchained]
  cases Key.ofLiteral? key with
  | some k => exact .pure k
  | none => exact (hE.visit key .key).seq (.pure _)

/-- The key of a property. -/
theorem propertyKey (key : Expr) (computed : Bool) :
    setup.Follows (E.propertyKey key computed stack)
      (E'.propertyKey (key.unchained .key) computed stack) := by
  cases computed with
  | true => exact hE.memberKey key
  | false =>
    rw [propertyKey_plain, propertyKey_plain, Key.ofPlain_unchained]
    exact .pure _

/-- The object and the key of a member with a name. -/
theorem memberDot (span : Span) (object : Expr) (name : String) :
    setup.Follows (E.memberTarget (.dot span object name) stack)
      (E'.memberTarget (.dot span (object.unchained .value) name) stack) :=
  (hE.resolve object .value stack).bind fun _ => .pure _

/-- The object and the key of a member with a key in brackets. -/
theorem memberBracket (span : Span) (object key : Expr) :
    setup.Follows (E.memberTarget (.bracket span object key) stack)
      (E'.memberTarget (.bracket span (object.unchained .value) (key.unchained .key)) stack) :=
  (hE.resolve object .value stack).bind fun _ => (hE.memberKey key).bind fun _ => .pure _

/-- One possibility of what a member holds is read, where getters are called. -/
theorem readSlot (object : Operand) (site : Site) (v : Value) :
    setup.Follows (E.readSlot object site v) (E'.readSlot object site v) := by
  refine (Setup.Follows.accessor? v).bind fun a => ?_
  rcases a with _ | _ | _
  · exact .pure _
  · exact hE.invoke v _
  · exact .pure _

/-- A member is read. -/
theorem readMember (object : Operand) (key : Key) (site : Site) :
    setup.Follows (E.readMember object key site) (E'.readMember object key site) := by
  unfold Evaluator.readMember
  refine (deref object).bind fun _ => (getKey ..).bind fun slot =>
    Setup.Follows.bind ?_ fun _ => .pure _
  exact .foldEach (fun _ v => (hE.readSlot object site v).bind fun _ => .pure _) ..

/-- The setters of a member are called. -/
theorem callSetters (slot : Reference) (object value : Operand) (site : Site) :
    setup.Follows (E.callSetters slot object value site)
      (E'.callSetters slot object value site) := by
  unfold Evaluator.callSetters
  refine .forEach (fun v => (Setup.Follows.accessor? v).bind fun a => ?_) slot.values
  rcases a with _ | _ | _
  · exact .pure _
  · exact .pure _
  · exact (hE.invoke v _).seq (.pure _)

/-! ## Assignments -/

/-- What follows from the object and the key of a member. -/
theorem assignMember {x x' : Run (Operand × Key)} (h : setup.Follows x x') (value : Operand)
    (site : Site) :
    setup.Follows (x >>= Couples.assignMember E value site)
      (x' >>= Couples.assignMember E' value site) := by
  refine h.bind fun member => ?_
  unfold Couples.assignMember
  refine (deref _).bind fun _ => (getKey ..).bind fun slot => (checkGlobal ..).seq ?_
  refine (deref _).bind fun _ => (checkGlobal ..).seq ((hE.callSetters slot ..).seq ?_)
  exact (deref _).bind fun _ => (deref value).bind fun _ => setKey ..

/-- An assignment to a single target. -/
theorem assignTo (target : Expr) (value : Operand) (site : Site) :
    setup.Follows (E.assignTo target value site stack)
      (E'.assignTo (target.unchained .target) value site stack) := by
  have hother : setup.Follows _ _ := .unsupportedLeaf .assignTarget target
  cases target with
  | identifier id => exact .writeName ..
  | dot span object name => exact hE.assignMember (hE.memberDot span object name) value site
  | bracket span object key => exact hE.assignMember (hE.memberBracket span object key) value site
  | privateDot span object name =>
    exact (hE.value object .value).bind fun _ => (checkGlobal ..).seq (.pure _)
  | _ => exact hother

/-! ## Patterns -/

/-- A leaf of a pattern is bound, declared or assigned to. -/
theorem installLeaf (how : Install) (leaf : Expr) (value : Operand) :
    setup.Follows (E.installLeaf how leaf value stack)
      (E'.installLeaf how (leaf.unchained .target) value stack) := by
  have hother : setup.Follows _ _ := .unsupportedLeaf .assignBinding leaf
  match how with
  | .assign site => exact hE.assignTo leaf value site
  | .lexical =>
    cases leaf with
    | identifier id => exact (top stack).bind fun _ => define ..
    | _ => exact hother
  | .variable =>
    cases leaf with
    | identifier id => exact .addVariable ..
    | _ => exact hother

/-- An item of an array pattern is bound to the elements or to its default. -/
theorem bindItem (how : Install) (elements : Reference) (item : Script.PatternItem) :
    setup.Follows (E.bindItem how elements stack item)
      (E'.bindItem how elements stack item.unchained) := by
  have hother : setup.Follows _ _ := .unsupportedItem .assignBinding item
  obtain ⟨target, fallback⟩ := item
  cases fallback with
  | none => exact hE.bind how target _ stack
  | some fallback =>
    cases target with
    | leaf target =>
      cases target with
      | identifier id =>
        exact (hE.value fallback .value).bind fun _ => hE.installLeaf how (.identifier id) _
      | _ => exact hother
    | _ => exact hother

/-- A property of an object pattern is bound to what the value holds under its key. -/
theorem bindProperty (how : Install) (init : Operand) (property : Script.PatternProperty) :
    setup.Follows (E.bindProperty how init stack property)
      (E'.bindProperty how init stack property.unchained) := by
  cases property with
  | short id fallback =>
    refine (deref init).bind fun _ => (getKey ..).bind fun _ => ?_
    cases fallback with
    | none => exact hE.installLeaf how (.identifier id) _
    | some fallback =>
      exact (hE.value fallback .value).bind fun _ => hE.installLeaf how (.identifier id) _
  | keyed key computed item =>
    have hother : setup.Follows _ _ := .unsupportedItem .assignBinding item
    refine (hE.propertyKey key computed).bind fun _ => ?_
    obtain ⟨target, fallback⟩ := item
    cases fallback with
    | none =>
      exact (deref init).bind fun _ => (getKey ..).bind fun _ => hE.bind how target _ stack
    | some fallback => exact hother

/-- The rest of a pattern is bound to a new container. -/
theorem bindRest (how : Install) (rest : Option Pattern) {container container' : Run Value}
    (h : setup.Follows container container') :
    setup.Follows (E.bindRest how rest container stack)
      (E'.bindRest how (rest.map Pattern.unchained) container' stack) := by
  cases rest with
  | none => exact .pure _
  | some rest =>
    have hother : setup.Follows _ _ := .unsupportedPattern .restBinding rest
    cases rest with
    | leaf target =>
      cases target with
      | identifier id => exact h.bind fun _ => hE.installLeaf how (.identifier id) _
      | _ => exact hother
    | _ => exact hother

/-- A pattern is bound to a value. -/
theorem bindStep (how : Install) (target : Pattern) (init : Operand) :
    setup.Follows (E.bindStep how target init stack)
      (E'.bindStep how target.unchained init stack) := by
  cases target with
  | leaf leaf => exact hE.installLeaf how leaf init
  | array span items rest =>
    unfold Evaluator.bindStep
    rw [Pattern.unchained, Pattern.pruned, Script.prunedItems_eq, Script.prunedPattern?_eq]
    refine (deref init).bind fun _ => (getKey ..).bind fun elements => Setup.Follows.seq ?_
      (hE.bindRest how rest (newArray elements))
    refine .forM (fun item => ?_) items
    cases item with
    | none => exact .pure _
    | some item => exact hE.bindItem how elements item
  | object span properties rest =>
    unfold Evaluator.bindStep
    rw [Pattern.unchained, Pattern.pruned, Script.prunedPatternProperties_eq,
      Script.prunedPattern?_eq]
    refine Setup.Follows.seq (.forM (hE.bindProperty how init) properties) (hE.bindRest how rest ?_)
    exact (deref init).bind fun _ => (getKey ..).bind fun _ => newObject _

/-! ## Expressions that write -/

/-- An assignment. What is assigned to a name of a function gets its name from it in the log
only. -/
theorem assign (span : Span) (op : Script.AssignOp) (target : Pattern) (value : Expr) :
    setup.Follows (E.assign span op target value stack)
      (E'.assign span op target.unchained (value.unchained .value) stack) :=
  (hE.resolve value .value stack).bind fun _ => (hE.bind _ target _ stack).seq (.pure _)

/-- An update of a name or a member. -/
theorem update (span : Span) (operand : Expr) :
    setup.Follows (E.update span operand stack)
      (E'.update span (operand.unchained .target) stack) := by
  have hmember : ∀ m : Operand × Key, setup.Follows
      (do
        let object ← Run.deref m.1
        let _ ← Run.checkGlobal (← Run.getKey object m.2) ⟨.update, span⟩ .update
        let _ ← Run.checkGlobal object ⟨.update, span⟩ .update
        Run.setKey object m.2 .anyPrimitive
        return Operand.known .anyPrimitive)
      (do
        let object ← Run.deref m.1
        let _ ← Run.checkGlobal (← Run.getKey object m.2) ⟨.update, span⟩ .update
        let _ ← Run.checkGlobal object ⟨.update, span⟩ .update
        Run.setKey object m.2 .anyPrimitive
        return Operand.known .anyPrimitive) :=
    fun m => (deref _).bind fun _ => (getKey ..).bind fun _ => (checkGlobal ..).seq
      ((checkGlobal ..).seq ((setKey ..).seq (.pure _)))
  have hother : setup.Follows
      (do
        let _ ← Run.checkGlobal (← E.value operand stack) ⟨.update, span⟩ .update
        return Operand.known .anyPrimitive)
      (do
        let _ ← Run.checkGlobal (← E'.value (operand.unchained .target) stack)
          ⟨.update, span⟩ .update
        return Operand.known .anyPrimitive) :=
    (hE.value operand .target).bind fun _ => (checkGlobal ..).seq (.pure _)
  cases operand with
  | identifier id => exact Setup.Follows.seq (.writeName ..) (.pure _)
  | dot span' object name => exact (hE.memberDot span' object name).bind hmember
  | bracket span' object key => exact (hE.memberBracket span' object key).bind hmember
  | _ => exact hother

/-- A deletion. -/
theorem deleteProperty (span : Span) (operand : Expr) :
    setup.Follows (E.deleteProperty span operand stack)
      (E'.deleteProperty span (operand.unchained .target) stack) := by
  have hmember : ∀ m : Operand × Key, setup.Follows
      (do
        let _ ← Run.checkGlobal (← Run.deref m.1) ⟨.unary, span⟩ .delete
        return Operand.known .boolean)
      (do
        let _ ← Run.checkGlobal (← Run.deref m.1) ⟨.unary, span⟩ .delete
        return Operand.known .boolean) :=
    fun m => (deref m.1).bind fun _ => (checkGlobal ..).seq (.pure _)
  have hother : setup.Follows
      (do E.visit operand stack; return Operand.known .boolean)
      (do E'.visit (operand.unchained .target) stack; return Operand.known .boolean) :=
    (hE.visit operand .target).seq (.pure _)
  cases operand with
  | dot span' object name => exact (hE.memberDot span' object name).bind hmember
  | bracket span' object key => exact (hE.memberBracket span' object key).bind hmember
  | _ => exact hother

end Follows

end Evaluator

end FrozenGlobals
