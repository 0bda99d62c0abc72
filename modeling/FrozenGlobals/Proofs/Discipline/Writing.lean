import FrozenGlobals.Proofs.Discipline.Agree

/-!
# Agreement of reads and writes

Two evaluators agree under a licence if their activities do, on the nodes and calls the licence is
given for (`Evaluator.Agrees`). There is one theorem for each function of the evaluator, which takes
agreement one level below. These are the ones that read members, assign, and bind patterns.
-/

namespace FrozenGlobals

open Run Discipline
open Script (Span Node Expr Pattern Stmt)

/-! ## Licences -/

/-- The nodes and the calls that may be evaluated at each position. -/
structure Licence where
  node : Position → Node → Prop
  call : Position → Value → CallSite → Prop

namespace Licence

variable {L : Licence} {p : Position} {n c : Node}

/-- A node may be evaluated with all that is run when it is. -/
def Covers (L : Licence) (p : Position) (n : Node) : Prop := ∀ c, n.Within c → L.node p c

/-- A node that is licensed with its parts is licensed. -/
theorem Covers.node (h : L.Covers p n) : L.node p n := h n (.refl n)

/-- The parts of a node that is licensed with its parts are licensed with theirs. -/
theorem Covers.part (h : L.Covers p n) (hc : c ∈ n.parts) : L.Covers p c :=
  fun d hd => h d (.of_part hc hd)

end Licence

/-- The range at which evaluating a node may report: that of an assignment, an update, a deletion, a
call, a construction, or a loop that assigns to an expression. -/
def Script.Node.mutation? : Node → Option Span
  | .expr (.assign span _ _ _) => some span
  | .expr (.unary span .delete _) => some span
  | .expr (.update span _) => some span
  | .expr (.call span _ _) => some span
  | .expr (.construct span _ _) => some span
  | .stmt (.forEach span _ (.assign _) _ _) => some span
  | _ => none

namespace Discipline

variable {setup : Setup} (D : Discipline setup)

/-- A call that may be made: where a call stands is reported on unless it calls a function. -/
def Calls (p : Position) (v : Value) (c : CallSite) : Prop :=
  (∃ id, v = .function id) ∨ D.place p.unit c.site.span

/-- What is done with the leaves of a pattern is reported where it may be. -/
def Installs (p : Position) (how : Install) : Prop :=
  ∀ site, how = .assign site → D.place p.unit site.span

/-- Lexical declarations report nothing of their own. -/
theorem installs_lexical (p : Position) : D.Installs p .lexical := nofun

/-- `var` declarations report nothing of their own. -/
theorem installs_variable (p : Position) : D.Installs p .variable := nofun

/-- Assignments report at their range. -/
theorem installs_assign {p : Position} {site : Site} (h : D.place p.unit site.span) :
    D.Installs p (.assign site) := by
  rintro _ ⟨⟩
  exact h

end Discipline

/-- What evaluating a node needs: its parts, reports at its range, and calls. -/
structure Licence.Allows {setup : Setup} (L : Licence) (D : Discipline setup) (p : Position)
    (n : Node) : Prop where
  part : ∀ {c}, c ∈ n.parts → L.Covers p c
  place : ∀ {span}, n.mutation? = some span → D.place p.unit span
  call : ∀ {v c}, D.Calls p v c → L.call p v c

/-- The blocks that are licensed may be entered. -/
def Licence.Opens {setup : Setup} (L : Licence) (D : Discipline setup) : Prop :=
  ∀ {p n start}, L.node p n → n.hoistStep.opens = some start → D.enters p.unit start

/-- The activities of two evaluators agree where they are licensed. -/
structure Evaluator.Agrees {setup : Setup} (D : Discipline setup) (L : Licence)
    (E E' : Evaluator) : Prop where
  opens : L.Opens D
  resolve : ∀ {p e stack}, D.scope stack → L.node p (.expr e) →
    D.Agree p (E.resolve e stack) (E'.resolve e stack) fun _ => True
  bind : ∀ {p how target init stack}, D.scope stack → D.Installs p how →
    L.node p (.ofPattern target) →
    D.Agree p (E.bind how target init stack) (E'.bind how target init stack) fun _ => True
  walk : ∀ {p fold s stack}, D.scope stack → L.node p (.stmt s) →
    D.Agree p (E.walk fold s stack) (E'.walk fold s stack) fun _ => True
  invoke : ∀ {p v c}, L.call p v c → D.Agree p (E.invoke v c) (E'.invoke v c) fun _ => True

namespace Evaluator.Agrees

variable {setup : Setup} {D : Discipline setup} {L : Licence} {E E' : Evaluator} {p : Position}
  {stack : Stack}

section
variable (hE : Agrees D L E E') (hs : D.scope stack)
include hE hs

/-! ## Expressions and members -/

/-- An expression that may be left out agrees. -/
theorem resolve? {e : Option Expr} (h : ∀ e' ∈ e, L.node p (.expr e')) :
    D.Agree p (E.resolve? e stack) (E'.resolve? e stack) fun _ => True := by
  cases e with
  | none => exact .pure trivial
  | some e => exact hE.resolve hs (h e rfl)

/-- An expression evaluated for its effects agrees. -/
theorem visit {e : Expr} (h : L.node p (.expr e)) :
    D.Agree p (E.visit e stack) (E'.visit e stack) fun _ => True :=
  (hE.resolve hs h).seq (.pure trivial)

/-- An expression that may be left out, evaluated for its effects, agrees. -/
theorem visit? {e : Option Expr} (h : ∀ e' ∈ e, L.node p (.expr e')) :
    D.Agree p (E.visit? e stack) (E'.visit? e stack) fun _ => True := by
  cases e with
  | none => exact .pure trivial
  | some e => exact hE.visit hs (h e rfl)

/-- The value of an expression agrees. -/
theorem value {e : Expr} (h : L.node p (.expr e)) :
    D.Agree p (E.value e stack) (E'.value e stack) fun _ => True :=
  (hE.resolve hs h).bind fun o _ => (Agree.deref o).imp fun _ _ => trivial

/-- The key of a member agrees. -/
theorem memberKey {key : Expr} (h : L.node p (.expr key)) :
    D.Agree p (E.memberKey key stack) (E'.memberKey key stack) fun _ => True := by
  unfold Evaluator.memberKey
  cases Key.ofLiteral? key with
  | some k => exact .pure trivial
  | none => exact (hE.visit hs h).seq (.pure trivial)

/-- The key of a property agrees. -/
theorem propertyKey {key : Expr} {computed : Bool} (h : L.node p (.expr key)) :
    D.Agree p (E.propertyKey key computed stack) (E'.propertyKey key computed stack)
      fun _ => True := by
  unfold Evaluator.propertyKey
  cases computed with
  | true => exact hE.memberKey hs h
  | false =>
    cases key with
    | identifier id => exact .pure trivial
    | _ => exact .pure trivial

/-- A member accessed by a name agrees. -/
theorem memberDot {span : Span} {object : Expr} {name : String} (h : L.node p (.expr object)) :
    D.Agree p (E.memberTarget (.dot span object name) stack)
      (E'.memberTarget (.dot span object name) stack) fun _ => True :=
  (hE.resolve hs h).bind fun _ _ => .pure trivial

/-- A member accessed by an expression agrees, object first. -/
theorem memberBracket {span : Span} {object key : Expr} (h : L.node p (.expr object))
    (hk : L.node p (.expr key)) :
    D.Agree p (E.memberTarget (.bracket span object key) stack)
      (E'.memberTarget (.bracket span object key) stack) fun _ => True :=
  (hE.resolve hs h).bind fun _ _ => (hE.memberKey hs hk).bind fun _ _ => .pure trivial

end

/-- Accessors are functions. -/
theorem accessor? (v : Value) :
    D.Keeps p (Evaluator.accessor? v) fun a => a.isSome → ∃ id, v = .function id := by
  unfold Evaluator.accessor?
  cases v with
  | function id => exact .get fun _ _ _ => .pure fun _ => ⟨id, rfl⟩
  | _ => exact .pure nofun

section
variable (hE : Agrees D L E E') (hc : ∀ {v c}, D.Calls p v c → L.call p v c)
include hE hc

/-- A slot is read alike, getters called. -/
theorem readSlot (object : Operand) (site : Site) (v : Value) :
    D.Agree p (E.readSlot object site v) (E'.readSlot object site v) fun _ => True := by
  unfold Evaluator.readSlot
  refine (accessor? v).bind fun a ha => ?_
  match a with
  | none => exact .pure trivial
  | some .getter => exact hE.invoke (hc (.inl (ha rfl)))
  | some .setter => exact .pure trivial

/-- A member is read alike. -/
theorem readMember (object : Operand) (key : Key) (site : Site) :
    D.Agree p (E.readMember object key site) (E'.readMember object key site) fun _ => True := by
  unfold Evaluator.readMember
  refine (Agree.deref object).bind fun r _ => ?_
  refine (Agree.getKey r key).bind fun slot _ => ?_
  refine Agree.bind (Q := fun _ => True) (.foldlM fun v _ _ => ?_) fun _ _ =>
    .pure trivial
  exact (hE.readSlot hc object site v).bind fun _ _ => .pure trivial

/-- The setters of a slot are called alike. -/
theorem callSetters (slot : Reference) (object value : Operand) (site : Site) :
    D.Agree p (E.callSetters slot object value site) (E'.callSetters slot object value site)
      fun _ => True := by
  refine .forM fun v _ => (accessor? v).bind fun a ha => ?_
  match a with
  | none => exact .pure trivial
  | some .getter => exact .pure trivial
  | some .setter => exact (hE.invoke (hc (.inl (ha rfl)))).seq (.pure trivial)

end

/-! ## Writes -/

section
variable (hs : D.scope stack)
include hs

/-- An assignment to a name reports where it may and binds alike. -/
theorem writeName (name : String) (value : Operand) {site : Site} (violation : Violation)
    (hplace : D.place p.unit site.span) :
    D.Keeps p (Evaluator.writeName name value stack site violation) fun _ => True := by
  unfold Evaluator.writeName
  refine (Agree.lookup name stack).bind fun current _ => ?_
  refine (Agree.deref current).bind fun _ _ => ?_
  refine (Agree.checkGlobal _ _ hplace).bind fun found _ => ?_
  have hend : D.Keeps p (do
      rebind name ((← deref current).union (← deref value)) stack) fun _ => True :=
    (Agree.deref current).bind fun _ _ =>
      (Agree.deref value).bind fun _ _ => .rebind name _ hs
  cases found with
  | true => exact hend
  | false => exact (Agree.checkGlobalName name hs violation hplace).seq hend

/-- A binding in the innermost frame is made alike. -/
theorem defineTop (name : String) (value : Operand) :
    D.Keeps p (do define (← top stack) name value) fun _ => True :=
  (Agree.top hs).bind fun _ _ => .define ..

/-- A `var` declaration adds to its binding alike. -/
theorem addVariable (name : String) (value : Operand) :
    D.Keeps p (Evaluator.addVariable name value stack) fun _ => True := by
  unfold Evaluator.addVariable
  refine (Agree.owner? stack name).bind fun frame _ => ?_
  cases frame with
  | none => exact defineTop hs name value
  | some frame =>
    dsimp only
    split
    · exact defineTop hs name value
    · refine .get fun s _ _ => (Agree.deref _).bind fun _ _ => ?_
      exact (Agree.deref _).bind fun _ _ => .define ..

variable (hE : Agrees D L E E')
include hE

omit hs in
/-- A write to a member that was evaluated before. -/
theorem writeMember (hc : ∀ {v c}, D.Calls p v c → L.call p v c) (member : Operand × Key)
    (value : Operand) {site : Site} (hplace : D.place p.unit site.span) :
    D.Agree p
      (do
        let slot ← getKey (← deref member.1) member.2
        let _ ← checkGlobal slot site .assign
        let _ ← checkGlobal (← deref member.1) site .assignProperty
        E.callSetters slot member.1 value site
        setKey (← deref member.1) member.2 (← deref value))
      (do
        let slot ← getKey (← deref member.1) member.2
        let _ ← checkGlobal slot site .assign
        let _ ← checkGlobal (← deref member.1) site .assignProperty
        E'.callSetters slot member.1 value site
        setKey (← deref member.1) member.2 (← deref value)) fun _ => True := by
  refine (Agree.deref _).bind fun _ _ => ?_
  refine (Agree.getKey ..).bind fun slot _ => ?_
  refine (Agree.checkGlobal _ _ hplace).seq ?_
  refine (Agree.deref _).bind fun _ _ => ?_
  refine (Agree.checkGlobal _ _ hplace).seq ?_
  refine (hE.callSetters hc slot member.1 value site).seq ?_
  refine (Agree.deref _).bind fun _ _ => ?_
  exact (Agree.deref _).bind fun _ _ => .setKey ..

/-- An assignment to a target of any form agrees. -/
theorem assignTo {target : Expr} (hpart : ∀ {c}, c ∈ (Node.expr target).parts → L.Covers p c)
    (hc : ∀ {v c}, D.Calls p v c → L.call p v c) (value : Operand) {site : Site}
    (hplace : D.place p.unit site.span) :
    D.Agree p (E.assignTo target value site stack) (E'.assignTo target value site stack)
      fun _ => True := by
  unfold Evaluator.assignTo
  cases target with
  | identifier id => exact writeName hs id.name value .assign hplace
  | dot span object name =>
    have hobject := hpart (c := .expr object) (by simp [Node.parts, Node.children, Expr.children])
    exact (hE.memberDot hs hobject.node).bind fun member _ => writeMember hE hc member value hplace
  | bracket span object key =>
    have hobject := hpart (c := .expr object) (by simp [Node.parts, Node.children, Expr.children])
    have hkey := hpart (c := .expr key) (by simp [Node.parts, Node.children, Expr.children])
    exact (hE.memberBracket hs hobject.node hkey.node).bind fun member _ =>
      writeMember hE hc member value hplace
  | privateDot span object name =>
    have hobject := hpart (c := .expr object) (by simp [Node.parts, Node.children, Expr.children])
    refine (hE.value hs hobject.node).bind fun r _ => ?_
    exact (Agree.checkGlobal _ _ hplace).seq (.pure trivial)
  | _ => exact .unsupported ..

/-! ## Patterns -/

/-- The leaf of a pattern is bound alike. -/
theorem installLeaf {how : Install} (hhow : D.Installs p how) {leaf : Expr}
    (hpart : ∀ {c}, c ∈ (Node.expr leaf).parts → L.Covers p c)
    (hc : ∀ {v c}, D.Calls p v c → L.call p v c) (value : Operand) :
    D.Agree p (E.installLeaf how leaf value stack) (E'.installLeaf how leaf value stack)
      fun _ => True := by
  unfold Evaluator.installLeaf
  match how with
  | .assign site => exact assignTo hs hE hpart hc value (hhow site rfl)
  | .lexical =>
    cases leaf with
    | identifier id => exact defineTop hs id.name value
    | _ => exact .unsupported ..
  | .variable =>
    cases leaf with
    | identifier id => exact addVariable hs id.name value
    | _ => exact .unsupported ..

variable {how : Install} (hhow : D.Installs p how) (hc : ∀ {v c}, D.Calls p v c → L.call p v c)
include hhow hc

/-- A name in a pattern is bound alike. -/
theorem installName (id : Script.Identifier) (value : Operand) :
    D.Agree p (E.installLeaf how (.identifier id) value stack)
      (E'.installLeaf how (.identifier id) value stack) fun _ => True :=
  installLeaf hs hE hhow (fun h => by simp [Node.parts, Node.children, Expr.children] at h) hc value

/-- An item of an array pattern agrees. -/
theorem bindItem (elements : Reference) {item : Script.PatternItem}
    (h : L.Covers p (.ofItem item)) :
    D.Agree p (E.bindItem how elements stack item) (E'.bindItem how elements stack item)
      fun _ => True := by
  unfold Evaluator.bindItem
  split
  · exact hE.bind hs hhow h.node
  · next id fallback =>
    have hfallback := h.part (c := .expr fallback)
      (by simp [Node.ofItem, Node.parts, Node.children])
    refine (hE.value hs hfallback.node).bind fun _ _ => ?_
    exact installName hs hE hhow hc id _
  · exact .unsupported ..

/-- A property of an object pattern agrees. -/
theorem bindProperty (init : Operand) {property : Script.PatternProperty}
    (h : L.Covers p (.patternProperty property)) :
    D.Agree p (E.bindProperty how init stack property) (E'.bindProperty how init stack property)
      fun _ => True := by
  unfold Evaluator.bindProperty
  cases property with
  | short id fallback =>
    refine (Agree.deref init).bind fun _ _ => ?_
    refine (Agree.getKey ..).bind fun found _ => ?_
    cases fallback with
    | none => exact installName hs hE hhow hc id _
    | some fallback =>
      have hfallback := h.part (c := .expr fallback) (by simp [Node.parts, Node.children])
      exact (hE.value hs hfallback.node).bind fun _ _ => installName hs hE hhow hc id _
  | keyed key computed item =>
    have hkey := h.part (c := .expr key) (by simp [Node.parts, Node.children])
    have hitem := h.part (c := .ofItem item) (by simp [Node.parts, Node.children])
    refine (hE.propertyKey hs hkey.node).bind fun k _ => ?_
    split
    · refine (Agree.deref init).bind fun _ _ => ?_
      exact (Agree.getKey ..).bind fun _ _ => hE.bind hs hhow hitem.node
    · exact .unsupported ..

/-- The rest of a pattern agrees. -/
theorem bindRest (rest : Option Pattern) {container : Run Value}
    (hcontainer : D.Keeps p container fun _ => True) :
    D.Agree p (E.bindRest how rest container stack) (E'.bindRest how rest container stack)
      fun _ => True := by
  unfold Evaluator.bindRest
  split
  · exact .pure trivial
  · exact hcontainer.bind fun _ _ => installName hs hE hhow hc _ _
  · exact .unsupported ..

omit hc in
/-- Patterns of every form agree. -/
theorem bindStep {target : Pattern} (h : L.Allows D p (.ofPattern target))
    (init : Operand) :
    D.Agree p (E.bindStep how target init stack) (E'.bindStep how target init stack)
      fun _ => True := by
  unfold Evaluator.bindStep
  cases target with
  | leaf leaf => exact installLeaf hs hE hhow h.part h.call init
  | array span items rest =>
    refine (Agree.deref init).bind fun _ _ => ?_
    refine (Agree.getKey ..).bind fun elements _ => ?_
    refine Agree.seq (Q := fun _ => True) (.forM fun item hitem => ?_)
      (bindRest hs hE hhow h.call rest (.newArray elements))
    cases item with
    | none => exact .pure trivial
    | some item =>
      refine bindItem hs hE hhow h.call elements (h.part ?_)
      have hmem : item ∈ items.filterMap id := List.mem_filterMap.2 ⟨_, hitem, rfl⟩
      simp only [Node.ofPattern, Node.parts, Node.children, Pattern.children]
      exact List.mem_append_left _ (List.mem_map_of_mem hmem)
  | object span properties rest =>
    refine Agree.seq (Q := fun _ => True) (.forM fun property hproperty => ?_)
      (bindRest hs hE hhow h.call rest ?_)
    · refine bindProperty hs hE hhow h.call init (h.part ?_)
      simp only [Node.ofPattern, Node.parts, Node.children, Pattern.children]
      exact List.mem_append_left _ (List.mem_map_of_mem hproperty)
    · refine (Agree.deref init).bind fun _ _ => ?_
      exact (Agree.getKey ..).bind fun _ _ => .newObject _

/-! ## Expressions that write -/

omit hhow hc in
/-- Assignments of every operator agree. -/
theorem assign {span : Span} {op : Script.AssignOp} {target : Pattern} {value : Expr}
    (h : L.Allows D p (.expr (.assign span op target value))) :
    D.Agree p (E.assign span op target value stack) (E'.assign span op target value stack)
      fun _ => True := by
  unfold Evaluator.assign
  have hvalue := h.part (c := .expr value) (by simp [Node.parts, Node.children, Expr.children])
  have htarget := h.part (c := .ofPattern target)
    (by simp [Node.parts, Node.children, Expr.children])
  refine (hE.resolve hs hvalue.node).bind fun right _ => ?_
  exact (hE.bind hs (D.installs_assign (h.place rfl)) htarget.node).seq (.pure trivial)

omit hhow hc in
/-- Increments and decrements agree. -/
theorem update {span : Span} {operand : Expr} (h : L.Allows D p (.expr (.update span operand))) :
    D.Agree p (E.update span operand stack) (E'.update span operand stack) fun _ => True := by
  have hplace : D.place p.unit span := h.place rfl
  have hoperand : L.Covers p (.expr operand) :=
    h.part (by simp [Node.parts, Node.children, Expr.children])
  have hmember : ∀ member : Operand × Key, D.Keeps p (do
      let object ← deref member.1
      let _ ← checkGlobal (← getKey object member.2) ⟨.update, span⟩ .update
      let _ ← checkGlobal object ⟨.update, span⟩ .update
      setKey object member.2 .anyPrimitive
      return Operand.known .anyPrimitive) fun _ => True := by
    intro member
    refine (Agree.deref _).bind fun object _ => ?_
    refine (Agree.getKey ..).bind fun _ _ => ?_
    refine (Agree.checkGlobal _ _ hplace).seq ((Agree.checkGlobal _ _ hplace).seq ?_)
    exact (Agree.setKey ..).seq (.pure trivial)
  unfold Evaluator.update
  split
  · exact (writeName hs _ _ _ hplace).seq (.pure trivial)
  · next object name =>
    have hobject := hoperand.part (c := .expr object)
      (by simp [Node.parts, Node.children, Expr.children])
    exact (hE.memberDot hs hobject.node).bind fun member _ => hmember member
  · next object key =>
    have hobject := hoperand.part (c := .expr object)
      (by simp [Node.parts, Node.children, Expr.children])
    have hkey := hoperand.part (c := .expr key)
      (by simp [Node.parts, Node.children, Expr.children])
    exact (hE.memberBracket hs hobject.node hkey.node).bind fun member _ => hmember member
  · refine (hE.value hs hoperand.node).bind fun _ _ => ?_
    exact (Agree.checkGlobal _ _ hplace).seq (.pure trivial)

omit hhow hc in
/-- Deletions of properties agree. -/
theorem deleteProperty {span : Span} {operand : Expr}
    (h : L.Allows D p (.expr (.unary span .delete operand))) :
    D.Agree p (E.deleteProperty span operand stack) (E'.deleteProperty span operand stack)
      fun _ => True := by
  have hoperand : L.Covers p (.expr operand) :=
    h.part (by simp [Node.parts, Node.children, Expr.children])
  have hmember : ∀ member : Operand × Key, D.Keeps p (do
      let _ ← checkGlobal (← deref member.1) ⟨.unary, span⟩ .delete
      return Operand.known .boolean) fun _ => True := fun member =>
    (Agree.deref _).bind fun _ _ =>
      (Agree.checkGlobal _ _ (h.place rfl)).seq (.pure trivial)
  unfold Evaluator.deleteProperty
  split
  · next object name =>
    have hobject := hoperand.part (c := .expr object)
      (by simp [Node.parts, Node.children, Expr.children])
    exact (hE.memberDot hs hobject.node).bind fun member _ => hmember member
  · next object key =>
    have hobject := hoperand.part (c := .expr object)
      (by simp [Node.parts, Node.children, Expr.children])
    have hkey := hoperand.part (c := .expr key)
      (by simp [Node.parts, Node.children, Expr.children])
    exact (hE.memberBracket hs hobject.node hkey.node).bind fun member _ => hmember member
  · exact (hE.visit hs hoperand.node).seq (.pure trivial)

end

end Evaluator.Agrees

end FrozenGlobals
