import FrozenGlobals.Proofs.Coupling.Basic

/-!
# Coupled reads and writes

Members, patterns and the expressions that write correspond if what the evaluators do one level
below does. There is one theorem for each function of the evaluator.
-/

namespace FrozenGlobals

open Run
open Script (Span Node Expr Pattern Stmt)

/-! ## Syntax -/

/-- Emptying classes changes no literal keys. -/
theorem Key.ofLiteral?_emptied (σ : Script.Class → Bool) (e : Expr) :
    Key.ofLiteral? (e.emptied σ) = Key.ofLiteral? e := by cases e <;> rfl

namespace Script

/-- The names of an item of an array pattern are names of the pattern. -/
theorem mem_itemNames {items : List (Option PatternItem)} {target : Pattern} {value : Option Expr}
    (h : some (.mk target value) ∈ items) {name : String} (hn : name ∈ target.names) :
    name ∈ itemNames items := by
  induction items with
  | nil => cases h
  | cons item items ih =>
    rcases List.mem_cons.1 h with rfl | hmem
    · exact List.mem_append_left _ hn
    · cases item with
      | none => exact ih hmem
      | some item =>
        obtain ⟨_, _⟩ := item
        exact List.mem_append_right _ (ih hmem)

/-- The names of a property of an object pattern are names of the pattern. -/
theorem mem_propertyNames {properties : List PatternProperty} {property : PatternProperty}
    (h : property ∈ properties) {name : String} (hn : name ∈ propertyNames [property]) :
    name ∈ propertyNames properties := by
  induction properties with
  | nil => cases h
  | cons first rest ih =>
    have hcons : ∀ p, name ∈ propertyNames [p] ∨ name ∈ propertyNames rest →
        name ∈ propertyNames (p :: rest) := by
      intro p hp
      match p with
      | .short id _ => simpa [propertyNames] using hp
      | .keyed _ _ (.mk target _) => simpa [propertyNames] using hp
    rcases List.mem_cons.1 h with rfl | h
    · exact hcons _ (.inl hn)
    · exact hcons _ (.inr (ih h))

end Script

namespace Coupling

variable {A B : Setup} {C : Coupling A B} {u : Nat} {w w' : C.Stage}

namespace Operands

variable {o o' : Operand}

/-- Operands that correspond do so at later stages. -/
theorem mono (hC : C.Laws) (hle : C.le w w') (h : C.Operands w o o') : C.Operands w' o o' := by
  cases h with
  | known h => exact .known (hC.ref_le hle h)
  | thrown => exact .thrown

/-- A primitive corresponds to itself. -/
theorem primitive (hC : C.Laws) (p : Primitive) :
    C.Operands w (.known (.ofPrimitive p)) (.known (.ofPrimitive p)) :=
  .known (hC.ref_single (hC.value_primitive p))

end Operands

/-- A reference to a primitive corresponds to itself. -/
theorem Laws.ref_primitive (hC : C.Laws) (p : Primitive) :
    C.ref w (.ofPrimitive p) (.ofPrimitive p) := hC.ref_single (hC.value_primitive p)

/-- Results of comparisons correspond. -/
theorem Laws.ref_boolean (hC : C.Laws) : C.ref w .boolean .boolean := by
  have h := hC.ref_insert (hC.ref_insert (w := w) hC.ref_empty (hC.value_primitive (.bool true)))
    (hC.value_primitive (.bool false))
  exact h

/-- Unions of references that correspond correspond. -/
theorem Laws.ref_unionAll (hC : C.Laws) {rs rs' : List Reference}
    (h : List.Forall₂ (C.ref w) rs rs') : C.ref w (.unionAll rs) (.unionAll rs') := by
  have hfold : ∀ q q', C.ref w q q' → C.ref w (rs.foldl .union q) (rs'.foldl .union q') := by
    induction h with
    | nil => exact fun _ _ h => h
    | cons hr _ ih => exact fun _ _ h => ih _ _ (hC.ref_union h hr)
  exact hfold _ _ hC.ref_empty

/-- Calls that correspond do so at later stages. -/
theorem Sites.mono (hC : C.Laws) (hle : C.le w w') {c c' : CallSite} (h : C.Sites w c c') :
    C.Sites w' c c' where
  site := h.site
  receiver := by
    have hr := h.receiver
    revert hr
    cases c.receiver <;> cases c'.receiver <;> intro hr <;> cases hr
    · exact .none
    · exact .some (.mono hC hle ‹_›)
  args := h.args.imp fun _ _ => Operands.mono hC hle

namespace Binds

variable {how : Install} {p : Pattern} {st st' : Stack}

/-- A pattern that may be bound may be bound at later stages. -/
theorem mono (hC : C.Laws) (hle : C.le w w') (h : C.Binds u w how p st st') :
    C.Binds u w' how p st st' :=
  ⟨hC.runs_le hle h.node, h.names.imp_right fun h name hn => hC.installs_le hle (h name hn)⟩

/-- A pattern may also be bound below frames that correspond. -/
theorem push (hC : C.Laws) {f f' : Nat} (hf : C.frame w f f') (h : C.Binds u w how p st st') :
    C.Binds u w how p (f :: st) (f' :: st') :=
  ⟨hC.push h.node hf, h.names.imp_right fun h name hn => hC.installs_push f (h name hn)⟩

/-- A part of a pattern is bound like the pattern. -/
theorem part (hC : C.Laws) {q : Pattern} (h : C.Binds u w how p st st')
    (hq : .ofPattern q ∈ (Node.ofPattern p).parts) (hn : ∀ name ∈ q.names, name ∈ p.names) :
    C.Binds u w how q st st' :=
  ⟨hC.part h.node hq, h.names.imp_right fun h name hq => h name (hn name hq)⟩

end Binds

end Coupling

namespace Evaluator.Couples

open Coupling

variable {A B : Setup} {C : Coupling A B} {E E' : Evaluator} {u : Nat} {w : C.Stage}
  {st st' : Stack}

section
variable (hC : C.Laws) (hE : E.Couples C E')
include hC hE

/-! ## Expressions and members -/

omit hC in
/-- An expression and the one with its classes emptied have operands that correspond. -/
theorem operand {e : Expr} (h : C.runs u w (.expr e) st st') :
    C.Couples u w (E.resolve e st) (E'.resolve (e.emptied (C.empties u)) st') C.Operands :=
  (hE.resolve h).imp fun _ _ _ _ h => h.1

/-- An expression that may be left out is left out on both sides or on neither. -/
theorem resolve? {e : Option Expr} (h : ∀ e' ∈ e, C.runs u w (.expr e') st st') :
    C.Couples u w (E.resolve? e st) (E'.resolve? (e.map (Expr.emptied (C.empties u))) st')
      C.Operands := by
  cases e with
  | none => exact .pure fun _ _ => .primitive hC .undefined
  | some e => exact hE.operand (h e rfl)

omit hC in
/-- An expression may be evaluated for its effects alone. -/
theorem visit {e : Expr} (h : C.runs u w (.expr e) st st') :
    C.Couples u w (E.visit e st) (E'.visit (e.emptied (C.empties u)) st') fun _ _ _ => True :=
  (hE.resolve h).seq (.pure fun _ _ => trivial)

omit hC in
/-- An expression that may be left out may be evaluated for its effects. -/
theorem visit? {e : Option Expr} (h : ∀ e' ∈ e, C.runs u w (.expr e') st st') :
    C.Couples u w (E.visit? e st) (E'.visit? (e.map (Expr.emptied (C.empties u))) st')
      fun _ _ _ => True := by
  cases e with
  | none => exact .pure fun _ _ => trivial
  | some e => exact hE.visit (h e rfl)

omit hE in
/-- Operands that correspond stand for references that correspond. -/
theorem deref {o o' : Operand} (h : C.Operands w o o') :
    C.Couples u w (Run.deref o) (Run.deref o') C.ref :=
  (hC.deref h).imp fun _ _ _ _ h => h.1

/-- The value of an expression corresponds. -/
theorem value {e : Expr} (h : C.runs u w (.expr e) st st') :
    C.Couples u w (E.value e st) (E'.value (e.emptied (C.empties u)) st') C.ref :=
  (hE.operand h).bind fun _ _ _ _ ho => deref hC ho

omit hE in
/-- Unions of operands that correspond stand for references that correspond. -/
theorem derefAll {os os' : List Operand} (h : List.Forall₂ (C.Operands w) os os') :
    C.Couples u w (Run.derefAll os) (Run.derefAll os') C.ref := by
  refine (Coupling.Couples.mapM (R := C.ref) h (fun hle => hC.ref_le hle)
    fun _ _ _ hle _ ho => deref hC (ho.mono hC hle)).bind fun w₁ rs rs' _ hrs => ?_
  exact .pure fun w₂ hle => hC.ref_unionAll (hrs.imp fun _ _ => hC.ref_le hle)

omit hC in
/-- The key of a member is the same on both sides: keys depend on literals only. -/
theorem memberKey {key : Expr} (h : C.runs u w (.expr key) st st') :
    C.Couples u w (E.memberKey key st) (E'.memberKey (key.emptied (C.empties u)) st')
      fun _ k k' => k' = k := by
  unfold Evaluator.memberKey
  rw [Key.ofLiteral?_emptied]
  cases Key.ofLiteral? key with
  | some k => exact .pure fun _ _ => rfl
  | none => exact (hE.visit h).seq (.pure fun _ _ => rfl)

omit hC in
/-- The key of a property is the same on both sides. -/
theorem propertyKey {key : Expr} {computed : Bool} (h : C.runs u w (.expr key) st st') :
    C.Couples u w (E.propertyKey key computed st)
      (E'.propertyKey (key.emptied (C.empties u)) computed st') fun _ k k' => k' = k := by
  unfold Evaluator.propertyKey
  cases computed with
  | true => exact hE.memberKey h
  | false => cases key <;> exact .pure fun _ _ => rfl

/-- The object and the key of a member are those of the corresponding one. -/
def Members (C : Coupling A B) (w : C.Stage) (m m' : Operand × Key) : Prop :=
  C.Operands w m.1 m'.1 ∧ m'.2 = m.2

/-- A member accessed by a name has objects that correspond. -/
theorem memberDot {span : Span} {object : Expr} {name : String}
    (h : C.runs u w (.expr (.dot span object name)) st st') :
    C.Couples u w (E.memberTarget (.dot span object name) st)
      (E'.memberTarget (.dot span (object.emptied (C.empties u)) name) st') (Members C) :=
  (hE.operand (hC.part h (by simp [Node.parts, Node.children, Expr.children]))).bind
    fun _ _ _ _ ho => .pure fun _ hle => ⟨ho.mono hC hle, rfl⟩

/-- A member accessed by an expression has objects that correspond. -/
theorem memberBracket {span : Span} {object key : Expr}
    (h : C.runs u w (.expr (.bracket span object key)) st st') :
    C.Couples u w (E.memberTarget (.bracket span object key) st)
      (E'.memberTarget (.bracket span (object.emptied (C.empties u))
        (key.emptied (C.empties u))) st')
      (Members C) := by
  have hkey : C.runs u w (.expr key) st st' :=
    hC.part h (by simp [Node.parts, Node.children, Expr.children])
  refine (hE.operand (hC.part h (by simp [Node.parts, Node.children, Expr.children]))).bind
    fun w₁ o o' hle ho => ?_
  refine (hE.memberKey (hC.runs_le hle hkey)).bind fun w₂ k k' hle₂ hk => ?_
  exact .pure fun w₃ hle₃ => ⟨ho.mono hC (C.trans hle₂ hle₃), hk⟩

/-- Members that correspond are read alike. -/
theorem readMember {object object' : Operand} (key : Key) (site : Site)
    (h : C.Operands w object object') :
    C.Couples u w (E.readMember object key site) (E'.readMember object' key site) C.Operands := by
  have heq : ∀ (E : Evaluator) object, E.readMember object key site = (do
      let slot ← getKey (← Run.deref object) key
      let result ← E.readSlots object site slot
      return .known result) := fun _ _ => rfl
  rw [heq, heq]
  refine (deref hC h).bind fun w₁ r r' hle hr => ?_
  refine (hC.getKey key hr).bind fun w₂ slot slot' hle₂ hslot => ?_
  refine (hC.readSlots site hE (h.mono hC (C.trans hle hle₂)) hslot).bind fun w₃ q q' _ hq => ?_
  exact .pure fun w₄ hle₄ => .known (hC.ref_le hle₄ hq)

/-! ## Assignments -/

/-- What an assignment to a member does once its object and key are known. -/
def assignMember (E : Evaluator) (value : Operand) (site : Site) (member : Operand × Key) :
    Run Unit := do
  let slot ← getKey (← Run.deref member.1) member.2
  let _ ← checkGlobal slot site .assign
  let _ ← checkGlobal (← Run.deref member.1) site .assignProperty
  E.callSetters slot member.1 value site
  setKey (← Run.deref member.1) member.2 (← Run.deref value)

/-- Members that correspond are checked and assigned to alike. -/
theorem assignMember_couples {value value' : Operand} (site : Site) {member member' : Operand × Key}
    (hm : Members C w member member') (hv : C.Operands w value value') :
    C.Couples u w (assignMember E value site member) (assignMember E' value' site member')
      fun _ _ _ => True := by
  obtain ⟨object, key⟩ := member
  obtain ⟨object', key'⟩ := member'
  obtain ⟨ho, rfl⟩ : C.Operands w object object' ∧ key' = key := hm
  unfold assignMember
  refine (deref hC ho).bind fun w₁ r r' hle hr => ?_
  refine (hC.getKey key' hr).bind fun w₂ slot slot' hle₂ hslot => ?_
  have ho := ho.mono hC (C.trans hle hle₂)
  have hv := hv.mono hC (C.trans hle hle₂)
  refine (hC.checkGlobal site .assign hslot).seq ?_
  refine (deref hC ho).bind fun w₃ q q' hle₃ hq => ?_
  refine (hC.checkGlobal site .assignProperty hq).seq ?_
  have ho := ho.mono hC hle₃
  have hv := hv.mono hC hle₃
  refine (hC.callSetters site hE (hC.ref_le hle₃ hslot) ho hv).seq ?_
  refine (deref hC ho).bind fun w₄ p p' hle₄ hp => ?_
  refine (deref hC (hv.mono hC hle₄)).bind fun w₅ q q' hle₅ hq => ?_
  exact hC.setKey key' (hC.ref_le hle₅ hp) hq

/-- Assignments to a name, a member or anything else correspond. -/
theorem assignTo {target : Expr} {site : Site}
    (h : C.Binds u w (.assign site) (.leaf target) st st')
    {value value' : Operand} (hv : C.Operands w value value') :
    C.Couples u w (E.assignTo target value site st)
      (E'.assignTo (target.emptied (C.empties u)) value' site st') fun _ _ _ => True := by
  have hnode : C.runs u w (.expr target) st st' := h.node
  have hother : E.assignTo target value site st =
        unsupported .assignTarget target.kind target.span →
      E'.assignTo (target.emptied (C.empties u)) value' site st' = unsupported .assignTarget
        (target.emptied (C.empties u)).kind (target.emptied (C.empties u)).span →
      C.Couples u w (E.assignTo target value site st)
        (E'.assignTo (target.emptied (C.empties u)) value' site st') fun _ _ _ => True := by
    intro h h'
    rw [h, h', Expr.kind_emptied, Expr.span_pruned]
    exact (hC.unsupported ..).imp fun _ _ _ _ _ => trivial
  cases target with
  | identifier id =>
    have hname := h.names.resolve_left (by simp) id.name (by simp [Pattern.names])
    exact hC.writeName site .assign hnode hname (by simp) hv
  | dot span object name =>
    refine (hE.memberDot hC hnode).bind fun w₁ m m' hle hm => ?_
    exact hE.assignMember_couples hC site hm (hv.mono hC hle)
  | bracket span object key =>
    refine (hE.memberBracket hC hnode).bind fun w₁ m m' hle hm => ?_
    exact hE.assignMember_couples hC site hm (hv.mono hC hle)
  | privateDot span object name =>
    have hobject : C.runs u w (.expr object) st st' :=
      hC.part hnode (by simp [Node.parts, Node.children, Expr.children])
    refine (hE.value hC hobject).bind fun w₁ r r' _ hr => ?_
    exact (hC.checkGlobal site .assignProperty hr).seq (.pure fun _ _ => trivial)
  | _ => exact hother rfl rfl

/-! ## Patterns -/

/-- The leaf of a pattern is bound alike, whatever it is. -/
theorem installLeaf {how : Install} {leaf : Expr} (h : C.Binds u w how (.leaf leaf) st st')
    {value value' : Operand} (hv : C.Operands w value value') :
    C.Couples u w (E.installLeaf how leaf value st)
      (E'.installLeaf how (leaf.emptied (C.empties u)) value' st') fun _ _ _ => True := by
  have hnode : C.runs u w (.expr leaf) st st' := h.node
  have hother : E.installLeaf how leaf value st =
        unsupported .assignBinding leaf.kind leaf.span →
      E'.installLeaf how (leaf.emptied (C.empties u)) value' st' = unsupported .assignBinding
        (leaf.emptied (C.empties u)).kind (leaf.emptied (C.empties u)).span →
      C.Couples u w (E.installLeaf how leaf value st)
        (E'.installLeaf how (leaf.emptied (C.empties u)) value' st') fun _ _ _ => True := by
    intro h h'
    rw [h, h', Expr.kind_emptied, Expr.span_pruned]
    exact (hC.unsupported ..).imp fun _ _ _ _ _ => trivial
  match how with
  | .assign site => exact hE.assignTo hC h hv
  | .lexical =>
    cases leaf with
    | identifier id =>
      refine (hC.top hnode).bind fun w₁ f f' hle hf => ?_
      exact (hC.define id.name hf (hv.mono hC hle)).imp fun _ _ _ _ _ => trivial
    | _ => exact hother rfl rfl
  | .variable =>
    cases leaf with
    | identifier id =>
      have hname := h.names.resolve_left (by simp) id.name (by simp [Pattern.names])
      exact hC.addVariable hnode hname hv
    | _ => exact hother rfl rfl

/-- A name in a pattern is bound. -/
theorem installName {how : Install} {p : Pattern} (h : C.Binds u w how p st st')
    {id : Script.Identifier} (hnode : C.runs u w (.expr (.identifier id)) st st')
    (hid : id.name ∈ p.names) {value value' : Operand} (hv : C.Operands w value value') :
    C.Couples u w (E.installLeaf how (.identifier id) value st)
      (E'.installLeaf how (.identifier id) value' st') fun _ _ _ => True := by
  have hleaf : C.Binds u w how (.leaf (.identifier id)) st st' := by
    refine ⟨hnode, h.names.imp_right fun h name hn => ?_⟩
    rw [Pattern.names, List.mem_singleton] at hn
    exact hn ▸ h _ hid
  exact hE.installLeaf hC hleaf hv

variable {how : Install} {p : Pattern}

/-- An item of an array pattern is bound alike, its default included. -/
theorem bindItem (h : C.Binds u w how p st st') {item : Script.PatternItem}
    (hnode : C.runs u w (.ofItem item) st st')
    (hnames : ∀ target value, item = .mk target value → ∀ name ∈ target.names, name ∈ p.names)
    {elements elements' : Reference} (he : C.ref w elements elements') :
    C.Couples u w (E.bindItem how elements st item)
      (E'.bindItem how elements' st' (item.emptied (C.empties u))) fun _ _ _ => True := by
  obtain ⟨target, value⟩ := item
  have hother : E.bindItem how elements st (.mk target value) = unsupported .assignBinding
        (Script.PatternItem.mk target value).kind (Script.PatternItem.mk target value).span →
      E'.bindItem how elements' st' ((Script.PatternItem.mk target value).emptied (C.empties u)) =
        unsupported .assignBinding ((Script.PatternItem.mk target value).emptied (C.empties u)).kind
          ((Script.PatternItem.mk target value).emptied (C.empties u)).span →
      C.Couples u w (E.bindItem how elements st (.mk target value))
        (E'.bindItem how elements' st' ((Script.PatternItem.mk target value).emptied (C.empties u)))
        fun _ _ _ => True := by
    intro h h'
    rw [h, h', Script.PatternItem.kind_pruned, Script.PatternItem.span_pruned]
    exact (hC.unsupported ..).imp fun _ _ _ _ _ => trivial
  cases value with
  | none =>
    have htarget : C.Binds u w how target st st' :=
      ⟨hnode, h.names.imp_right fun h name hn => h name (hnames _ _ rfl name hn)⟩
    exact hE.bind htarget (.known he)
  | some fallback =>
    cases target with
    | leaf leaf =>
      cases leaf with
      | identifier id =>
        have hfallback : C.runs u w (.expr fallback) st st' :=
          hC.part hnode (by simp [Node.ofItem, Node.parts, Node.children])
        have hid : C.runs u w (.expr (.identifier id)) st st' :=
          hC.part hnode (by simp [Node.ofItem, Node.ofPattern, Node.parts, Node.children])
        refine (hE.value hC hfallback).bind fun w₁ r r' hle hr => ?_
        refine hE.installName hC (h.mono hC hle) (hC.runs_le hle hid)
          (hnames _ _ rfl _ (by simp [Pattern.names])) (.known ?_)
        exact hC.ref_union (hC.ref_le hle he) hr
      | _ => exact hother rfl rfl
    | _ => exact hother rfl rfl

/-- A property of an object pattern is bound alike, its key and its default included. -/
theorem bindProperty (h : C.Binds u w how p st st') {property : Script.PatternProperty}
    (hnode : C.runs u w (.patternProperty property) st st')
    (hnames : ∀ name ∈ Script.propertyNames [property], name ∈ p.names)
    {init init' : Operand} (hi : C.Operands w init init') :
    C.Couples u w (E.bindProperty how init st property)
      (E'.bindProperty how init' st' (property.emptied (C.empties u))) fun _ _ _ => True := by
  cases property with
  | short id fallback =>
    have hid : C.runs u w (.expr (.identifier id)) st st' :=
      hC.part hnode (by simp [Node.parts, Node.children])
    have hname : id.name ∈ p.names := hnames _ (by simp [Script.propertyNames])
    unfold Evaluator.bindProperty
    rw [Script.PatternProperty.emptied, Script.PatternProperty.pruned, Script.prunedExpr?_eq]
    refine (deref hC hi).bind fun w₁ r r' hle hr => ?_
    refine (hC.getKey (.name id.name) hr).bind fun w₂ found found' hle₂ hfound => ?_
    have hle₂ := C.trans hle hle₂
    cases fallback with
    | none =>
      exact hE.installName hC (h.mono hC hle₂) (hC.runs_le hle₂ hid) hname (.known hfound)
    | some fallback =>
      have hfallback : C.runs u w (.expr fallback) st st' :=
        hC.part hnode (by simp [Node.parts, Node.children])
      refine (hE.value hC (hC.runs_le hle₂ hfallback)).bind fun w₃ q q' hle₃ hq => ?_
      have hle₃' := C.trans hle₂ hle₃
      refine hE.installName hC (h.mono hC hle₃') (hC.runs_le hle₃' hid) hname (.known ?_)
      exact hC.ref_union (hC.ref_le hle₃ hfound) hq
  | keyed key computed item =>
    obtain ⟨target, value⟩ := item
    have hkey : C.runs u w (.expr key) st st' :=
      hC.part hnode (by simp [Node.parts, Node.children])
    have hitem : C.runs u w (.ofItem (.mk target value)) st st' :=
      hC.part hnode (by simp [Node.parts, Node.children])
    refine (hE.propertyKey hkey).bind fun w₁ k k' hle hk => ?_
    subst hk
    cases value with
    | none =>
      refine (deref hC (hi.mono hC hle)).bind fun w₂ r r' hle₂ hr => ?_
      refine (hC.getKey k' hr).bind fun w₃ found found' hle₃ hfound => ?_
      refine hE.bind ⟨hC.runs_le (C.trans hle (C.trans hle₂ hle₃)) hitem, ?_⟩ (.known hfound)
      refine h.names.imp_right fun h name hn => hC.installs_le (C.trans hle (C.trans hle₂ hle₃)) ?_
      exact h name (hnames name (by simpa [Script.propertyNames] using hn))
    | some fallback =>
      show C.Couples u w₁ (unsupported .assignBinding (Script.PatternItem.mk target _).kind
          (Script.PatternItem.mk target _).span)
        (unsupported .assignBinding ((Script.PatternItem.mk target _).emptied (C.empties u)).kind
          ((Script.PatternItem.mk target _).emptied (C.empties u)).span) _
      rw [Script.PatternItem.kind_pruned, Script.PatternItem.span_pruned]
      exact (hC.unsupported ..).imp fun _ _ _ _ _ => trivial

/-- The rest of a pattern is bound to containers that correspond. -/
theorem bindRest (h : C.Binds u w how p st st') {rest : Option Pattern}
    (hnode : ∀ q ∈ rest, C.runs u w (.ofPattern q) st st')
    (hnames : ∀ name ∈ Script.restNames rest, name ∈ p.names)
    {container container' : Run Value}
    (hcontainer : C.Couples u w container container' C.value) :
    C.Couples u w (E.bindRest how rest container st)
      (E'.bindRest how (rest.map (Pattern.emptied (C.empties u))) container' st')
      fun _ _ _ => True := by
  cases rest with
  | none => exact .pure fun _ _ => trivial
  | some q =>
    have hother : E.bindRest how (some q) container st = unsupported .restBinding q.kind q.span →
        E'.bindRest how (some (q.emptied (C.empties u))) container' st' = unsupported .restBinding
          (q.emptied (C.empties u)).kind (q.emptied (C.empties u)).span →
        C.Couples u w (E.bindRest how (some q) container st)
          (E'.bindRest how (some (q.emptied (C.empties u))) container' st') fun _ _ _ => True := by
      intro h h'
      rw [h, h', Pattern.kind_pruned, Pattern.span_pruned]
      exact (hC.unsupported ..).imp fun _ _ _ _ _ => trivial
    cases q with
    | leaf leaf =>
      cases leaf with
      | identifier id =>
        refine hcontainer.bind fun w₁ v v' hle hv => ?_
        refine hE.installName hC (h.mono hC hle) (hC.runs_le hle (hnode _ rfl))
          (hnames _ (by simp [Script.restNames, Pattern.names])) (.known (hC.ref_single hv))
      | _ => exact hother rfl rfl
    | _ => exact hother rfl rfl

/-- Patterns of every form are bound alike. -/
theorem bindStep (h : C.Binds u w how p st st') {init init' : Operand}
    (hi : C.Operands w init init') :
    C.Couples u w (E.bindStep how p init st) (E'.bindStep how (p.emptied (C.empties u)) init' st')
      fun _ _ _ => True := by
  cases p with
  | leaf leaf => exact hE.installLeaf hC h hi
  | array span items rest =>
    have hpart : ∀ {c}, c ∈ (Pattern.array span items rest).children → C.runs u w c st st' :=
      fun hc => hC.part h.node hc
    rw [Pattern.emptied, Pattern.pruned, Script.prunedItems_eq, Script.prunedPattern?_eq]
    unfold Evaluator.bindStep
    refine (deref hC hi).bind fun w₁ r r' hle hr => ?_
    refine (hC.getKey .any hr).bind fun w₂ elements elements' hle₂ he => ?_
    have hle₂ := C.trans hle hle₂
    refine (Coupling.Couples.forM (forall₂_map_self _ items) fun w₃ item _ hle₃ hmem heq => ?_).seq
      (hE.bindRest hC (h.mono hC hle₂) (fun q hq => hC.runs_le hle₂ (hpart ?_)) (fun name hn => ?_)
        (hC.newArray he))
    · subst heq
      have hle₃' := C.trans hle₂ hle₃
      cases item with
      | none => exact .pure fun _ _ => trivial
      | some item =>
        refine hE.bindItem hC (h.mono hC hle₃') (hC.runs_le hle₃' (hpart ?_)) ?_
          (hC.ref_le hle₃ he)
        · have hitem : item ∈ items.filterMap id := List.mem_filterMap.2 ⟨_, hmem, rfl⟩
          exact List.mem_append_left _ (List.mem_map_of_mem hitem)
        · rintro target value rfl name hn
          exact List.mem_append_left _ (Script.mem_itemNames hmem hn)
    · rw [Option.mem_def.1 hq]
      simp [Pattern.children]
    · exact List.mem_append_right _ hn
  | object span properties rest =>
    have hpart : ∀ {c}, c ∈ (Pattern.object span properties rest).children → C.runs u w c st st' :=
      fun hc => hC.part h.node hc
    rw [Pattern.emptied, Pattern.pruned, Script.prunedPatternProperties_eq,
      Script.prunedPattern?_eq]
    unfold Evaluator.bindStep
    refine (Coupling.Couples.forM (forall₂_map_self _ properties)
      fun w₃ property _ hle hmem heq => ?_).seq
      (hE.bindRest hC h (fun q hq => hpart ?_) (fun name hn => ?_) ?_)
    · subst heq
      refine hE.bindProperty hC (h.mono hC hle) (hC.runs_le hle (hpart ?_)) (fun name hn => ?_)
        (hi.mono hC hle)
      · exact List.mem_append_left _ (List.mem_map_of_mem hmem)
      · exact List.mem_append_left _ (Script.mem_propertyNames hmem hn)
    · rw [Option.mem_def.1 hq]
      simp [Pattern.children]
    · exact List.mem_append_right _ hn
    · refine (deref hC hi).bind fun w₁ r r' _ hr => ?_
      refine (hC.getKey .any hr).bind fun w₂ elements elements' _ he => ?_
      exact hC.newObject (hC.cell_wildcard he)

/-! ## Expressions that write -/

omit how p in
/-- Assignments of every operator correspond. -/
theorem assign {span : Span} {op : Script.AssignOp} {target : Pattern} {value : Expr}
    (h : C.runs u w (.expr (.assign span op target value)) st st') :
    C.Couples u w (E.assign span op target value st)
      (E'.assign span op (target.emptied (C.empties u)) (value.emptied (C.empties u)) st')
      C.Operands := by
  have hvalue : C.runs u w (.expr value) st st' :=
    hC.part h (by simp [Node.parts, Node.children, Expr.children])
  have htarget : C.Binds u w (.assign ⟨.assign, span⟩) target st st' :=
    ⟨hC.part h (by simp [Node.parts, Node.children, Expr.children]), .inr (hC.assigned h)⟩
  refine (hE.operand hvalue).bind fun w₁ right right' hle hright => ?_
  have hwritten : ∀ {o o'}, C.Operands w₁ o o' → C.Couples u w₁
      (do E.bind (.assign ⟨.assign, span⟩) target o st; return o)
      (do E'.bind (.assign ⟨.assign, span⟩) (target.emptied (C.empties u)) o' st'; return o')
      C.Operands := fun ho =>
    (hE.bind (htarget.mono hC hle) ho).bind fun _ _ _ hle₂ _ =>
      .pure fun _ hle₃ => ho.mono hC (C.trans hle₂ hle₃)
  cases op with
  | plain => exact hwritten hright
  | combined op =>
    dsimp only
    split
    · exact hwritten hright
    · exact hwritten (.primitive hC .any)

omit how p in
/-- Increments and decrements correspond. -/
theorem update {span : Span} {operand : Expr}
    (h : C.runs u w (.expr (.update span operand)) st st') :
    C.Couples u w (E.update span operand st) (E'.update span (operand.emptied (C.empties u)) st')
      C.Operands := by
  have hoperand : C.runs u w (.expr operand) st st' :=
    hC.part h (by simp [Node.parts, Node.children, Expr.children])
  have hend : ∀ {w₁}, C.Couples u w₁ (return Operand.known .anyPrimitive)
      (return Operand.known .anyPrimitive) C.Operands := .pure fun _ _ => .primitive hC .any
  have hmember : ∀ {w₁} {m m' : Operand × Key}, Members C w₁ m m' → C.Couples u w₁
      (do
        let object ← Run.deref m.1
        let _ ← checkGlobal (← getKey object m.2) ⟨.update, span⟩ .update
        let _ ← checkGlobal object ⟨.update, span⟩ .update
        setKey object m.2 .anyPrimitive
        return Operand.known .anyPrimitive)
      (do
        let object ← Run.deref m'.1
        let _ ← checkGlobal (← getKey object m'.2) ⟨.update, span⟩ .update
        let _ ← checkGlobal object ⟨.update, span⟩ .update
        setKey object m'.2 .anyPrimitive
        return Operand.known .anyPrimitive) C.Operands := by
    rintro w₁ ⟨object, key⟩ ⟨object', key'⟩ ⟨ho, hk⟩
    obtain rfl : key' = key := hk
    refine (deref hC ho).bind fun w₂ r r' hle hr => ?_
    refine (hC.getKey key' hr).bind fun w₃ slot slot' hle₃ hslot => ?_
    have hr := hC.ref_le hle₃ hr
    refine (hC.checkGlobal _ .update hslot).seq ((hC.checkGlobal _ .update hr).seq ?_)
    exact (hC.setKey key' hr (hC.ref_primitive .any)).seq hend
  have hvalue : C.Couples u w
      (do
        let _ ← checkGlobal (← E.value operand st) ⟨.update, span⟩ .update
        return Operand.known .anyPrimitive)
      (do
        let _ ← checkGlobal (← E'.value (operand.emptied (C.empties u)) st') ⟨.update, span⟩ .update
        return Operand.known .anyPrimitive) C.Operands :=
    (hE.value hC hoperand).bind fun _ _ _ _ hr => (hC.checkGlobal _ .update hr).seq hend
  cases operand with
  | identifier id =>
    exact (hC.writeName ⟨.update, span⟩ .update hoperand (hC.updated h) (by simp)
      (.primitive hC .any)).seq hend
  | dot _ object name => exact (hE.memberDot hC hoperand).bind fun _ _ _ _ hm => hmember hm
  | bracket _ object key => exact (hE.memberBracket hC hoperand).bind fun _ _ _ _ hm => hmember hm
  | _ => exact hvalue

omit how p in
/-- Deletions of properties correspond. -/
theorem deleteProperty {span : Span} {operand : Expr}
    (h : C.runs u w (.expr (.unary span .delete operand)) st st') :
    C.Couples u w (E.deleteProperty span operand st)
      (E'.deleteProperty span (operand.emptied (C.empties u)) st') C.Operands := by
  have hoperand : C.runs u w (.expr operand) st st' :=
    hC.part h (by simp [Node.parts, Node.children, Expr.children])
  have hend : ∀ {w₁}, C.Couples u w₁ (return Operand.known .boolean)
      (return Operand.known .boolean) C.Operands := .pure fun _ _ => .known hC.ref_boolean
  have hmember : ∀ {w₁} {m m' : Operand × Key}, Members C w₁ m m' → C.Couples u w₁
      (do
        let _ ← checkGlobal (← Run.deref m.1) ⟨.unary, span⟩ .delete
        return Operand.known .boolean)
      (do
        let _ ← checkGlobal (← Run.deref m'.1) ⟨.unary, span⟩ .delete
        return Operand.known .boolean) C.Operands := fun hm =>
    (deref hC hm.1).bind fun _ _ _ _ hr => (hC.checkGlobal _ .delete hr).seq hend
  cases operand with
  | dot _ object name => exact (hE.memberDot hC hoperand).bind fun _ _ _ _ hm => hmember hm
  | bracket _ object key => exact (hE.memberBracket hC hoperand).bind fun _ _ _ _ hm => hmember hm
  | _ => exact (hE.visit hoperand).seq hend

end

end Evaluator.Couples

end FrozenGlobals
