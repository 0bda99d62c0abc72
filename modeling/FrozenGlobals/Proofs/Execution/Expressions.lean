import FrozenGlobals.Analysis
import FrozenGlobals.Proofs.Execution.Reads
import FrozenGlobals.Proofs.Number.Decimal
import FrozenGlobals.Proofs.Script.Parts

/-!
# Expressions

Evaluating an expression of the core covers every execution of it. `Simulates` says so for one
expression and an evaluator, and `SimulatesMember` for the object and the key of a member; there is
one theorem for each form of expression, which takes the parts as hypotheses. `Core.simulates` puts
them together: levels of recursion that reach down the expression are enough.
-/

namespace FrozenGlobals

namespace Execution

open Script (Span Expr Property Node)

/-- A value as a property name is one that a key stands for. -/
def KeyOf (d : Dialect) (k : Key) (v : Val) : Prop :=
  k = .any ∨ ∃ s, v = .scalar s ∧ k.Stands (d.key s)

/-- A value is turned into a property name that its key stands for. -/
theorem Leads.keyName {bs : List Nat} {p g : Nat} {a : State} {m : Chart} {c : Store} {d : Dialect}
    {k : Key} {v : Val} (h : Covering bs p g m a c) (hk : KeyOf d k v) :
    Leads bs p g a m c (d.keyName v) fun _ key => k.Stands key := by
  rcases hk with rfl | ⟨s, rfl, hs⟩
  · cases v with
    | scalar s => exact .pure h .any
    | ref x => exact .get_bind (.orStop h fun _ _ => .any)
  · exact .pure h hs

section
variable (setup : Setup) (d : Dialect) (p g : Nat)

/-- An evaluation in the analysis covers every execution of an expression. -/
def Simulates (E : Evaluator) (e : Expr) : Prop :=
  ∀ bs a, Ready (bs ++ [p, g]) a → ∃ r a',
    E.resolve e (bs ++ [p, g]) setup a = .ok (.known r) a' ∧
    Grown p g (bs ++ [p, g]) a a' ∧
    ∀ m c, Covering bs p g m a c →
      Leads bs p g a' m c (d.eval e) fun m' v => Covers m' r v

/-- An evaluation of the object and the key of a member covers every execution of them. -/
def SimulatesMember (E : Evaluator) (e : Expr) : Prop :=
  ∀ bs a, Ready (bs ++ [p, g]) a → ∃ r k a',
    E.memberTarget e (bs ++ [p, g]) setup a = .ok (.known r, k) a' ∧
    Grown p g (bs ++ [p, g]) a a' ∧
    ∀ m c, Covering bs p g m a c →
      Leads bs p g a' m c (d.evalMember e) fun m' t => Covers m' r t.1 ∧ KeyOf d k t.2

end

section
variable {setup : Setup} {d : Dialect} {p g : Nat} {n : Nat}

/-! ## Names and literals -/

/-- A plain name is covered. -/
theorem simulates_identifier {id : Script.Identifier} (h : IsPlainName id.name) :
    Simulates setup d p g (.ofFuel (n + 1)) (.identifier id) := by
  intro bs a ha
  obtain ⟨r, hr⟩ := ha.plain.meaning_known h (bs ++ [p, g])
  refine ⟨r, a, ?_, .refl a, fun m c hcov => ?_⟩
  · rw [← hr]
    exact Run.lookup_eq setup id.name (bs ++ [p, g]) a
  · rw [Dialect.eval]
    exact .readName hcov hr

/-- Expressions that evaluate to a value without parts, whatever the store. -/
theorem simulates_literal {e : Expr} {r : Reference} {s : Scalar}
    (hres : ∀ stack, (Evaluator.ofFuel (n + 1)).resolve e stack = Pure.pure (.known r))
    (hev : d.eval e = Pure.pure (.scalar s)) : Simulates setup d p g (.ofFuel (n + 1)) e := by
  intro bs a _
  refine ⟨r, a, ?_, .refl a, fun m c hcov => ?_⟩
  · rw [hres]
    rfl
  · rw [hev]
    exact .pure hcov (.scalar m r s)

/-! ## Members -/

/-- A literal as a key names the property that an execution reads. -/
theorem memberKey_literal {E : Evaluator} {key : Expr} {k : Key} (h : Key.ofLiteral? key = some k)
    (stack : Stack) : E.memberKey key stack = Pure.pure k := by
  unfold Evaluator.memberKey
  rw [h]

/-- Members accessed by a plain name are covered if their objects are. -/
theorem simulatesMember_dot {span : Span} {object : Expr} {name : String} {E : Evaluator}
    (hname : IsPlainKey name) (ho : Simulates setup d p g E object) :
    SimulatesMember setup d p g E (.dot span object name) := by
  intro bs a ha
  obtain ⟨r, a₁, heq, hgrown, hlead⟩ := ho bs a ha
  refine ⟨r, .name name, a₁, Run.bind_of_ok heq, hgrown, fun m c hcov => ?_⟩
  rw [Dialect.evalMember]
  refine (hlead m c hcov).andThen fun m' c' v _ hcov' hv => .pure hcov' ?_
  exact ⟨hv, .inr ⟨_, rfl, .name (.inl hname)⟩⟩

/-- Members accessed by a literal are covered if the literal stands for its key. -/
theorem simulatesMember_literal {span : Span} {object key : Expr} {k : Key} {s : Scalar}
    {E : Evaluator} (hk : Key.ofLiteral? key = some k) (hev : d.eval key = Pure.pure (.scalar s))
    (hs : k.Stands (d.key s)) (ho : Simulates setup d p g E object) :
    SimulatesMember setup d p g E (.bracket span object key) := by
  intro bs a ha
  obtain ⟨r, a₁, heq, hgrown, hlead⟩ := ho bs a ha
  refine ⟨r, k, a₁, ?_, hgrown, fun m c hcov => ?_⟩
  · refine (Run.bind_of_ok heq).trans ?_
    rw [memberKey_literal hk]
    rfl
  · rw [Dialect.evalMember, hev]
    refine (hlead m c hcov).andThen fun m' c' v _ hcov' hv => ?_
    exact .pure hcov' ⟨hv, .inr ⟨_, rfl, hs⟩⟩

/-- Members accessed by an expression are covered if object and expression are. -/
theorem simulatesMember_computed {span : Span} {object key : Expr} {E : Evaluator}
    (hk : Key.ofLiteral? key = none) (ho : Simulates setup d p g E object)
    (hkey : Simulates setup d p g E key) :
    SimulatesMember setup d p g E (.bracket span object key) := by
  intro bs a ha
  obtain ⟨r₁, a₁, heq₁, hg₁, hlead₁⟩ := ho bs a ha
  obtain ⟨r₂, a₂, heq₂, hg₂, hlead₂⟩ := hkey bs a₁ (ha.grown hg₁)
  have hmk : E.memberKey key (bs ++ [p, g]) setup a₁ = .ok .any a₂ := by
    unfold Evaluator.memberKey Evaluator.visit
    rw [hk]
    exact Run.bind_of_ok (Run.bind_of_ok heq₂)
  refine ⟨r₁, .any, a₂, ?_, hg₁.trans hg₂, fun m c hcov => ?_⟩
  · exact (Run.bind_of_ok heq₁).trans (Run.bind_of_ok hmk)
  · rw [Dialect.evalMember]
    refine (hlead₁ m c hcov).bind hg₂ fun m₁ c₁ v _ hcov₁ hv => ?_
    refine (hlead₂ m₁ c₁ hcov₁).andThen fun m₂ c₂ w hl hcov₂ _ => ?_
    exact .pure hcov₂ ⟨hv.le (hl.le hcov₁), .inl rfl⟩

/-- Reading a member is covered if its object and key are. -/
theorem simulates_member {e : Expr} (h : isMember e)
    (he : SimulatesMember setup d p g (.ofFuel n) e) :
    Simulates setup d p g (.ofFuel (n + 1)) e := by
  intro bs a ha
  obtain ⟨object, k, a₁, heq, hgrown, hlead⟩ := he bs a ha
  obtain ⟨r, hread, hr⟩ := readMember_runs setup (ha.grown hgrown).plain (.ofFuel n)
    object k (.ofExpr e)
  refine ⟨r, a₁, ?_, hgrown, fun m c hcov => ?_⟩
  · cases e with
    | dot span object name => exact (Run.bind_of_ok heq).trans hread
    | bracket span object key => exact (Run.bind_of_ok heq).trans hread
    | _ => cases h
  · rw [eval_member h]
    refine (hlead m c hcov).andThen fun m₁ c₁ t _ hcov₁ ht => ?_
    refine (Leads.keyName hcov₁ ht.2).andThen
      fun m₂ c₂ key hl hcov₂ hkey => ?_
    exact .readProperty hcov₂ (ht.1.le (hl.le hcov₁)) hkey hr

/-! ## Expressions that write -/

/-- Assignments to a plain name are covered if their values are. -/
theorem simulates_assignName {span : Span} {id : Script.Identifier} {value : Expr}
    (hname : IsPlainName id.name) (hv : Simulates setup d p g (.ofFuel (n + 1)) value) :
    Simulates setup d p g (.ofFuel (n + 2))
      (.assign span .plain (.leaf (.identifier id)) value) := by
  intro bs a ha
  obtain ⟨r, a₁, heq₁, hg₁, hlead⟩ := hv bs a ha
  have ha₁ := ha.grown hg₁
  obtain ⟨a₂, r', heq₂, hg₂, hlookup, hsub, hrep⟩ :=
    writeName_runs setup ha₁ hname r ⟨.assign, span⟩ .assign
  refine ⟨r, a₂, ?_, hg₁.trans hg₂, fun m c hcov => ?_⟩
  · exact (Run.bind_of_ok heq₁).trans (Run.bind_of_ok heq₂)
  · rw [Dialect.eval]
    refine (hlead m c hcov).bind hg₂ fun m₁ c₁ v _ hcov₁ hv => ?_
    exact (Leads.writeName (hcov₁.grown ha₁ hg₂) hlookup (hv.subset hsub)
      fun w hw hglob => hrep (hcov₁.owner?_of_isGlobal hw hglob)).andThen
      fun m₂ c₂ _ hl hcov₂ _ => .pure hcov₂ (hv.le (hl.le hcov₁))

/-- Updates of a plain name are covered. -/
theorem simulates_updateName {span : Span} {id : Script.Identifier} (hname : IsPlainName id.name) :
    Simulates setup d p g (.ofFuel (n + 1)) (.update span (.identifier id)) := by
  intro bs a ha
  obtain ⟨a₁, r', heq₁, hg₁, hlookup, hsub, hrep⟩ :=
    writeName_runs setup ha hname .anyPrimitive ⟨.update, span⟩ .update
  obtain ⟨r, hr⟩ := ha.plain.meaning_known hname (bs ++ [p, g])
  refine ⟨.anyPrimitive, a₁, Run.bind_of_ok heq₁, hg₁, fun m c hcov => ?_⟩
  rw [Dialect.eval]
  refine (Leads.readName hcov hr).bind hg₁ fun m₁ c₁ old _ hcov₁ _ => .get_bind ?_
  refine (Leads.orStop (Q := fun _ _ => True) hcov₁ fun _ _ => trivial).bind hg₁
    fun m₂ c₂ new _ hcov₂ _ => ?_
  exact (Leads.writeName (hcov₂.grown ha hg₁) hlookup (.scalar m₂ r' new.1)
    fun w hw hglob => hrep (hcov₂.owner?_of_isGlobal hw hglob)).andThen
    fun m₃ c₃ _ _ hcov₃ _ => .pure hcov₃ (.scalar m₃ _ new.2)

/-- A write to a key of possibilities: both the slot and the possibilities are checked first. -/
theorem checkedWrite_runs (setup : Setup) (p g : Nat) {stack : Stack} {a : State}
    (ha : Ready stack a) (object value : Reference) (k : Key) (site : Site)
    (onSlot onObject : Violation) :
    ∃ b₁ a₁ b₂ a₂ a₃,
      Run.checkGlobal (a.heap.getKey object k) site onSlot setup a = .ok b₁ a₁ ∧
      Run.checkGlobal object site onObject setup a₁ = .ok b₂ a₂ ∧ Plain a₂ ∧
      Run.setKey object k value setup a₂ = .ok () a₃ ∧ Grown p g stack a a₃ ∧
      (∀ u ∈ object, ∀ ct, a.heap.contents u = some ct →
        a₃.heap.contents u = some (ct.set k value)) ∧
      ((∃ u ∈ object, (a.provenance.find? u).isSome) → Reported a₃ site.span) := by
  obtain ⟨b₁, a₁, hc₁, hg₁, hheap₁, _⟩ :=
    checkGlobal_runs setup p g stack ha.plain (a.heap.getKey object k) site onSlot
  obtain ⟨b₂, a₂, hc₂, hg₂, hheap₂, hrep⟩ :=
    checkGlobal_runs setup p g stack (hg₁.plain ha.plain) object site onObject
  obtain ⟨a₃, hset, hg₃, hcont⟩ := setKey_runs setup p g stack a₂ object k value
  refine ⟨b₁, a₁, b₂, a₂, a₃, hc₁, hc₂, hg₂.plain (hg₁.plain ha.plain), hset,
    hg₁.trans (hg₂.trans hg₃), fun u hu ct hct => hcont u hu ct ?_, fun hex => ?_⟩
  · rw [hheap₂, hheap₁]
    exact hct
  · rw [hg₁.provenance] at hrep
    exact (hrep hex).grown hg₃

/-- What the analysis does when a member is assigned to. -/
theorem assignMember_runs {bs : List Nat} {a a₁ : State} {target : Expr} {object : Reference}
    (value : Reference) {k : Key} {E : Evaluator} (site : Site) (hm : isMember target)
    (ha₁ : Ready (bs ++ [p, g]) a₁)
    (heq : E.memberTarget target (bs ++ [p, g]) setup a = .ok (.known object, k) a₁) :
    ∃ a₂, E.assignTo target (.known value) site (bs ++ [p, g]) setup a = .ok () a₂ ∧
      Grown p g (bs ++ [p, g]) a₁ a₂ ∧
      (∀ u ∈ object, ∀ ct, a₁.heap.contents u = some ct →
        a₂.heap.contents u = some (ct.set k value)) ∧
      ((∃ u ∈ object, (a₁.provenance.find? u).isSome) → Reported a₂ site.span) := by
  obtain ⟨b₁, s₁, b₂, s₂, a₂, hc₁, hc₂, hplain, hset, hrest⟩ := checkedWrite_runs setup p g
    ha₁ object value k site .assign .assignProperty
  refine ⟨a₂, ?_, hrest⟩
  have hbody : (do
      let slot ← Run.getKey (← Run.deref (.known object)) k
      let _ ← Run.checkGlobal slot site .assign
      let _ ← Run.checkGlobal (← Run.deref (.known object)) site .assignProperty
      E.callSetters slot (.known object) (.known value) site
      Run.setKey (← Run.deref (.known object)) k (← Run.deref (.known value)) : Run Unit)
        setup a₁ = .ok () a₂ := by
    show (Run.checkGlobal (a₁.heap.getKey object k) site .assign >>= _) setup a₁ = _
    rw [Run.bind_of_ok hc₁]
    show (Run.checkGlobal object site .assignProperty >>= _) setup s₁ = _
    rw [Run.bind_of_ok hc₂, Run.bind_of_ok (callSetters_eq hplain ..)]
    exact hset
  cases target with
  | dot span object name => exact (Run.bind_of_ok heq).trans hbody
  | bracket span object key => exact (Run.bind_of_ok heq).trans hbody
  | _ => cases hm

/-- Assignments to a member are covered, though the analysis evaluates the value first. -/
theorem simulates_assignMember {span : Span} {target value : Expr} (hm : isMember target)
    (hc : Core false target) (ht : SimulatesMember setup d p g (.ofFuel n) target)
    (hv : Simulates setup d p g (.ofFuel (n + 1)) value) :
    Simulates setup d p g (.ofFuel (n + 2)) (.assign span .plain (.leaf target) value) := by
  intro bs a ha
  obtain ⟨r, a₁, heq₁, hg₁, hlead₁⟩ := hv bs a ha
  have ha₁ := ha.grown hg₁
  obtain ⟨object, k, a₂, heq₂, hg₂, hlead₂⟩ := ht bs a₁ ha₁
  have ha₂ := ha₁.grown hg₂
  obtain ⟨a₃, heq₃, hg₃, hset, hrep⟩ := assignMember_runs r ⟨.assign, span⟩ hm ha₂ heq₂
  refine ⟨r, a₃, ?_, hg₁.trans (hg₂.trans hg₃), fun m c hcov => ?_⟩
  · exact (Run.bind_of_ok heq₁).trans (Run.bind_of_ok heq₃)
  · rw [eval_assignMember hm]
    refine Leads.swap hcov ha hg₁ hg₂ hg₃ (hc.reads_member hm) hlead₂ hlead₁
      fun m₁ m₂ m' c' t v hle₁ hle₂ hcov' ht hv => ?_
    have hv' := hv.le hle₂
    refine (Leads.keyName hcov' ht.2).bind hg₃ fun m₃ c₃ key hl hcov₃ hkey => ?_
    have hle₃ := hl.le hcov'
    exact (Leads.writeProperty hcov₃ (hcov₃.grown ha₂ hg₃) ((ht.1.le hle₁).le hle₃) hkey
      (hv'.le hle₃) hset hrep).andThen
      fun m₄ c₄ _ hl' hcov₄ _ => .pure hcov₄ ((hv'.le hle₃).le (hl'.le hcov₃))

/-- What the analysis does when a member is updated. -/
theorem updateMember_runs {bs : List Nat} {a a₁ : State} {target : Expr} {object : Reference}
    {k : Key} {E : Evaluator} (span : Span) (hm : isMember target)
    (ha₁ : Ready (bs ++ [p, g]) a₁)
    (heq : E.memberTarget target (bs ++ [p, g]) setup a = .ok (.known object, k) a₁) :
    ∃ a₂, E.update span target (bs ++ [p, g]) setup a = .ok (.known .anyPrimitive) a₂ ∧
      Grown p g (bs ++ [p, g]) a₁ a₂ ∧
      (∀ u ∈ object, ∀ ct, a₁.heap.contents u = some ct →
        a₂.heap.contents u = some (ct.set k .anyPrimitive)) ∧
      ((∃ u ∈ object, (a₁.provenance.find? u).isSome) → Reported a₂ span) := by
  obtain ⟨b₁, s₁, b₂, s₂, a₂, hc₁, hc₂, _, hset, hrest⟩ := checkedWrite_runs setup p g
    ha₁ object .anyPrimitive k ⟨.update, span⟩ .update .update
  refine ⟨a₂, ?_, hrest⟩
  have hbody : (do
      let object ← Run.deref (.known object)
      let _ ← Run.checkGlobal (← Run.getKey object k) ⟨.update, span⟩ .update
      let _ ← Run.checkGlobal object ⟨.update, span⟩ .update
      Run.setKey object k .anyPrimitive
      return .known .anyPrimitive : Run Operand) setup a₁ = .ok (.known .anyPrimitive) a₂ := by
    show (Run.checkGlobal (a₁.heap.getKey object k) ⟨.update, span⟩ .update >>= _) setup a₁ = _
    rw [Run.bind_of_ok hc₁, Run.bind_of_ok hc₂, Run.bind_of_ok hset]
    rfl
  cases target with
  | dot span object name => exact (Run.bind_of_ok heq).trans hbody
  | bracket span object key => exact (Run.bind_of_ok heq).trans hbody
  | _ => cases hm

/-- Updates of a member are covered. -/
theorem simulates_updateMember {span : Span} {target : Expr} (hm : isMember target)
    (ht : SimulatesMember setup d p g (.ofFuel n) target) :
    Simulates setup d p g (.ofFuel (n + 1)) (.update span target) := by
  intro bs a ha
  obtain ⟨object, k, a₁, heq₁, hg₁, hlead⟩ := ht bs a ha
  have ha₁ := ha.grown hg₁
  obtain ⟨a₂, heq₂, hg₂, hset, hrep⟩ := updateMember_runs span hm ha₁ heq₁
  refine ⟨.anyPrimitive, a₂, heq₂, hg₁.trans hg₂, fun m c hcov => ?_⟩
  rw [eval_updateMember hm]
  refine (hlead m c hcov).bind hg₂ fun m₁ c₁ t _ hcov₁ ht => ?_
  refine (Leads.keyName hcov₁ ht.2).bind hg₂ fun m₂ c₂ key hl₂ hcov₂ hkey => ?_
  have hbase := ht.1.le (hl₂.le hcov₁)
  refine (Leads.readProperty hcov₂ hbase hkey fun _ hu => hu).bind hg₂
    fun m₃ c₃ old hl₃ hcov₃ _ => .get_bind ?_
  have hbase₃ := hbase.le (hl₃.le hcov₂)
  refine (Leads.orStop (Q := fun m' _ => m' = m₃) hcov₃ fun _ _ => rfl).bind hg₂
    fun m₄ c₄ new _ hcov₄ hm₄ => ?_
  subst hm₄
  exact (Leads.writeProperty hcov₄ (hcov₄.grown ha₁ hg₂) hbase₃ hkey (.scalar m₄ _ new.1) hset
    hrep).andThen fun m₅ c₅ _ _ hcov₅ _ => .pure hcov₅ (.scalar m₅ _ new.2)

/-- Deletions of a member are covered. -/
theorem simulates_deleteMember {span : Span} {target : Expr} (hm : isMember target)
    (ht : SimulatesMember setup d p g (.ofFuel n) target) :
    Simulates setup d p g (.ofFuel (n + 1)) (.unary span .delete target) := by
  intro bs a ha
  obtain ⟨object, k, a₁, heq₁, hg₁, hlead⟩ := ht bs a ha
  have ha₁ := ha.grown hg₁
  obtain ⟨b, a₂, hc, hg₂, _, hrep⟩ := checkGlobal_runs setup p g (bs ++ [p, g])
    ha₁.plain object ⟨.unary, span⟩ .delete
  refine ⟨.boolean, a₂, ?_, hg₁.trans hg₂, fun m c hcov => ?_⟩
  · have hbody : (do
        let _ ← Run.checkGlobal (← Run.deref (.known object)) ⟨.unary, span⟩ .delete
        return .known .boolean : Run Operand) setup a₁ = .ok (.known .boolean) a₂ :=
      Run.bind_of_ok hc
    cases target with
    | dot span object name => exact (Run.bind_of_ok heq₁).trans hbody
    | bracket span object key => exact (Run.bind_of_ok heq₁).trans hbody
    | _ => cases hm
  · rw [Dialect.eval]
    refine (hlead m c hcov).bind hg₂ fun m₁ c₁ t _ hcov₁ ht => ?_
    refine (Leads.keyName hcov₁ ht.2).bind hg₂ fun m₂ c₂ key hl₂ hcov₂ hkey => ?_
    rw [← hg₂.provenance] at hrep
    exact .deleteProperty (hcov₂.grown ha₁ hg₂) (ht.1.le (hl₂.le hcov₁)) hrep

/-! ## Operators -/

/-- Operators in front of an operand are covered. -/
theorem simulates_unary {span : Span} {op : Script.UnaryOp} {operand : Expr} (hop : op ≠ .delete)
    (ho : Simulates setup d p g (.ofFuel n) operand) :
    Simulates setup d p g (.ofFuel (n + 1)) (.unary span op operand) := by
  intro bs a ha
  obtain ⟨r, a₁, heq, hg, hlead⟩ := ho bs a ha
  obtain ⟨x, hx, hor⟩ := eval_unary (d := d) span operand hop
  refine ⟨.anyPrimitive, a₁, ?_, hg, fun m c hcov => ?_⟩
  · cases op with
    | delete => exact absurd rfl hop
    | _ => exact Run.bind_of_ok (Run.bind_of_ok heq)
  · have hlead' : Leads bs p g a₁ m c x fun _ _ => True := by
      rcases hor with rfl | ⟨id, rfl, rfl⟩
      · exact (hlead m c hcov).imp fun _ _ _ => trivial
      · exact .peekName (hcov.grown ha hg)
    rw [hx]
    refine hlead'.andThen fun m₁ c₁ v _ hcov₁ _ => .get_bind ?_
    exact (Leads.orStop (Q := fun _ _ => True) hcov₁ fun _ _ => trivial).andThen
      fun m₂ c₂ s _ hcov₂ _ => .pure hcov₂ (.scalar m₂ _ s)

/-- Operators between operands are covered, whichever operands are evaluated. -/
theorem simulates_binary {span : Span} {op : Script.BinaryOp} {left right : Expr}
    (hl : Simulates setup d p g (.ofFuel n) left)
    (hr : Simulates setup d p g (.ofFuel n) right) :
    Simulates setup d p g (.ofFuel (n + 1)) (.binary span op left right) := by
  intro bs a ha
  obtain ⟨r₁, a₁, heq₁, hg₁, hlead₁⟩ := hl bs a ha
  have ha₁ := ha.grown hg₁
  obtain ⟨r₂, a₂, heq₂, hg₂, hlead₂⟩ := hr bs a₁ ha₁
  refine ⟨Evaluator.binaryResult op r₁ r₂, a₂, ?_, hg₁.trans hg₂, fun m c hcov => ?_⟩
  · exact (Run.bind_of_ok heq₁).trans (Run.bind_of_ok heq₂)
  cases hop : op.isLogical with
  | false =>
    rw [eval_binary hop]
    refine (hlead₁ m c hcov).bind hg₂ fun m₁ c₁ v _ hcov₁ _ => ?_
    refine (hlead₂ m₁ c₁ hcov₁).andThen
      fun m₂ c₂ w _ hcov₂ _ => .get_bind ?_
    exact (Leads.orStop (Q := fun _ _ => True) hcov₂ fun _ _ => trivial).andThen
      fun m₃ c₃ s _ hcov₃ _ => .pure hcov₃ (.scalar m₃ _ s)
  | true =>
    obtain ⟨chooses, heq⟩ := eval_logical (d := d) span left right hop
    have hresult : Evaluator.binaryResult op r₁ r₂ = r₁.union r₂ := by
      rw [Evaluator.binaryResult, hop]
      rfl
    rw [heq, hresult]
    refine (hlead₁ m c hcov).bind hg₂ fun m₁ c₁ v _ hcov₁ hv => ?_
    cases chooses v with
    | true =>
      exact (hlead₂ m₁ c₁ hcov₁).imp fun m' w hw =>
        hw.subset fun u hu => Reference.mem_union.2 (.inr hu)
    | false =>
      exact .pure (hcov₁.grown ha₁ hg₂) (hv.subset fun u hu => Reference.mem_union.2 (.inl hu))

/-- Conditional expressions are covered, whichever branch is taken. -/
theorem simulates_conditional {span : Span} {test yes no : Expr}
    (ht : Simulates setup d p g (.ofFuel n) test) (hy : Simulates setup d p g (.ofFuel n) yes)
    (hn : Simulates setup d p g (.ofFuel n) no) :
    Simulates setup d p g (.ofFuel (n + 1)) (.conditional span test yes no) := by
  intro bs a ha
  obtain ⟨r₁, a₁, heq₁, hg₁, hlead₁⟩ := ht bs a ha
  have ha₁ := ha.grown hg₁
  obtain ⟨r₂, a₂, heq₂, hg₂, hlead₂⟩ := hy bs a₁ ha₁
  have ha₂ := ha₁.grown hg₂
  obtain ⟨r₃, a₃, heq₃, hg₃, hlead₃⟩ := hn bs a₂ ha₂
  refine ⟨r₂.union r₃, a₃, ?_, hg₁.trans (hg₂.trans hg₃), fun m c hcov => ?_⟩
  · have hvisit : (Evaluator.ofFuel n).visit test (bs ++ [p, g]) setup a = .ok () a₁ :=
      Run.bind_of_ok heq₁
    exact (Run.bind_of_ok hvisit).trans ((Run.bind_of_ok heq₂).trans (Run.bind_of_ok heq₃))
  · rw [Dialect.eval]
    refine (hlead₁ m c hcov).bind (hg₂.trans hg₃) fun m₁ c₁ v _ hcov₁ _ => ?_
    cases d.isTrue v with
    | true =>
      -- the analysis goes on with the other branch
      exact ((hlead₂ m₁ c₁ hcov₁).grown ha₂ hg₃).imp fun m' w hw =>
        hw.subset fun u hu => Reference.mem_union.2 (.inl hu)
    | false =>
      exact (hlead₃ m₁ c₁ (hcov₁.grown ha₁ hg₂)).imp fun m' w hw =>
        hw.subset fun u hu => Reference.mem_union.2 (.inr hu)

/-! ## Lists of expressions -/

/-- Expressions one after another, of which the last gives the value. -/
theorem resolveAll_runs {E : Evaluator} {es : List Expr}
    (hes : ∀ e ∈ es, Simulates setup d p g E e) {bs : List Nat} {a : State}
    (ha : Ready (bs ++ [p, g]) a) (r₀ : Reference) : ∃ r a',
      es.foldlM (fun _ e => E.resolve e (bs ++ [p, g])) (.known r₀) setup a = .ok (.known r) a' ∧
      Grown p g (bs ++ [p, g]) a a' ∧
      ∀ m c, Covering bs p g m a c → Leads bs p g a' m c (d.evalAll es) fun m' vs =>
        ∀ v₀, Covers m' r₀ v₀ → Covers m' r (vs.getLast?.getD v₀) := by
  induction es generalizing a r₀ with
  | nil => exact ⟨r₀, a, rfl, .refl a, fun m c hcov => .pure hcov fun v₀ hv₀ => hv₀⟩
  | cons e es ih =>
    obtain ⟨r₁, a₁, heq₁, hg₁, hlead₁⟩ := hes e List.mem_cons_self bs a ha
    obtain ⟨r₂, a₂, heq₂, hg₂, hlead₂⟩ :=
      ih (fun e' he' => hes e' (List.mem_cons_of_mem _ he')) (ha.grown hg₁) r₁
    refine ⟨r₂, a₂, ?_, hg₁.trans hg₂, fun m c hcov => ?_⟩
    · rw [List.foldlM_cons, Run.bind_of_ok heq₁]
      exact heq₂
    · rw [Dialect.evalAll]
      refine (hlead₁ m c hcov).bind hg₂ fun m₁ c₁ v _ hcov₁ hv => ?_
      refine (hlead₂ m₁ c₁ hcov₁).andThen
        fun m₂ c₂ vs hl hcov₂ hvs => .pure hcov₂ fun v₀ _ => ?_
      rw [List.getLast?_cons, Option.getD_some]
      exact hvs v (hv.le (hl.le hcov₁))

/-- Sequences are covered by the last of their expressions. -/
theorem simulates_sequence {span : Span} {items : List Expr}
    (h : ∀ e ∈ items, Simulates setup d p g (.ofFuel n) e) :
    Simulates setup d p g (.ofFuel (n + 1)) (.sequence span items) := by
  intro bs a ha
  obtain ⟨r, a₁, heq, hg, hlead⟩ := resolveAll_runs h ha .undefined
  refine ⟨r, a₁, heq, hg, fun m c hcov => ?_⟩
  rw [Dialect.eval]
  exact (hlead m c hcov).andThen
    fun m₁ c₁ vs _ hcov₁ hvs => .pure hcov₁ (hvs _ (.scalar m₁ _ _))

/-- Expressions one after another, evaluated for their effects. -/
theorem visitAll_runs {E : Evaluator} {es : List Expr}
    (hes : ∀ e ∈ es, Simulates setup d p g E e) {bs : List Nat} {a : State}
    (ha : Ready (bs ++ [p, g]) a) : ∃ a',
      es.forM (fun e => E.visit e (bs ++ [p, g])) setup a = .ok () a' ∧
      Grown p g (bs ++ [p, g]) a a' ∧
      ∀ m c, Covering bs p g m a c → Leads bs p g a' m c (d.evalAll es) fun _ _ => True := by
  induction es generalizing a with
  | nil => exact ⟨a, rfl, .refl a, fun m c hcov => .pure hcov trivial⟩
  | cons e es ih =>
    obtain ⟨r₁, a₁, heq₁, hg₁, hlead₁⟩ := hes e List.mem_cons_self bs a ha
    obtain ⟨a₂, heq₂, hg₂, hlead₂⟩ :=
      ih (fun e' he' => hes e' (List.mem_cons_of_mem _ he')) (ha.grown hg₁)
    refine ⟨a₂, ?_, hg₁.trans hg₂, fun m c hcov => ?_⟩
    · have hvisit : E.visit e (bs ++ [p, g]) setup a = .ok () a₁ := Run.bind_of_ok heq₁
      exact (Run.bind_of_ok hvisit).trans heq₂
    · rw [Dialect.evalAll]
      refine (hlead₁ m c hcov).bind hg₂ fun m₁ c₁ v _ hcov₁ _ => ?_
      exact (hlead₂ m₁ c₁ hcov₁).andThen
        fun m₂ c₂ vs _ hcov₂ _ => .pure hcov₂ trivial

/-- Templates are covered: their parts are evaluated for effects alone. -/
theorem simulates_template {span : Span} {parts : List Expr}
    (h : ∀ e ∈ parts, Simulates setup d p g (.ofFuel n) e) :
    Simulates setup d p g (.ofFuel (n + 1)) (.template span none parts) := by
  intro bs a ha
  obtain ⟨a₁, heq, hg, hlead⟩ := visitAll_runs h ha
  refine ⟨.anyPrimitive, a₁, Run.bind_of_ok heq, hg, fun m c hcov => ?_⟩
  rw [Dialect.eval]
  refine (hlead m c hcov).andThen fun m₁ c₁ vs _ hcov₁ _ => .get_bind ?_
  exact (Leads.orStop (Q := fun _ _ => True) hcov₁ fun _ _ => trivial).andThen
    fun m₂ c₂ s _ hcov₂ _ => .pure hcov₂ (.scalar m₂ _ s)

/-! ## Literals of containers -/

/-- The properties that an execution collected are among the possibilities of their names. -/
def PropsCover (m : Chart) (props : String → Option Val) (r : String → Reference) : Prop :=
  ∀ name v, props name = some v → Covers m (r name) v

/-- Without properties there is nothing to be covered. -/
theorem PropsCover.empty (m : Chart) (r : String → Reference) : PropsCover m (fun _ => none) r := by
  intro name v h
  cases h

/-- Core expressions are no spreads. -/
theorem Core.arrayItem_eq {w : Bool} {e : Expr} (h : Core w e) (E : Evaluator) (stack : Stack) :
    E.arrayItem stack (some e) = E.value e stack := by
  cases h <;> rfl

/-- The items of an array literal. -/
theorem arrayItems_runs {E : Evaluator} {items : List (Option Expr)}
    (hes : ∀ e, some e ∈ items → Simulates setup d p g E e ∧ ∃ w, Core w e) {bs : List Nat}
    {a : State} (ha : Ready (bs ++ [p, g]) a) : ∃ rs a',
      items.mapM (E.arrayItem (bs ++ [p, g])) setup a = .ok rs a' ∧
      Grown p g (bs ++ [p, g]) a a' ∧
      ∀ r, (∀ s ∈ rs, ∀ u ∈ s, u ∈ r) → ∀ m c i props, Covering bs p g m a c →
        PropsCover m props (fun _ => r) →
        Leads bs p g a' m c (d.evalItems i props items) fun m' props' =>
          PropsCover m' props' fun _ => r := by
  induction items generalizing a with
  | nil =>
    refine ⟨[], a, rfl, .refl a, fun r _ m c i props hcov hp => ?_⟩
    rw [Dialect.evalItems]
    exact .pure hcov hp
  | cons item items ih =>
    have hrest : ∀ e, some e ∈ items → Simulates setup d p g E e ∧ ∃ w, Core w e :=
      fun e he => hes e (List.mem_cons_of_mem _ he)
    cases item with
    | none =>
      obtain ⟨rs, a', heq, hg, hlead⟩ := ih hrest ha
      refine ⟨.empty :: rs, a', ?_, hg, fun r hr m c i props hcov hp => ?_⟩
      · rw [List.mapM_cons]
        exact Run.bind_of_ok heq
      · rw [Dialect.evalItems]
        exact hlead r (fun s hs => hr s (List.mem_cons_of_mem _ hs)) m c (i + 1) props hcov hp
    | some e =>
      obtain ⟨hsim, w, hcore⟩ := hes e List.mem_cons_self
      obtain ⟨r₁, a₁, heq₁, hg₁, hlead₁⟩ := hsim bs a ha
      obtain ⟨rs, a₂, heq₂, hg₂, hlead₂⟩ := ih hrest (ha.grown hg₁)
      refine ⟨r₁ :: rs, a₂, ?_, hg₁.trans hg₂, fun r hr m c i props hcov hp => ?_⟩
      · have hitem : E.arrayItem (bs ++ [p, g]) (some e) setup a = .ok r₁ a₁ := by
          rw [hcore.arrayItem_eq]
          exact Run.bind_of_ok heq₁
        rw [List.mapM_cons, Run.bind_of_ok hitem]
        exact Run.bind_of_ok heq₂
      · rw [Dialect.evalItems]
        refine (hlead₁ m c hcov).bind hg₂ fun m₁ c₁ v hl hcov₁ hv => ?_
        refine hlead₂ r (fun s hs => hr s (List.mem_cons_of_mem _ hs)) m₁ c₁ (i + 1) _ hcov₁ ?_
        exact Covers.update (fun name w hw => (hp name w hw).le (hl.le hcov))
          (hv.subset (hr r₁ List.mem_cons_self))

/-- Array literals are covered if their items are. -/
theorem simulates_array {span : Span} {items : List (Option Expr)} {w : Bool}
    (h : ∀ e, some e ∈ items → Simulates setup d p g (.ofFuel n) e)
    (hc : ∀ e, some e ∈ items → Core w e) :
    Simulates setup d p g (.ofFuel (n + 1)) (.array span items) := by
  intro bs a ha
  obtain ⟨rs, a₁, heq₁, hg₁, hlead⟩ := arrayItems_runs (fun e he => ⟨h e he, w, hc e he⟩) ha
  obtain ⟨u, a₂, heq₂, hg₂, hu⟩ := newArray_runs setup p g (bs ++ [p, g]) a₁
    (.unionAll rs)
  refine ⟨.single u, a₂, ?_, hg₁.trans hg₂, fun m c hcov => ?_⟩
  · have harray : Evaluator.arrayOf (.unionAll rs) setup a₁ = .ok (.single u) a₂ :=
      Run.bind_of_ok heq₂
    exact (Run.bind_of_ok heq₁).trans (Run.bind_of_ok harray)
  · rw [Dialect.eval]
    refine (hlead (.unionAll rs) (fun s hs u hu => Reference.mem_unionAll.2 ⟨s, hs, hu⟩) m c 0
      (fun _ => none) hcov (.empty _ _)).bind hg₂ fun m₁ c₁ props _ hcov₁ hp => ?_
    exact .create (hcov₁.grown (ha.grown hg₁) hg₂) hu (.array rfl hp)

/-- A property of an object literal, whatever way it is written. -/
theorem property_runs {E : Evaluator} {property : Property} (hplain : IsPlainProperty property)
    (hes : ∀ e, propertyValue? property = some e → Simulates setup d p g E e)
    {bs : List Nat} {a : State} (ha : Ready (bs ++ [p, g]) a) (o : ObjectCell) :
    ∃ name x r a', E.addProperty (bs ++ [p, g]) o property setup a =
        .ok (o.set (.name name) r) a' ∧
      Grown p g (bs ++ [p, g]) a a' ∧
      (∀ m c, Covering bs p g m a c → Leads bs p g a' m c x fun m' v => Covers m' r v) ∧
      ∀ props rest, d.evalProperties props (property :: rest) = (do
        let v ← x
        d.evalProperties (Cell.update props name (some v)) rest) := by
  have hkeyed : ∀ {value : Expr}, Simulates setup d p g E value → ∃ r a',
      E.value value (bs ++ [p, g]) setup a = .ok r a' ∧ Grown p g (bs ++ [p, g]) a a' ∧
      ∀ m c, Covering bs p g m a c →
        Leads bs p g a' m c (d.eval value) fun m' v => Covers m' r v := by
    intro value hv
    obtain ⟨r, a', heq, hg, hlead⟩ := hv bs a ha
    exact ⟨r, a', Run.bind_of_ok heq, hg, hlead⟩
  unfold IsPlainProperty at hplain
  split at hplain
  · next id =>
    obtain ⟨r, hr⟩ := ha.plain.meaning_known hplain.1 (bs ++ [p, g])
    refine ⟨id.name, d.readName id.name, r, a, ?_, .refl a, fun m c hcov => .readName hcov hr, ?_⟩
    · have hlookup := Run.lookup_eq setup id.name (bs ++ [p, g]) a
      rw [hr] at hlookup
      exact Run.bind_of_ok hlookup
    · intro props rest
      rw [Dialect.evalProperties]
  · next id value =>
    obtain ⟨r, a', heq, hg, hlead⟩ := hkeyed (hes value rfl)
    refine ⟨id.name, d.eval value, r, a', Run.bind_of_ok heq, hg, hlead, fun props rest => ?_⟩
    rw [Dialect.evalProperties]
  · next span text value =>
    obtain ⟨r, a', heq, hg, hlead⟩ := hkeyed (hes value rfl)
    refine ⟨text, d.eval value, r, a', Run.bind_of_ok heq, hg, hlead, fun props rest => ?_⟩
    rw [Dialect.evalProperties]
  · exact hplain.elim

/-- The properties of an object literal. -/
theorem properties_runs {E : Evaluator} {properties : List Property}
    (hplain : ∀ q ∈ properties, IsPlainProperty q)
    (hes : ∀ q ∈ properties, ∀ e, propertyValue? q = some e → Simulates setup d p g E e)
    {bs : List Nat} {a : State} (ha : Ready (bs ++ [p, g]) a) (o : ObjectCell) : ∃ o' a',
      properties.foldlM (E.addProperty (bs ++ [p, g])) o setup a = .ok o' a' ∧
      Grown p g (bs ++ [p, g]) a a' ∧
      ∀ m c props, Covering bs p g m a c → PropsCover m props (fun name => o.get (.name name)) →
        Leads bs p g a' m c (d.evalProperties props properties) fun m' props' =>
          PropsCover m' props' fun name => o'.get (.name name) := by
  induction properties generalizing a o with
  | nil =>
    refine ⟨o, a, rfl, .refl a, fun m c props hcov hp => ?_⟩
    rw [Dialect.evalProperties]
    exact .pure hcov hp
  | cons property properties ih =>
    obtain ⟨name, x, r, a₁, heq₁, hg₁, hlead₁, hev⟩ :=
      property_runs (hplain property List.mem_cons_self) (hes property List.mem_cons_self) ha o
    obtain ⟨o', a₂, heq₂, hg₂, hlead₂⟩ := ih (fun q hq => hplain q (List.mem_cons_of_mem _ hq))
      (fun q hq => hes q (List.mem_cons_of_mem _ hq)) (ha.grown hg₁) (o.set (.name name) r)
    refine ⟨o', a₂, ?_, hg₁.trans hg₂, fun m c props hcov hp => ?_⟩
    · rw [List.foldlM_cons, Run.bind_of_ok heq₁]
      exact heq₂
    · rw [hev]
      refine (hlead₁ m c hcov).bind hg₂ fun m₁ c₁ v hl hcov₁ hv => ?_
      refine hlead₂ m₁ c₁ _ hcov₁ (Covers.update (fun name' w hw => ?_) ?_)
      · exact ((hp name' w hw).le (hl.le hcov)).subset
          fun u hu => ObjectCell.mem_get_set_of_mem_get hu
      · exact hv.subset fun u hu => ObjectCell.mem_get_set hu

/-- Object literals are covered if the values of their properties are. -/
theorem simulates_object {span : Span} {properties : List Property}
    (hplain : ∀ q ∈ properties, IsPlainProperty q)
    (h : ∀ q ∈ properties, ∀ e, propertyValue? q = some e →
      Simulates setup d p g (.ofFuel n) e) :
    Simulates setup d p g (.ofFuel (n + 1)) (.object span properties) := by
  intro bs a ha
  obtain ⟨o, a₁, heq₁, hg₁, hlead⟩ := properties_runs hplain h ha .empty
  obtain ⟨u, a₂, heq₂, hg₂, hu⟩ := newObject_runs setup p g (bs ++ [p, g]) a₁
    o
  refine ⟨.single u, a₂, ?_, hg₁.trans hg₂, fun m c hcov => ?_⟩
  · exact (Run.bind_of_ok heq₁).trans (Run.bind_of_ok heq₂)
  · rw [Dialect.eval]
    refine (hlead m c (fun _ => none) hcov (.empty _ _)).bind hg₂ fun m₁ c₁ props _ hcov₁ hp => ?_
    exact .create (hcov₁.grown (ha.grown hg₁) hg₂) hu (.object rfl hp)

/-! ## All expressions -/

/-- A child of an expression with levels enough for it has levels enough below. -/
theorem height_le_of_child {e : Expr} {c : Node} {n : Nat} (h : (Node.expr e).height ≤ n + 1)
    (hc : c ∈ e.children) : c.height ≤ n := by
  have hlt := Node.height_lt_of_mem_children (n := .expr e) hc
  omega

/-- The value of a property of an object literal has levels enough, too. -/
theorem height_le_of_value {span : Span} {properties : List Property} {q : Property} {e : Expr}
    {n : Nat} (h : (Node.expr (.object span properties)).height ≤ n + 1) (hq : q ∈ properties)
    (he : propertyValue? q = some e) : (Node.expr e).height ≤ n := by
  have hq' : (Node.property q).height ≤ n :=
    height_le_of_child h (by simpa [Expr.children] using hq)
  have hlt : (Node.expr e).height < (Node.property q).height := by
    refine Node.height_lt_of_mem_children ?_
    cases q with
    | keyed key computed kind value =>
      cases he
      simp [Node.children]
    | _ => cases he
  omega

/-- A small whole number stands for the property that it is the decimal of. -/
theorem stands_numeral {i : Nat} (hi : i < 1000000) :
    (Key.ofNumber (some (.ofNat i))).Stands (d.key (.number (.ofNat i))) := by
  have hkey : d.key (.number (.ofNat i)) = toString i := d.numeral_ofNat i hi
  have hname : Key.ofNumber (some (.ofNat i)) = .name (toString i) := by
    simp only [Key.ofNumber, Option.map_some, Option.getD_some, Number.Binary64.text_ofNat hi]
  rw [hkey, hname]
  refine .name (.inr ?_)
  simpa [Key.isIndex] using fun c hc => Nat.isDigit_of_mem_toDigits (by decide) (by decide) hc

/-- An expression is never evaluated without levels: its height is positive. -/
theorem simulates_of_succ {e : Expr}
    (h : ∀ n, (Node.expr e).height ≤ n + 1 → Simulates setup d p g (.ofFuel (n + 1)) e) :
    ∀ n, (Node.expr e).height ≤ n → Simulates setup d p g (.ofFuel n) e := by
  intro n hn
  cases n with
  | zero => exact absurd hn (Nat.not_le_of_gt (Node.height_pos _))
  | succ n => exact h n hn

/-- A member takes one level more than its object and its key. -/
theorem simulates_member_and {e : Expr} (hm : isMember e)
    (h : ∀ n, (Node.expr e).height ≤ n + 1 → SimulatesMember setup d p g (.ofFuel n) e) :
    (∀ n, (Node.expr e).height ≤ n → Simulates setup d p g (.ofFuel n) e) ∧
      (isMember e → ∀ n, (Node.expr e).height ≤ n + 1 →
        SimulatesMember setup d p g (.ofFuel n) e) :=
  ⟨simulates_of_succ fun n hn => simulates_member hm (h n hn), fun _ => h⟩

/-- Levels enough for a node are at least one. -/
theorem exists_succ_of_height_le {n : Nat} {c : Node} (h : c.height ≤ n) : ∃ k, n = k + 1 := by
  have hpos := c.height_pos
  exact ⟨n - 1, by omega⟩

/-- Expressions of the core and their members, at all levels of recursion that are enough. -/
theorem Core.simulates_and {w : Bool} {e : Expr} (h : Core w e) :
    (∀ n, (Node.expr e).height ≤ n → Simulates setup d p g (.ofFuel n) e) ∧
      (isMember e → ∀ n, (Node.expr e).height ≤ n + 1 →
        SimulatesMember setup d p g (.ofFuel n) e) := by
  induction h with
  | identifier hname =>
    exact ⟨simulates_of_succ fun n _ => simulates_identifier hname, of_isMember_eq_false rfl⟩
  | string | boolean | null =>
    exact ⟨simulates_of_succ fun n _ => simulates_literal (fun _ => rfl) (by rw [Dialect.eval]),
      of_isMember_eq_false rfl⟩
  | @number _ _ value =>
    refine ⟨simulates_of_succ fun n _ => ?_, of_isMember_eq_false rfl⟩
    cases value with
    | none | some value => exact simulates_literal (fun _ => rfl) (by rw [Dialect.eval])
  | template _ ih =>
    refine ⟨simulates_of_succ fun n hn => simulates_template fun e he => (ih e he).1 n ?_,
      of_isMember_eq_false rfl⟩
    exact height_le_of_child hn (by simpa [Expr.children] using he)
  | array hc ih =>
    refine ⟨simulates_of_succ fun n hn => simulates_array (fun e he => (ih e he).1 n ?_) hc,
      of_isMember_eq_false rfl⟩
    exact height_le_of_child hn (by simpa [Expr.children] using he)
  | object hplain _ ih =>
    refine ⟨simulates_of_succ fun n hn =>
      simulates_object hplain fun q hq e he => (ih q hq e he).1 n ?_, of_isMember_eq_false rfl⟩
    exact height_le_of_value hn hq he
  | dot hname _ ih =>
    refine simulates_member_and rfl fun n hn => simulatesMember_dot hname (ih.1 n ?_)
    exact height_le_of_child hn (by simp [Expr.children])
  | bracketString hname _ ih =>
    refine simulates_member_and rfl fun n hn => simulatesMember_literal (s := .string _) rfl
      (by rw [Dialect.eval]) (.name (.inl hname)) (ih.1 n ?_)
    exact height_le_of_child hn (by simp [Expr.children])
  | bracketNumber hi _ ih =>
    refine simulates_member_and rfl fun n hn => simulatesMember_literal rfl (by rw [Dialect.eval])
      (stands_numeral hi) (ih.1 n ?_)
    exact height_le_of_child hn (by simp [Expr.children])
  | bracket hk _ _ ih₁ ih₂ =>
    refine simulates_member_and rfl fun n hn =>
      simulatesMember_computed hk (ih₁.1 n ?_) (ih₂.1 n ?_)
    · exact height_le_of_child hn (by simp [Expr.children])
    · exact height_le_of_child hn (by simp [Expr.children])
  | @assignName _ id value hname _ ih =>
    refine ⟨simulates_of_succ fun n hn => ?_, of_isMember_eq_false rfl⟩
    have hid : (Node.expr (.identifier id)).height ≤ n :=
      height_le_of_child hn (by simp [Expr.children, Node.ofPattern])
    have hvalue : (Node.expr value).height ≤ n :=
      height_le_of_child hn (by simp [Expr.children])
    obtain ⟨k, rfl⟩ := exists_succ_of_height_le hid
    exact simulates_assignName hname (ih.1 (k + 1) hvalue)
  | @assignMember _ target value hm hc _ ih₁ ih₂ =>
    refine ⟨simulates_of_succ fun n hn => ?_, of_isMember_eq_false rfl⟩
    have htarget : (Node.expr target).height ≤ n :=
      height_le_of_child hn (by simp [Expr.children, Node.ofPattern])
    have hvalue : (Node.expr value).height ≤ n :=
      height_le_of_child hn (by simp [Expr.children])
    obtain ⟨k, rfl⟩ := exists_succ_of_height_le htarget
    exact simulates_assignMember hm hc (ih₁.2 hm k htarget) (ih₂.1 (k + 1) hvalue)
  | deleteMember hm _ ih =>
    refine ⟨simulates_of_succ fun n hn => simulates_deleteMember hm (ih.2 hm n ?_),
      of_isMember_eq_false rfl⟩
    exact Nat.le_succ_of_le (height_le_of_child hn (by simp [Expr.children]))
  | unary hop _ ih =>
    refine ⟨simulates_of_succ fun n hn => simulates_unary hop (ih.1 n ?_), of_isMember_eq_false rfl⟩
    exact height_le_of_child hn (by simp [Expr.children])
  | updateName hname =>
    exact ⟨simulates_of_succ fun n _ => simulates_updateName hname, of_isMember_eq_false rfl⟩
  | updateMember hm _ ih =>
    refine ⟨simulates_of_succ fun n hn => simulates_updateMember hm (ih.2 hm n ?_),
      of_isMember_eq_false rfl⟩
    exact Nat.le_succ_of_le (height_le_of_child hn (by simp [Expr.children]))
  | binary _ _ ih₁ ih₂ =>
    refine ⟨simulates_of_succ fun n hn => simulates_binary (ih₁.1 n ?_) (ih₂.1 n ?_),
      of_isMember_eq_false rfl⟩
    · exact height_le_of_child hn (by simp [Expr.children])
    · exact height_le_of_child hn (by simp [Expr.children])
  | conditional _ _ _ ih₁ ih₂ ih₃ =>
    refine ⟨simulates_of_succ fun n hn =>
      simulates_conditional (ih₁.1 n ?_) (ih₂.1 n ?_) (ih₃.1 n ?_), of_isMember_eq_false rfl⟩
    · exact height_le_of_child hn (by simp [Expr.children])
    · exact height_le_of_child hn (by simp [Expr.children])
    · exact height_le_of_child hn (by simp [Expr.children])
  | sequence _ ih =>
    refine ⟨simulates_of_succ fun n hn => simulates_sequence fun e he => (ih e he).1 n ?_,
      of_isMember_eq_false rfl⟩
    exact height_le_of_child hn (by simpa [Expr.children] using he)

/-- An analysis with levels enough covers every execution of an expression of the core. -/
theorem Core.simulates {w : Bool} {e : Expr} (h : Core w e) (hn : (Node.expr e).height ≤ n) :
    Simulates setup d p g (.ofFuel n) e := h.simulates_and.1 n hn

end

end Execution

end FrozenGlobals
