import FrozenGlobals.Proofs.Execution.Members

/-!
# Computations that do not write

An expression without assignments and updates leaves names alone; it may create containers and
delete properties, so that what was in use has no more properties than before (`Core.reads`). The
analysis evaluates the object of a written member after the value, an execution before it.
`Leads.swap` says that the order does not matter as long as the object is such an expression.
-/

namespace FrozenGlobals.Execution

open Script (Span Expr Property UnaryOp BinaryOp)

/-- Between two stores, names were left alone and containers in use lost properties at most. -/
structure Shrinks (c c' : Store) : Prop where
  next : c.next ≤ c'.next
  blocks : c'.blocks = c.blocks
  program : c'.program = c.program
  globals : c'.globals = c.globals
  cells : ∀ x, c.Has x → ∀ cell, c.cells x = some cell → ∃ cell', c'.cells x = some cell' ∧
    cell'.shape = cell.shape ∧ ∀ k v, cell'.props k = some v → cell.props k = some v

/-- Nothing was lost between a store and itself. -/
theorem Shrinks.refl (c : Store) : Shrinks c c :=
  ⟨Nat.le_refl _, rfl, rfl, rfl, fun _ _ cell h => ⟨cell, h, rfl, fun _ _ hv => hv⟩⟩

/-- What two computations leave alone, both in turn leave alone. -/
theorem Shrinks.trans {c₁ c₂ c₃ : Store} (h : Shrinks c₁ c₂) (h' : Shrinks c₂ c₃) :
    Shrinks c₁ c₃ where
  next := Nat.le_trans h.next h'.next
  blocks := h'.blocks.trans h.blocks
  program := h'.program.trans h.program
  globals := h'.globals.trans h.globals
  cells x hx cell hc := by
    obtain ⟨cell₂, hc₂, hs₂, hp₂⟩ := h.cells x hx cell hc
    obtain ⟨cell₃, hc₃, hs₃, hp₃⟩ := h'.cells x (hx.later h.next) cell₂ hc₂
    exact ⟨cell₃, hc₃, hs₃.trans hs₂, fun k v hv => hp₂ k v (hp₃ k v hv)⟩

/-- What covers a store covers what is left of it. -/
theorem Covering.shrinks {bs : List Nat} {p g : Nat} {m : Chart} {a : State} {c c' : Store}
    (h : Covering bs p g m a c) (hs : Shrinks c c') : Covering bs p g m a c' where
  cells x u hu := by
    obtain ⟨cell, ct, hcell, hct, hcov⟩ := h.cells x u hu
    obtain ⟨cell', hcell', hshape, hprops⟩ := hs.cells x (h.old x u hu) cell hcell
    refine ⟨cell', ct, hcell', hct, ?_⟩
    cases hcov with
    | object hobj hcov =>
      exact .object (hshape.trans hobj) fun k v hv => hcov k v (hprops k v hv)
    | array harr hcov =>
      exact .array (hshape.trans harr) fun k v hv => hcov k v (hprops k v hv)
  owned := h.owned
  old x u hu := (h.old x u hu).later hs.next
  blocks := by
    rw [hs.blocks]
    exact h.blocks
  program := by
    rw [hs.program]
    exact h.program
  created := by
    rw [hs.program]
    exact h.created
  globals := by
    rw [hs.globals]
    exact h.globals
  named := by
    rw [hs.globals]
    exact h.named

/-- A computation that leaves names alone and does not add properties to containers in use. -/
def Reads {α : Type} (x : Exec α) : Prop := ∀ c, Shrinks c (endOf x c)

namespace Reads

variable {α β : Type} {d : Dialect}

/-- A value at hand is no write. -/
theorem pure (v : α) : Reads (Pure.pure v : Exec α) := fun c => .refl c

/-- Stopping is no write. -/
theorem stop : Reads (stop : Exec α) := fun c => .refl c

/-- What the dialect gives, or stopping, is no write. -/
theorem orStop (v? : Option α) : Reads (orStop v?) := by
  cases v? with
  | none => exact stop
  | some v => exact pure v

/-- Reading the store is no write. -/
theorem get_bind {k : Store → Exec α} (h : ∀ s, Reads (k s)) : Reads (get >>= k) := fun c => h c c

/-- Reads one after another are reads. -/
theorem bind {x : Exec α} {k : α → Exec β} (h : Reads x) (hk : ∀ v, Reads (k v)) :
    Reads (x >>= k) := by
  intro c
  have hx := h c
  cases heq : x c with
  | ok v c' =>
    rw [endOf, heq] at hx
    rw [endOf, bind_ok heq]
    exact hx.trans (hk v c')
  | error e c' =>
    rw [endOf, heq] at hx
    rw [endOf, bind_error heq]
    exact hx

/-- Reading a name is no write. -/
theorem readName (name : String) : Reads (d.readName name) := by
  refine get_bind fun s => ?_
  cases s.find name with
  | bound v => exact pure v
  | pending => exact stop
  | absent => exact (orStop _).bind fun _ => pure _

/-- Looking whether a name has a value is no write. -/
theorem peekName (name : String) : Reads (d.peekName name) := by
  refine get_bind fun s => ?_
  cases s.find name with
  | bound v => exact pure v
  | pending => exact stop
  | absent => exact pure _

/-- Turning a value into a property name is no write. -/
theorem keyName (v : Val) : Reads (d.keyName v) := by
  cases v with
  | scalar s => exact pure _
  | ref x => exact get_bind fun _ => orStop _

/-- Looking a container up is no write. -/
theorem cellAt (x : Address) : Reads (cellAt x) := get_bind fun _ => orStop _

/-- Reading a property is no write. -/
theorem readProperty (base : Val) (key : String) : Reads (d.readProperty base key) := by
  cases base with
  | scalar s => exact (orStop _).bind fun _ => pure _
  | ref x => exact (cellAt x).bind fun _ => pure _

/-- A new container is at an address that was not in use. -/
theorem create (cell : Cell) : Reads (create cell) := by
  refine fun c => ⟨Nat.le_succ _, rfl, rfl, rfl, fun x hx cell' hc' => ?_⟩
  have hne : x ≠ .fresh c.next := by
    rintro rfl
    exact Nat.lt_irrefl _ (hx c.next rfl)
  exact ⟨cell', (if_neg hne).trans hc', rfl, fun _ _ hv => hv⟩

/-- Noting a mutation changes no property. -/
theorem mutate (isGlobal : Bool) (span : Span) : Reads (mutate isGlobal span) := by
  intro c
  cases isGlobal with
  | false => exact .refl c
  | true => exact ⟨Nat.le_refl _, rfl, rfl, rfl, (Shrinks.refl c).cells⟩

/-- Deleting a property takes one away. -/
theorem deleteProperty (span : Span) (base : Val) (key : String) :
    Reads (deleteProperty span base key) := by
  cases base with
  | scalar s =>
    unfold Execution.deleteProperty
    by_cases hn : (Val.scalar s).isNullish
    · rw [if_pos hn]
      exact stop
    · rw [if_neg hn]
      exact pure _
  | ref x =>
    refine (mutate x.isHost span).bind fun _ c => ?_
    cases hx : c.cells x with
    | none =>
      have heq : Execution.cellAt x c = .error () c := by
        show Execution.orStop (c.cells x) c = _
        rw [hx]
        rfl
      rw [endOf, bind_error heq]
      exact .refl c
    | some cell =>
      have heq : Execution.cellAt x c = .ok cell c := by
        show Execution.orStop (c.cells x) c = _
        rw [hx]
        rfl
      rw [endOf, bind_ok heq]
      refine ⟨Nat.le_refl _, rfl, rfl, rfl, fun y _ cell' hc' => ?_⟩
      by_cases hy : y = x
      · subst hy
        rw [hx] at hc'
        cases hc'
        refine ⟨cell.delete key, if_pos rfl, rfl, fun k v hv => ?_⟩
        simp only [Cell.delete, Cell.update] at hv
        split at hv
        · cases hv
        · exact hv
      · exact ⟨cell', (if_neg hy).trans hc', rfl, fun _ _ hv => hv⟩

/-- Expressions one after another are reads if each of them is. -/
theorem evalAll {es : List Expr} (h : ∀ e ∈ es, Reads (d.eval e)) : Reads (d.evalAll es) := by
  induction es with
  | nil => exact pure []
  | cons e es ih =>
    rw [Dialect.evalAll]
    refine (h e List.mem_cons_self).bind fun v => ?_
    exact (ih fun e' he' => h e' (List.mem_cons_of_mem _ he')).bind fun _ => pure _

/-- The items of an array literal are reads if each of them is. -/
theorem evalItems {items : List (Option Expr)} (h : ∀ e, some e ∈ items → Reads (d.eval e))
    (i : Nat) (props : String → Option Val) : Reads (d.evalItems i props items) := by
  induction items generalizing i props with
  | nil => exact pure props
  | cons item items ih =>
    have hrest := ih fun e he => h e (List.mem_cons_of_mem _ he)
    cases item with
    | none =>
      rw [Dialect.evalItems]
      exact hrest (i + 1) props
    | some e =>
      rw [Dialect.evalItems]
      exact (h e List.mem_cons_self).bind fun v => hrest _ _

/-- The properties of an object literal are reads if their values are. -/
theorem evalProperties {properties : List Property} (hp : ∀ p ∈ properties, IsPlainProperty p)
    (h : ∀ p ∈ properties, ∀ e, propertyValue? p = some e → Reads (d.eval e))
    (props : String → Option Val) : Reads (d.evalProperties props properties) := by
  induction properties generalizing props with
  | nil => exact pure props
  | cons property properties ih =>
    have hrest := ih (fun p hp' => hp p (List.mem_cons_of_mem _ hp'))
      fun p hp' => h p (List.mem_cons_of_mem _ hp')
    have hv := h property List.mem_cons_self
    have hplain := hp property List.mem_cons_self
    unfold IsPlainProperty at hplain
    split at hplain
    · rw [Dialect.evalProperties]
      exact (readName _).bind fun v => hrest _
    · rw [Dialect.evalProperties]
      exact (hv _ rfl).bind fun v => hrest _
    · rw [Dialect.evalProperties]
      exact (hv _ rfl).bind fun v => hrest _
    · exact hplain.elim

end Reads

section
variable {d : Dialect}

/-- Operators in front of an operand compute a value without parts. The operand of `typeof` may be a
name that does not exist. -/
theorem eval_unary (span : Span) {op : UnaryOp} (operand : Expr) (h : op ≠ .delete) :
    ∃ x : Exec Val, d.eval (.unary span op operand) = (do
        let v ← x
        return .scalar (← orStop (d.unary op (← get) v))) ∧
      (x = d.eval operand ∨ ∃ id, operand = .identifier id ∧ x = d.peekName id.name) := by
  cases op with
  | delete => exact absurd rfl h
  | typeOf =>
    cases operand with
    | identifier id =>
      rw [Dialect.eval]
      exact ⟨_, rfl, .inr ⟨id, rfl, rfl⟩⟩
    | _ =>
      rw [Dialect.eval]
      · exact ⟨_, rfl, .inl rfl⟩
      all_goals simp
  | _ =>
    rw [Dialect.eval]
    · exact ⟨_, rfl, .inl rfl⟩
    all_goals simp

/-- Operators between operands compute a value without parts. -/
theorem eval_binary {span : Span} {op : BinaryOp} {left right : Expr} (h : op.isLogical = false) :
    d.eval (.binary span op left right) = (do
      let v ← d.eval left
      let w ← d.eval right
      return .scalar (← orStop (d.binary op (← get) v w))) := by
  cases op with
  | and | or | nullish => cases h
  | _ =>
    rw [Dialect.eval]
    all_goals simp

/-- Logical operators choose one of their operands. -/
theorem eval_logical (span : Span) {op : BinaryOp} (left right : Expr)
    (h : op.isLogical = true) : ∃ chooses : Val → Bool,
      d.eval (.binary span op left right) = (do
        let v ← d.eval left
        if chooses v then d.eval right else return v) := by
  cases op with
  | and =>
    rw [Dialect.eval]
    exact ⟨d.isTrue, rfl⟩
  | or =>
    rw [Dialect.eval]
    refine ⟨fun v => !d.isTrue v, ?_⟩
    congr 1
    funext v
    by_cases hv : d.isTrue v <;> simp [hv]
  | nullish =>
    rw [Dialect.eval]
    exact ⟨Val.isNullish, rfl⟩
  | _ => cases h

/-- An expression that does not write, and the object and key of one that is a member. -/
theorem Core.reads_and {w : Bool} {e : Expr} (h : Core w e) (hw : w = false) :
    Reads (d.eval e) ∧ (isMember e → Reads (d.evalMember e)) := by
  induction h with
  | identifier _ =>
    rw [Dialect.eval]
    exact ⟨.readName _, of_isMember_eq_false rfl⟩
  | string | boolean | null =>
    rw [Dialect.eval]
    exact ⟨.pure _, of_isMember_eq_false rfl⟩
  | @number _ _ value =>
    cases value with
    | none | some value =>
      rw [Dialect.eval]
      exact ⟨.pure _, of_isMember_eq_false rfl⟩
  | template _ ih =>
    rw [Dialect.eval]
    refine ⟨?_, of_isMember_eq_false rfl⟩
    exact (Reads.evalAll fun e he => (ih e he hw).1).bind fun vs => .get_bind fun s =>
      (Reads.orStop _).bind fun _ => .pure _
  | array _ ih =>
    rw [Dialect.eval]
    refine ⟨?_, of_isMember_eq_false rfl⟩
    exact (Reads.evalItems (fun e he => (ih e he hw).1) 0 _).bind fun _ => .create _
  | object hp _ ih =>
    rw [Dialect.eval]
    refine ⟨?_, of_isMember_eq_false rfl⟩
    exact (Reads.evalProperties hp (fun p hp e he => (ih p hp e he hw).1) _).bind
      fun _ => .create _
  | dot _ _ ih =>
    rw [Dialect.eval, Dialect.evalMember]
    exact ⟨(ih hw).1.bind fun _ => .readProperty _ _, fun _ => (ih hw).1.bind fun _ => .pure _⟩
  | bracketString _ _ ih | bracketNumber _ _ ih =>
    rw [Dialect.eval, Dialect.evalMember, Dialect.eval]
    refine ⟨(ih hw).1.bind fun _ => (Reads.pure _).bind fun _ => ?_, fun _ => ?_⟩
    · exact (Reads.keyName _).bind fun _ => .readProperty _ _
    · exact (ih hw).1.bind fun _ => (Reads.pure _).bind fun _ => .pure _
  | bracket _ _ _ ih₁ ih₂ =>
    rw [Dialect.eval, Dialect.evalMember]
    refine ⟨(ih₁ hw).1.bind fun _ => (ih₂ hw).1.bind fun _ => ?_, fun _ => ?_⟩
    · exact (Reads.keyName _).bind fun _ => .readProperty _ _
    · exact (ih₁ hw).1.bind fun _ => (ih₂ hw).1.bind fun _ => .pure _
  | assignName _ _ _ | assignMember _ _ _ _ _ | updateName _ | updateMember _ _ _ => cases hw
  | deleteMember hm _ ih =>
    rw [Dialect.eval]
    refine ⟨((ih hw).2 hm).bind fun _ => ?_, of_isMember_eq_false rfl⟩
    exact (Reads.keyName _).bind fun _ => .deleteProperty _ _ _
  | unary hop _ ih =>
    obtain ⟨x, heq, hx⟩ := eval_unary (d := d) _ _ hop
    have hreads : Reads x := by
      rcases hx with rfl | ⟨id, _, rfl⟩
      · exact (ih hw).1
      · exact .peekName _
    rw [heq]
    refine ⟨hreads.bind fun _ => .get_bind fun _ => ?_, of_isMember_eq_false rfl⟩
    exact (Reads.orStop _).bind fun _ => .pure _
  | @binary _ _ op _ _ _ _ ih₁ ih₂ =>
    refine ⟨?_, of_isMember_eq_false rfl⟩
    cases hop : op.isLogical with
    | false =>
      rw [eval_binary hop]
      exact (ih₁ hw).1.bind fun _ => (ih₂ hw).1.bind fun _ => .get_bind fun _ =>
        (Reads.orStop _).bind fun _ => .pure _
    | true =>
      obtain ⟨chooses, heq⟩ := eval_logical (d := d) _ _ _ hop
      rw [heq]
      refine (ih₁ hw).1.bind fun v => ?_
      cases chooses v with
      | true => exact (ih₂ hw).1
      | false => exact .pure v
  | conditional _ _ _ ih₁ ih₂ ih₃ =>
    rw [Dialect.eval]
    refine ⟨(ih₁ hw).1.bind fun v => ?_, of_isMember_eq_false rfl⟩
    cases d.isTrue v with
    | true => exact (ih₂ hw).1
    | false => exact (ih₃ hw).1
  | sequence _ ih =>
    rw [Dialect.eval]
    refine ⟨?_, of_isMember_eq_false rfl⟩
    exact (Reads.evalAll fun e he => (ih e he hw).1).bind fun _ => .pure _

/-- The object and the key of a member that do not write read. -/
theorem Core.reads_member {e : Expr} (h : Core false e) (hm : isMember e) :
    Reads (d.evalMember e) := (h.reads_and rfl).2 hm

end

/-! ## The order of evaluation -/

section
variable {bs : List Nat} {p g : Nat} {a₀ a₁ a₂ a₃ : State} {m : Chart} {c : Store}
  {α β γ : Type} {x : Exec α} {y : Exec β} {P : Chart → α → Prop} {Q : Chart → β → Prop}

open Classical in
/-- The chart of what two computations reached that do not see what each other created: the first of
them ended in a store `c`. -/
noncomputable def Chart.join (c : Store) (m m' : Chart) : Chart :=
  fun x => if c.Has x then m x else m' x

/-- What covers each of two computations covers both one after the other. -/
theorem Covering.join {m₁ m₂ : Chart} {c₁ c₂ : Store} (h : Covering bs p g m a₀ c)
    (hl₁ : Later m c m₁ c₁) (h₁ : Covering bs p g m₁ a₁ c₁) (hl₂ : Later m c₁ m₂ c₂)
    (h₂ : Covering bs p g m₂ a₁ c₂) :
    Later m c (.join c₁ m₁ m₂) c₂ ∧ m₁.Le (.join c₁ m₁ m₂) ∧ m₂.Le (.join c₁ m₁ m₂) ∧
      Covering bs p g (.join c₁ m₁ m₂) a₁ c₂ := by
  have hin : ∀ {x}, c₁.Has x → Chart.join c₁ m₁ m₂ x = m₁ x := fun hx => if_pos hx
  have hout : ∀ {x}, ¬ c₁.Has x → Chart.join c₁ m₁ m₂ x = m₂ x := fun hx => if_neg hx
  have hle₁ : m₁.Le (.join c₁ m₁ m₂) := by
    intro x u hu
    rw [hin (h₁.old x u hu)]
    exact hu
  -- what the second computation knows of the past, the first one knows too
  have hsame : ∀ x u, c₁.Has x → m₂ x = some u → m₁ x = some u := by
    intro x u hx hu
    rw [hl₂.same x hx] at hu
    rw [hl₁.same x (h.old x u hu)]
    exact hu
  have hle₂ : m₂.Le (.join c₁ m₁ m₂) := by
    intro x u hu
    by_cases hx : c₁.Has x
    · rw [hin hx]
      exact hsame x u hx hu
    · rw [hout hx]
      exact hu
  refine ⟨⟨?_, ?_, ?_⟩, hle₁, hle₂, ⟨?_, ?_, ?_, ?_, ?_, ?_, ?_, ?_⟩⟩
  · exact Nat.le_trans hl₁.next hl₂.next
  · intro x hx
    rw [hin (hx.later hl₁.next)]
    exact hl₁.same x hx
  · intro x hx hn
    rw [hl₂.kept x (hx.later hl₁.next) hn]
    exact hl₁.kept x hx hn
  · intro x u hu
    by_cases hx : c₁.Has x
    · rw [hin hx] at hu
      cases hm : m x with
      | none =>
        obtain ⟨cell, ct, hcell, hct, hcov⟩ := h₁.cells x u hu
        refine ⟨cell, ct, ?_, hct, hcov.mono hle₁ (.refl ct)⟩
        rw [hl₂.kept x hx hm]
        exact hcell
      | some w =>
        have hw : m₁ x = some w := (hl₁.same x (h.old x w hm)).trans hm
        rw [hu] at hw
        cases hw
        obtain ⟨cell, ct, hcell, hct, hcov⟩ := h₂.cells x u ((hl₂.same x hx).trans hm)
        exact ⟨cell, ct, hcell, hct, hcov.mono hle₂ (.refl ct)⟩
    · rw [hout hx] at hu
      obtain ⟨cell, ct, hcell, hct, hcov⟩ := h₂.cells x u hu
      exact ⟨cell, ct, hcell, hct, hcov.mono hle₂ (.refl ct)⟩
  · intro x u hu
    by_cases hx : c₁.Has x
    · rw [hin hx] at hu
      exact h₁.owned x u hu
    · rw [hout hx] at hu
      exact h₂.owned x u hu
  · intro x u hu
    by_cases hx : c₁.Has x
    · exact hx.later hl₂.next
    · rw [hout hx] at hu
      exact h₂.old x u hu
  · exact forall₂_imp h₂.blocks fun f _ scope hcov => ⟨hcov.1.le hle₂, hcov.2⟩
  · exact h₂.program.le hle₂
  · exact h₂.created
  · exact h₂.globals.le hle₂
  · exact h₂.named

/-- The analysis may evaluate what an execution evaluates second first, if what comes first in the
execution does not write. -/
theorem Leads.swap {frames : List Nat} {k : α → β → Exec γ} {R : Chart → γ → Prop}
    (h : Covering bs p g m a₀ c) (hr : Ready (bs ++ [p, g]) a₀)
    (hg₁ : Grown p g (bs ++ [p, g]) a₀ a₁) (hg₂ : Grown p g (bs ++ [p, g]) a₁ a₂)
    (hg₃ : Grown p g frames a₂ a₃) (hx : Reads x)
    (hfirst : ∀ m c, Covering bs p g m a₁ c → Leads bs p g a₂ m c x P)
    (hsecond : ∀ m c, Covering bs p g m a₀ c → Leads bs p g a₁ m c y Q)
    (hk : ∀ m₁ m₂ m' c' v w, m₁.Le m' → m₂.Le m' → Covering bs p g m' a₂ c' → P m₁ v → Q m₂ w →
      Leads bs p g a₃ m' c' (k v w) R) :
    Leads bs p g a₃ m c (do let v ← x; let w ← y; k v w) R := by
  have hr₁ := hr.grown hg₁
  have hlead := hfirst m c (h.grown hr hg₁)
  have hreads := hx c
  cases hxc : x c with
  | error e c₁ =>
    have hb : (do let v ← x; let w ← y; k v w) c = .error e c₁ := bind_error hxc
    refine ⟨fun span hs => ?_, fun v c' heq => ?_⟩
    · refine (hlead.reported span ?_).imp_right (·.grown hg₃)
      rw [endOf, hb] at hs
      rw [endOf, hxc]
      exact hs
    · rw [hb] at heq
      cases heq
  | ok v c₁ =>
    obtain ⟨m₁, hl₁, hcov₁, hv⟩ := hlead.ends v c₁ hxc
    have hb : (do let v ← x; let w ← y; k v w) c = (y >>= k v) c₁ := bind_ok hxc
    rw [endOf_of_ok hxc] at hreads
    have hlead' := hsecond m c₁ (h.shrinks hreads)
    have hrep : ∀ span ∈ c₁.mutations, span ∈ c.mutations ∨ Reported a₃ span := by
      intro span hs
      rw [← endOf_of_ok hxc] at hs
      exact (hlead.reported span hs).imp_right (·.grown hg₃)
    have hrep' : ∀ span ∈ (endOf y c₁).mutations, span ∈ c.mutations ∨ Reported a₃ span := by
      intro span hs
      rcases hlead'.reported span hs with hs | hs
      · exact hrep span hs
      · exact .inr ((hs.grown hg₂).grown hg₃)
    cases hyc : y c₁ with
    | error e c₂ =>
      have hb' : (y >>= k v) c₁ = .error e c₂ := bind_error hyc
      refine ⟨fun span hs => hrep' span ?_, fun w c' heq => ?_⟩
      · rw [endOf, hb, hb'] at hs
        rw [endOf, hyc]
        exact hs
      · rw [hb, hb'] at heq
        cases heq
    | ok w c₂ =>
      obtain ⟨m₂, hl₂, hcov₂, hw⟩ := hlead'.ends w c₂ hyc
      have hb' : (y >>= k v) c₁ = k v w c₂ := bind_ok hyc
      obtain ⟨hl, hle₁, hle₂, hcov⟩ := h.join hl₁ hcov₁ hl₂ (hcov₂.grown hr₁ hg₂)
      have hlast := hk m₁ m₂ _ c₂ v w hle₁ hle₂ hcov hv hw
      refine ⟨fun span hs => ?_, fun z c' heq => ?_⟩
      · rw [endOf, hb, hb'] at hs
        rcases hlast.reported span hs with hs | hs
        · rw [← endOf_of_ok hyc] at hs
          exact hrep' span hs
        · exact .inr hs
      · rw [hb, hb'] at heq
        obtain ⟨m', hl', hcov', hz⟩ := hlast.ends z c' heq
        exact ⟨m', hl.trans hl', hcov', hz⟩

end

end FrozenGlobals.Execution
