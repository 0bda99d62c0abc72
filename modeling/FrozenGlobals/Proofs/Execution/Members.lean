import FrozenGlobals.Proofs.Execution.Names

/-!
# Containers and their members

Reading, writing and deleting a property in an execution and in an analysis that covers it. A key of
the analysis covers a property name if it is that name or stands for any (`Key.Stands`); what is
read under a covered name is covered (`CellCovers.read`), and so is a container written to by both
(`CellCovers.write`). Containers that a script creates extend the chart (`Leads.create`).
-/

namespace FrozenGlobals

/-- A key of the analysis stands for a property name: it is the name, or the wildcard. Names under
which arrays have a method stand for nothing. -/
inductive Key.Stands : Key → String → Prop
  | any {name : String} : Stands .any name
  | name {name : String} : Execution.IsPlainKey name ∨ (Key.name name).isIndex →
      Stands (.name name) name

/-- A write keeps what a container holds. -/
theorem Contents.le_set (ct : Contents) (k : Key) (r : Reference) : ct.Le (ct.set k r) := by
  cases ct with
  | object o => exact .object fun _ _ hv => ObjectCell.mem_get_set_of_mem_get hv
  | array arr => exact .array fun _ hv => ArrayCell.mem_elements_set.2 (.inl hv)

/-- What an object has under a name is read by the keys that stand for it. -/
theorem ObjectCell.mem_get_of_stands {o : ObjectCell} {k : Key} {key : String}
    (hk : k.Stands key) {u : Value} (hu : u ∈ o.get (.name key)) : u ∈ o.get k := by
  cases hk with
  | any => exact ObjectCell.mem_get_any.2 (ObjectCell.holds_of_mem_get hu)
  | name _ => exact hu

/-- The elements of an array are read by the keys that stand for an index. -/
theorem ArrayCell.mem_get_of_stands {arr : ArrayCell} {k : Key} {key : String}
    (hk : k.Stands key) (hlen : key ≠ "length") {u : Value} (hu : u ∈ arr.elements) :
    u ∈ arr.get k := by
  cases hk with
  | any => exact hu
  | name h =>
    unfold ArrayCell.get
    by_cases hi : (Key.name key).isIndex
    · rw [if_pos hi]
      exact hu
    · have hplain : Builtin.find? .arrayInstance key = none := h.resolve_right hi
      rw [if_neg hi]
      simp only [beq_eq_false_iff_ne.2 hlen, hplain]
      exact hu

namespace Execution

open Script (Span)

/-! ## Cells -/

section
variable {m : Chart} {ct : Contents} {cell : Cell} {k : Key} {key : String}

/-- What a container has under a name is among what the analysis reads. -/
theorem CellCovers.read (h : CellCovers m ct cell) (hk : k.Stands key) :
    Covers m (ct.get k) (cell.read key) := by
  have hprop : ∀ {r : Reference}, (∀ v, cell.props key = some v → Covers m r v) →
      Covers m r ((cell.props key).getD .undefined) := by
    intro r hr
    cases hv : cell.props key with
    | none => exact .scalar m r .undefined
    | some v => exact hr v hv
  cases h with
  | object hs h =>
    rw [Cell.read, hs]
    exact hprop fun v hv => (h key v hv).subset fun _ => ObjectCell.mem_get_of_stands hk
  | array hs h =>
    rw [Cell.read, hs]
    by_cases hlen : key = "length"
    · simp only [hlen, if_true]
      exact .scalar m _ _
    · simp only [hlen, if_false]
      exact hprop fun v hv => (h key v hv).subset fun _ => ArrayCell.mem_get_of_stands hk hlen

/-- A property that is written to is among the possibilities of its name. -/
theorem Covers.update {props : String → Option Val} {name : String} {v : Val}
    {r : String → Reference} (h : ∀ n w, props n = some w → Covers m (r n) w)
    (hv : Covers m (r name) v) :
    ∀ n w, Cell.update props name (some v) n = some w → Covers m (r n) w := by
  intro n w hw
  by_cases hn : n = name
  · subst hn
    rw [Cell.update, if_pos rfl] at hw
    cases hw
    exact hv
  · rw [Cell.update, if_neg hn] at hw
    exact h n w hw

/-- A container that an execution and an analysis wrote to is covered. -/
theorem CellCovers.write (h : CellCovers m ct cell) (hk : k.Stands key) {r : Reference} {v : Val}
    (hv : Covers m r v) {length? : Option Nat} {cell' : Cell}
    (hw : cell.write key v length? = some cell') : CellCovers m (ct.set k r) cell' := by
  cases h with
  | object hs h =>
    rw [Cell.write, hs] at hw
    cases hw
    refine .object rfl (Covers.update (fun n w hw => ?_) ?_)
    · exact (h n w hw).subset fun _ hu => ObjectCell.mem_get_set_of_mem_get hu
    · refine hv.subset fun u hu => ?_
      cases hk with
      | any => exact ObjectCell.mem_get_name.2 (.inr ⟨_, rfl, Reference.mem_union.2 (.inr hu)⟩)
      | name _ => exact ObjectCell.mem_get_set hu
  | @array arr _ length hs h =>
    have hold : ∀ n w, cell.props n = some w → Covers m (arr.set k r).elements w :=
      fun n w hw => (h n w hw).subset fun _ hu => ArrayCell.mem_elements_set.2 (.inl hu)
    rw [Cell.write, hs] at hw
    by_cases hlen : key = "length"
    · simp only [hlen, if_true, Option.map_eq_some_iff] at hw
      obtain ⟨n, _, rfl⟩ := hw
      refine .array rfl fun n' w hw => ?_
      simp only at hw
      split at hw
      · cases hw
      · exact hold n' w hw
    · simp only [hlen, if_false, Option.some.injEq] at hw
      subst hw
      refine .array rfl (Covers.update (r := fun _ => (arr.set k r).elements) hold ?_)
      refine hv.subset fun u hu => ArrayCell.mem_elements_set.2 (.inr ⟨?_, hu⟩)
      cases hk with
      | any => nofun
      | name _ =>
        intro heq
        cases heq
        exact hlen rfl

/-- Deleting a property leaves less to be covered. -/
theorem CellCovers.delete (h : CellCovers m ct cell) (key : String) :
    CellCovers m ct (cell.delete key) := by
  have hprops : ∀ n w, (cell.delete key).props n = some w → cell.props n = some w := by
    intro n w hw
    simp only [Cell.delete, Cell.update] at hw
    split at hw
    · cases hw
    · exact hw
  cases h with
  | object hs h => exact .object hs fun n w hw => h n w (hprops n w hw)
  | array hs h => exact .array hs fun n w hw => h n w (hprops n w hw)

end

/-! ## Members in executions -/

section
variable {bs : List Nat} {p g : Nat} {m : Chart} {a a' : State} {c : Store} {d : Dialect}
  {span : Span} {object : Reference} {base : Val} {k : Key} {key : String}

/-- The container an address stands for, with its contents. -/
theorem Covering.cell (h : Covering bs p g m a c) {x : Address} (hb : Covers m object (.ref x)) :
    ∃ u ∈ object, ∃ cell ct, m x = some u ∧ c.cells x = some cell ∧
      a.heap.contents u = some ct ∧ CellCovers m ct cell := by
  obtain ⟨u, hu, hx⟩ := hb x rfl
  obtain ⟨cell, ct, hcell, hct, hcov⟩ := h.cells x u hx
  exact ⟨u, hu, cell, ct, hx, hcell, hct, hcov⟩

/-- A container may be replaced by one that is covered. -/
theorem Covering.put (h : Covering bs p g m a c) {x : Address} {u : Value} {ct : Contents}
    {cell : Cell} (hx : m x = some u) (hct : a.heap.contents u = some ct)
    (hcov : CellCovers m ct cell) : Covering bs p g m a (c.put x cell) where
  cells y w hw := by
    by_cases hy : y = x
    · subst hy
      rw [hx] at hw
      cases hw
      exact ⟨cell, ct, by simp [Store.put], hct, hcov⟩
    · obtain ⟨cell', ct', hcell', hrest⟩ := h.cells y w hw
      exact ⟨cell', ct', by simp [Store.put, hy, hcell'], hrest⟩
  owned := h.owned
  old := h.old
  blocks := h.blocks
  program := h.program
  created := h.created
  globals := h.globals
  named := h.named

/-- Replacing a container that the chart knows of leaves the others alone. -/
theorem Later.put {x : Address} {u : Value} {cell : Cell} (hx : m x = some u) :
    Later m c m (c.put x cell) where
  next := Nat.le_refl _
  same _ _ := rfl
  kept y _ hy := by
    have hne : y ≠ x := by
      rintro rfl
      rw [hx] at hy
      cases hy
    simp [Store.put, hne]

/-- A container that is there is found. -/
theorem Leads.cellAt_bind {x : Address} {cell : Cell} {α : Type} {k : Cell → Exec α}
    {Q : Chart → α → Prop} (hx : c.cells x = some cell) (hk : Leads bs p g a m c (k cell) Q) :
    Leads bs p g a m c (cellAt x >>= k) Q := by
  have heq : cellAt x c = .ok cell c := by
    show Execution.orStop (c.cells x) c = _
    rw [hx]
    rfl
  exact ⟨by rw [endOf, bind_ok heq]; exact hk.reported, by rw [bind_ok heq]; exact hk.ends⟩

/-- What is read from a value is among what the analysis reads from its possibilities. -/
theorem Leads.readProperty {r : Reference} (h : Covering bs p g m a c)
    (hb : Covers m object base) (hk : k.Stands key)
    (hr : ∀ u ∈ a.heap.getKey object k, u ∈ r) :
    Leads bs p g a m c (d.readProperty base key) fun m' v => Covers m' r v := by
  cases base with
  | scalar s =>
    exact (Leads.orStop (Q := fun _ _ => True) h fun _ _ => trivial).andThen
      fun m' c' v _ h' _ => .pure h' (.scalar m' r v)
  | ref x =>
    obtain ⟨u, hu, cell, ct, hx, hcell, hct, hcov⟩ := h.cell hb
    refine .cellAt_bind hcell (.pure h ((hcov.read hk).subset fun w hw => hr w ?_))
    exact Heap.mem_getKey.2 ⟨u, hu, by rw [Heap.getKeyOf_of_contents hct]; exact hw⟩

/-- A host container among possibilities is part of the globals. -/
theorem Covering.exists_owned (h : Covering bs p g m a c) {x : Address}
    (hb : Covers m object (.ref x)) (hx : x.isHost) :
    ∃ u ∈ object, (a.provenance.find? u).isSome := by
  obtain ⟨u, hu, hmx⟩ := hb x rfl
  exact ⟨u, hu, h.owned x u hmx hx⟩

/-- Writing a property that the analysis wrote and, if it is one of a global, reported. -/
theorem Leads.writeProperty {value : Reference} {v : Val} (h : Covering bs p g m a c)
    (h' : Covering bs p g m a' c) (hb : Covers m object base) (hk : k.Stands key)
    (hv : Covers m value v)
    (hset : ∀ u ∈ object, ∀ ct, a.heap.contents u = some ct →
      a'.heap.contents u = some (ct.set k value))
    (hrep : (∃ u ∈ object, (a.provenance.find? u).isSome) → Reported a' span) :
    Leads bs p g a' m c (d.writeProperty span base key v) fun _ _ => True := by
  cases base with
  | scalar s =>
    unfold Dialect.writeProperty
    by_cases hn : (Val.scalar s).isNullish
    · rw [if_pos hn]
      exact .stop
    · rw [if_neg hn]
      exact .pure h' trivial
  | ref x =>
    obtain ⟨u, hu, cell, ct, hx, hcell, hct, hcov⟩ := h.cell hb
    refine .mutate_bind (fun hx => hrep (h.exists_owned hb hx)) fun c₁ hc₁ => ?_
    have h₁ := h'.recorded hc₁
    have hcell₁ : c₁.cells x = some cell := by
      rw [hc₁]
      exact hcell
    refine .cellAt_bind hcell₁ (.get_bind ?_)
    refine (Leads.orStop (Q := fun m' cell' => m' = m ∧ CellCovers m (ct.set k value) cell') h₁
      fun cell' hw => ⟨rfl, hcov.write hk hv hw⟩).andThen
      fun m' c' cell' _ hc' hcell' => ?_
    obtain ⟨rfl, hcov'⟩ := hcell'
    exact .change rfl (.put hx) (hc'.put hx (hset u hu ct hct) hcov') trivial

/-- Deleting a property that the analysis reported if it is one of a global. -/
theorem Leads.deleteProperty {r : Reference} (h : Covering bs p g m a c) (hb : Covers m object base)
    (hrep : (∃ u ∈ object, (a.provenance.find? u).isSome) → Reported a span) :
    Leads bs p g a m c (deleteProperty span base key) fun m' v => Covers m' r v := by
  cases base with
  | scalar s =>
    unfold Execution.deleteProperty
    by_cases hn : (Val.scalar s).isNullish
    · rw [if_pos hn]
      exact .stop
    · rw [if_neg hn]
      exact .pure h (.scalar m r _)
  | ref x =>
    obtain ⟨u, hu, cell, ct, hx, hcell, hct, hcov⟩ := h.cell hb
    refine .mutate_bind (fun hx => hrep (h.exists_owned hb hx)) fun c₁ hc₁ => ?_
    have h₁ := h.recorded hc₁
    have hcell₁ : c₁.cells x = some cell := by
      rw [hc₁]
      exact hcell
    refine .cellAt_bind hcell₁ ?_
    refine (Leads.change (Q := fun _ _ => True) rfl (.put hx)
      (h₁.put hx hct (hcov.delete key)) trivial).andThen
      fun m' c' _ _ hc' _ => .pure hc' (.scalar m' r _)

/-- A container that an execution and an analysis created stands for each other from then on. -/
theorem Leads.create {u : Value} {ct : Contents} {cell : Cell} (h : Covering bs p g m a c)
    (hct : a.heap.contents u = some ct) (hcov : CellCovers m ct cell) :
    Leads bs p g a m c (create cell) fun m' v => Covers m' (.single u) v := by
  let x : Address := .fresh c.next
  let m' : Chart := fun y => if y = x then some u else m y
  have hnew : ¬ c.Has x := fun hx => Nat.lt_irrefl _ (hx c.next rfl)
  have hne : ∀ y, c.Has y → y ≠ x := by
    rintro y hy rfl
    exact hnew hy
  have hle : m.Le m' := by
    intro y w hw
    simp only [m', if_neg (hne y (h.old y w hw))]
    exact hw
  have hadd : FrozenGlobals.Execution.create cell c = .ok (.ref x) (c.add cell).2 := rfl
  refine .of_ok hadd (fun _ hs => .inl hs) ⟨m', ⟨?_, ?_, ?_⟩, ?_, ?_⟩
  · exact Nat.le_succ _
  · intro y hy
    exact if_neg (hne y hy)
  · intro y hy _
    exact if_neg (hne y hy)
  · constructor
    · intro y w hw
      by_cases hy : y = x
      · simp only [m', if_pos hy, Option.some.injEq] at hw
        subst hw
        exact ⟨cell, ct, if_pos hy, hct, hcov.mono hle (.refl ct)⟩
      · simp only [m', if_neg hy] at hw
        obtain ⟨cell', ct', hcell', hct', hcov'⟩ := h.cells y w hw
        exact ⟨cell', ct', (if_neg hy).trans hcell', hct', hcov'.mono hle (.refl ct')⟩
    · intro y w hw hhost
      by_cases hy : y = x
      · rw [hy] at hhost
        cases hhost
      · simp only [m', if_neg hy] at hw
        exact h.owned y w hw hhost
    · intro y w hw
      by_cases hy : y = x
      · intro n hn
        obtain rfl : n = c.next := Address.fresh.inj (hn.symm.trans hy)
        exact Nat.lt_succ_self _
      · simp only [m', if_neg hy] at hw
        exact (h.old y w hw).later (Nat.le_succ _)
    · exact forall₂_imp h.blocks fun f _ scope hcov => ⟨hcov.1.le hle, hcov.2⟩
    · exact h.program.le hle
    · exact h.created
    · exact h.globals.le hle
    · exact h.named
  · intro y hy
    cases hy
    exact ⟨u, Reference.mem_single.2 rfl, if_pos rfl⟩

end

/-! ## Members in analyses -/

section
variable {bs : List Nat} {p g : Nat} {a : State} {setup : Setup} {frames : List Nat}

/-- Containers grow, and nothing else changes. -/
theorem Grown.of_heap {h : Heap} (hf : h.frames = a.heap.frames)
    (hc : h.closures = a.heap.closures)
    (hct : ∀ u ct, a.heap.contents u = some ct → ∃ ct', h.contents u = some ct' ∧ ct.Le ct') :
    Grown p g frames a { a with heap := h } := by
  have hframe : ∀ f, h.frame f = a.heap.frame f := by
    intro f
    rw [Heap.frame, hf]
    rfl
  refine ⟨fun ha => ⟨hc.trans ha.closures, fun f => ?_, ha.unit, ha.anchors⟩, ?_, hct, ?_, ?_, ?_,
    rfl, fun _ hd => hd⟩
  · rw [hframe]
    exact ha.known f
  · exact Nat.le_of_eq (by rw [hf])
  · intro f _ name r hr
    exact ⟨r, by rw [hframe]; exact hr, fun _ hu => hu⟩
  · intro f _ name hn
    exact .inl (by rw [hframe]; exact hn)
  · intro name
    rw [hframe]

/-- The analysis makes a new object that holds what it is given. -/
theorem newObject_runs (setup : Setup) (p g : Nat) (frames : List Nat) (a : State)
    (o : ObjectCell) : ∃ u a', Run.newObject o setup a = .ok u a' ∧ Grown p g frames a a' ∧
      a'.heap.contents u = some (.object o) := by
  refine ⟨_, { a with heap := (a.heap.addObject o).2 }, rfl,
    .of_heap rfl rfl fun u ct hct => ⟨ct, ?_, .refl ct⟩, ?_⟩
  · rw [Heap.contents_addObject, if_neg]
    · exact hct
    · rintro rfl
      rw [Heap.contents_addObject_fresh] at hct
      cases hct
  · exact (Heap.contents_addObject a.heap o _).trans (if_pos rfl)

/-- The analysis makes a new array that holds what it is given. -/
theorem newArray_runs (setup : Setup) (p g : Nat) (frames : List Nat) (a : State)
    (r : Reference) : ∃ u a', Run.newArray r setup a = .ok u a' ∧ Grown p g frames a a' ∧
      a'.heap.contents u = some (.array ⟨r, false⟩) := by
  refine ⟨_, { a with heap := (a.heap.addArray r).2 }, rfl,
    .of_heap rfl rfl fun u ct hct => ⟨ct, ?_, .refl ct⟩, ?_⟩
  · rw [Heap.contents_addArray, if_neg]
    · exact hct
    · rintro rfl
      rw [Heap.contents_addArray_fresh] at hct
      cases hct
  · exact (Heap.contents_addArray a.heap r _).trans (if_pos rfl)

/-- Without functions nothing is an accessor. -/
theorem accessor?_eq (h : Plain a) (v : Value) :
    Evaluator.accessor? v setup a = .ok none a := by
  cases v with
  | function id =>
    have : a.heap.closure? id = none := by
      rw [Heap.closure?, h.closures]
      rfl
    show EStateM.Result.ok ((a.heap.closure? id).bind (·.accessor)) a = _
    rw [this]
    rfl
  | _ => rfl

/-- Without functions a slot is read as what it holds. -/
theorem readSlot_eq (h : Plain a) (E : Evaluator) (object : Operand) (site : Site) (v : Value) :
    E.readSlot object site v setup a = .ok (.single v) a := by
  unfold Evaluator.readSlot
  rw [Run.bind_of_ok (accessor?_eq h v)]
  rfl

/-- A loop that changes nothing ends with what its steps make of the start. -/
theorem foldlM_of_ok {α β : Type} {f : β → α → Run β} {step : β → α → β}
    (h : ∀ b v, f b v setup a = .ok (step b v) a) (vs : List α) (b : β) :
    vs.foldlM f b setup a = .ok (vs.foldl step b) a := by
  induction vs generalizing b with
  | nil => rfl
  | cons v vs ih =>
    rw [List.foldlM_cons, Run.bind_of_ok (h b v)]
    exact ih (step b v)

/-- A loop without results that changes nothing does nothing. -/
theorem forM_of_ok {α : Type} {f : α → Run Unit} (h : ∀ v, f v setup a = .ok () a)
    (vs : List α) : vs.forM f setup a = .ok () a := by
  induction vs with
  | nil => rfl
  | cons v vs ih =>
    show (f v >>= fun _ => vs.forM f) setup a = _
    rw [Run.bind_of_ok (h v)]
    exact ih

/-- Reading a member gives all of what is there. -/
theorem readMember_runs (setup : Setup) (h : Plain a) (E : Evaluator) (object : Reference)
    (key : Key) (site : Site) :
    ∃ r, E.readMember (.known object) key site setup a = .ok (.known r) a ∧
      ∀ u ∈ a.heap.getKey object key, u ∈ r := by
  refine ⟨_, ?_, fun u hu => (Contents.mem_foldl_union_single _ .empty).2 (.inr hu)⟩
  unfold Evaluator.readMember
  rw [Run.bind_of_ok (deref_eq setup (.known object) a)]
  refine Run.bind_of_ok (foldlM_of_ok (fun out v => ?_) _ _)
  exact Run.bind_of_ok (readSlot_eq h E (.known object) site v)

/-- Without functions no setters are called. -/
theorem callSetters_eq (h : Plain a) (E : Evaluator) (slot : Reference) (object value : Operand)
    (site : Site) : E.callSetters slot object value site setup a = .ok () a := by
  refine forM_of_ok (fun v => ?_) slot.values
  rw [Run.bind_of_ok (accessor?_eq h v)]
  rfl

/-- A check of possibilities reports if one of them is part of the globals. -/
theorem checkGlobal_runs (setup : Setup) (p g : Nat) (frames : List Nat) (h : Plain a)
    (r : Reference) (site : Site) (violation : Violation) :
    ∃ b a', Run.checkGlobal r site violation setup a = .ok b a' ∧ Grown p g frames a a' ∧
      a'.heap = a.heap ∧
      ((∃ u ∈ r, (a.provenance.find? u).isSome) → Reported a' site.span) := by
  obtain ⟨own, a', heq, hnotes, hown⟩ := Run.checkGlobal_eq setup r site violation a
  refine ⟨_, a', heq, .of_notes hnotes, hnotes.heap, fun hex => ?_⟩
  have hfound : (a.provenance.findAny? r).isSome := by
    obtain ⟨u, hu, hp⟩ := hex
    rw [Provenance.findAny?, List.findSome?_isSome_iff]
    exact ⟨u, hu, hp⟩
  obtain ⟨d, hd, hspan⟩ := hown hfound
  rw [h.anchors] at hspan
  refine ⟨d, ?_, hspan⟩
  rw [← Array.mem_toList_iff, hnotes.diagnostics]
  exact List.mem_append_right _ hd

/-- A write to a member of possibilities adds to all of them. -/
theorem setKey_runs (setup : Setup) (p g : Nat) (frames : List Nat) (a : State) (object : Reference)
    (key : Key) (value : Reference) :
    ∃ a', Run.setKey object key value setup a = .ok () a' ∧ Grown p g frames a a' ∧
      ∀ u ∈ object, ∀ ct, a.heap.contents u = some ct →
        a'.heap.contents u = some (ct.set key value) := by
  have hsame := Heap.frames_foldl_setKeyOf a.heap key value object.values
  refine ⟨_, rfl, .of_heap hsame.1 hsame.2 fun u ct hct => ?_, fun u hu ct hct => ?_⟩
  · rw [Heap.contents_setKey, hct]
    by_cases hu : u ∈ object
    · rw [if_pos hu]
      exact ⟨_, rfl, ct.le_set key value⟩
    · rw [if_neg hu]
      exact ⟨ct, rfl, .refl ct⟩
  · show (a.heap.setKey object key value).contents u = _
    rw [Heap.contents_setKey, if_pos hu, hct]
    rfl

end

end Execution

end FrozenGlobals
