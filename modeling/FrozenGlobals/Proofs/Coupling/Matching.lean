import FrozenGlobals.Proofs.Coupling.Statements

/-!
# Analyses that match value by value

Two analyses match if they do the same step by step and only name values differently: a `Matching`
says which values correspond, what is known of the contents of the states, and which code may be
run. What corresponds does not depend on what was done before, references correspond position by
position, and frames have the same numbers. Some names may be hidden from both programs.

`Matching.Lawful` is about what the states hold, and `Matching.Lawful.laws` derives all that a
coupling has to fulfil.
-/

namespace FrozenGlobals

open Run
open Script (Span Node Expr Pattern Stmt Hoisting ScopeTemplate)

/-! ## Contents of states -/

/-- What an analysis knows of values, and what it has noted for its report. -/
structure Content where
  heap : Heap
  provenance : Provenance
  known : List (Nat × Value)
  thrown : Reference
  diagnostics : Array Diagnostic
  warnings : Array String

namespace State

def content (s : State) : Content :=
  ⟨s.heap, s.provenance, s.known, s.thrown, s.diagnostics, s.warnings⟩

/-- Two analyses differ in their contents and in their logs only. -/
structure Parallel (s t : State) : Prop where
  requests : t.requests = s.requests
  depth : t.depth = s.depth
  calls : t.calls = s.calls
  active : t.active = s.active
  reentries : t.reentries = s.reentries
  budgetWarned : t.budgetWarned = s.budgetWarned
  ceilingWarned : t.ceilingWarned = s.ceilingWarned
  unit : t.unit = s.unit
  anchors : t.anchors = s.anchors

/-- A state is parallel to itself. -/
theorem Parallel.rfl {s : State} : s.Parallel s :=
  ⟨Eq.refl _, Eq.refl _, Eq.refl _, Eq.refl _, Eq.refl _, Eq.refl _, Eq.refl _, Eq.refl _,
    Eq.refl _⟩

end State

/-! ## Names of values -/

/-- What corresponds in two analyses. -/
structure Naming where
  /-- The classes of each program that have no elements in the second analysis. -/
  empties : Nat → Script.Class → Bool
  value : Value → Value → Prop
  /-- Paths are the same in both analyses. -/
  exact : Prop
  /-- Names that the programs do not mention. -/
  hides : String → Prop
  /-- A node of a program may be run. -/
  clear : Nat → Node → Prop

namespace Naming

variable (M : Naming)

/-- References match position by position. -/
def Refs (r r' : Reference) : Prop := List.Forall₂ M.value r.values r'.values

/-- Operands match if both are known and match, or both are everything thrown. -/
inductive Operands : Operand → Operand → Prop
  | known {r r' : Reference} : M.Refs r r' → Operands (.known r) (.known r')
  | thrown : Operands .thrown .thrown

/-- Objects match if they have the same slots in the same order, with matching references. -/
structure Cells (o o' : ObjectCell) : Prop where
  slots : List.Forall₂ (fun s s' => s'.1 = s.1 ∧ M.Refs s.2 s'.2) o.slots o'.slots
  wildcard : Option.Rel M.Refs o.wildcard o'.wildcard

/-- Contents match if they are those of objects that match, or of arrays with matching elements. -/
inductive Held : Contents → Contents → Prop
  | object {o o' : ObjectCell} : M.Cells o o' → Held (.object o) (.object o')
  | array {r r' : Reference} (named : Bool) : M.Refs r r' →
      Held (.array ⟨r, named⟩) (.array ⟨r', named⟩)

/-- Functions match if they have the same code, which may be run, and the same scope. -/
structure Closures (fn fn' : Closure) : Prop where
  name : fn'.name = fn.name
  scope : fn'.scope = fn.scope
  accessor : fn'.accessor = fn.accessor
  code : Option.Rel (fun k k' => k' = ⟨k.unit, k.literal.emptied (M.empties k.unit)⟩ ∧
    M.clear k.unit (.function k.literal)) fn.code fn'.code

/-- Values have the same names in both analyses. -/
def Same : Prop := ∀ v v', M.value v v' ↔ v' = v

/-- Templates match if what they declare may be run. -/
def Templates (u : Nat) (t t' : ScopeTemplate) : Prop :=
  t' = t.emptied (M.empties u) ∧ ∀ fn ∈ t.functions, M.clear u (.function fn)

end Naming

/-- The function with the classes in its code emptied. -/
def Closure.emptied (σ : Nat → Script.Class → Bool) (fn : Closure) : Closure :=
  { fn with code := fn.code.map fun k => ⟨k.unit, k.literal.emptied (σ k.unit)⟩ }

/-- An optional value is related to itself. -/
theorem rel_self {α : Type} {R : α → α → Prop} (h : ∀ a, R a a) (o : Option α) :
    Option.Rel R o o := by
  cases o with
  | none => exact .none
  | some a => exact .some (h a)

namespace Naming

variable {M : Naming}

/-- Functions match if the second one is the first one with its classes emptied. -/
theorem closures_iff {fn fn' : Closure} : M.Closures fn fn' ↔ fn' = fn.emptied M.empties ∧
    ∀ k, fn.code = some k → M.clear k.unit (.function k.literal) := by
  obtain ⟨name, code, scope, accessor⟩ := fn
  obtain ⟨name', code', scope', accessor'⟩ := fn'
  constructor
  · rintro ⟨hname, hscope, haccessor, hcode⟩
    cases hname
    cases hscope
    cases haccessor
    rcases hcode with hcode | _
    · obtain ⟨rfl, hclear⟩ := hcode
      refine ⟨rfl, fun k hk => ?_⟩
      cases hk
      exact hclear
    · exact ⟨rfl, nofun⟩
  · rintro ⟨heq, hclear⟩
    cases heq
    refine ⟨rfl, rfl, rfl, ?_⟩
    cases code with
    | none => exact .none
    | some k => exact .some ⟨rfl, hclear k rfl⟩

/-! ## Values that keep their names -/

namespace Same

variable (hM : M.Same)
include hM

/-- References that keep the names of their values match only if they are equal. -/
theorem refs_iff {r r' : Reference} : M.Refs r r' ↔ r' = r := by
  have hvalues : ∀ {vs vs' : List Value}, List.Forall₂ M.value vs vs' ↔ vs' = vs := by
    intro vs vs'
    constructor
    · intro h
      induction h with
      | nil => rfl
      | cons hv _ ih => rw [(hM _ _).1 hv, ih]
    · rintro rfl
      exact List.forall₂_same.2 fun _ _ => (hM _ _).2 rfl
  obtain ⟨vs, _⟩ := r
  obtain ⟨vs', _⟩ := r'
  unfold Naming.Refs
  rw [hvalues]
  simp

/-- Objects that keep the names of what they hold match only if they are equal. -/
theorem cells_iff {o o' : ObjectCell} : M.Cells o o' ↔ o' = o := by
  have hslots : ∀ {slots slots' : List (String × Reference)}, List.Forall₂ (fun s s' =>
      s'.1 = s.1 ∧ M.Refs s.2 s'.2) slots slots' ↔ slots' = slots := by
    intro slots slots'
    constructor
    · intro h
      induction h with
      | nil => rfl
      | cons hs _ ih => rw [ih, Prod.ext hs.1 (hM.refs_iff.1 hs.2)]
    · rintro rfl
      exact List.forall₂_same.2 fun _ _ => ⟨rfl, hM.refs_iff.2 rfl⟩
  constructor
  · rintro ⟨hs, hw⟩
    obtain ⟨slots, wildcard⟩ := o
    obtain ⟨slots', wildcard'⟩ := o'
    obtain rfl := hslots.1 hs
    cases hw with
    | none => rfl
    | some h => rw [hM.refs_iff.1 h]
  · rintro rfl
    exact ⟨hslots.2 rfl, rel_self (fun _ => hM.refs_iff.2 rfl) _⟩

/-- Operands that keep the names of their values match only if they are equal. -/
theorem operands_iff {o o' : Operand} : M.Operands o o' ↔ o' = o := by
  constructor
  · rintro (h | _)
    · rw [hM.refs_iff.1 h]
    · rfl
  · rintro rfl
    cases o' with
    | known r => exact .known (hM.refs_iff.2 rfl)
    | thrown => exact .thrown

end Same

/-! ## What corresponds -/

variable (M)

/-- What the values and the code of a matching have to fulfil. -/
structure Lawful : Prop where
  kind : ∀ {v v'}, M.value v v' → v'.kind = v.kind
  native : ∀ {v v'}, M.value v v' → v.isNative → v' = v
  primitive : ∀ p : Primitive, M.value (.primitive p) (.primitive p)
  intrinsic : ∀ i : Intrinsic, M.value (.intrinsic i) (.intrinsic i)
  builtin : ∀ b : Builtin, M.value (.builtin b) (.builtin b)
  unique : ∀ {v v' u u'}, M.value v v' → M.value u u' → (v' = u' ↔ v = u)
  /- code -/
  part : ∀ {u n c}, M.clear u n → c ∈ n.parts → M.clear u c
  literal : ∀ {u fn}, M.clear u (.expr (.function fn)) → M.clear u (.function fn)
  params : ∀ {u fn}, M.clear u (.function fn) → M.clear u (.params fn.params)
  body : ∀ {u fn}, M.clear u (.function fn) → M.clear u (.ofBody fn.body)
  identifier : ∀ {u id}, M.clear u (.expr (.identifier id)) → ¬ M.hides id.name

namespace Lawful

variable {M : Naming} (hM : M.Lawful)
include hM

omit hM in
/-- Empty references match. -/
theorem refs_empty : M.Refs .empty .empty := .nil

omit hM in
/-- References of one possibility match if the possibilities do. -/
theorem refs_single {v v' : Value} (h : M.value v v') : M.Refs (.single v) (.single v') :=
  .cons h .nil

/-- A value is a possibility if the matching one is. -/
theorem mem_iff {vs vs' : List Value} {v v' : Value} (h : List.Forall₂ M.value vs vs')
    (hv : M.value v v') : v' ∈ vs' ↔ v ∈ vs := by
  induction h with
  | nil => simp
  | cons hu _ ih => rw [List.mem_cons, List.mem_cons, ih, hM.unique hv hu]

/-- One more matching possibility keeps references matching. -/
theorem refs_insert {r r' : Reference} {v v' : Value} (hr : M.Refs r r') (hv : M.value v v') :
    M.Refs (r.insert v) (r'.insert v') := by
  unfold Reference.insert
  by_cases h : v ∈ r.values
  · rw [dif_pos h, dif_pos ((hM.mem_iff hr hv).2 h)]
    exact hr
  · rw [dif_neg h, dif_neg fun h' => h ((hM.mem_iff hr hv).1 h')]
    exact List.rel_append hr (.cons hv .nil)

/-- Unions of matching references match. -/
theorem refs_union {r r' q q' : Reference} (hr : M.Refs r r') (hq : M.Refs q q') :
    M.Refs (r.union q) (r'.union q') := by
  have hfold : ∀ {vs vs' : List Value}, List.Forall₂ M.value vs vs' → ∀ {r r'}, M.Refs r r' →
      M.Refs (r.insertAll vs) (r'.insertAll vs') := by
    intro vs vs' h
    induction h with
    | nil => exact fun h => h
    | cons hv _ ih => exact fun h => ih (hM.refs_insert h hv)
  exact hfold hq hr

/-- Unions of many matching references match. -/
theorem refs_unionAll {rs rs' : List Reference} (h : List.Forall₂ M.Refs rs rs') :
    M.Refs (.unionAll rs) (.unionAll rs') := by
  have hfold : ∀ q q', M.Refs q q' → M.Refs (rs.foldl .union q) (rs'.foldl .union q') := by
    induction h with
    | nil => exact fun _ _ h => h
    | cons hr _ ih => exact fun _ _ h => ih _ _ (hM.refs_union h hr)
  exact hfold _ _ refs_empty

/-- Matching references hold the same kinds of values. -/
theorem refs_filter {r r' : Reference} (h : M.Refs r r') (f : ValueKind → Bool) {p : Value → Bool}
    (hp : ∀ v, p v = f v.kind) : M.Refs (r.filter p) (r'.filter p) := by
  have hfilter : ∀ {vs vs' : List Value}, List.Forall₂ M.value vs vs' →
      List.Forall₂ M.value (vs.filter p) (vs'.filter p) := by
    intro vs vs' h
    induction h with
    | nil => exact .nil
    | @cons v v' _ _ hv _ ih =>
      rw [List.filter_cons, List.filter_cons, hp v, hp v', hM.kind hv]
      split
      · exact .cons hv ih
      · exact ih
  exact hfilter h

/-- The arrays among matching possibilities match. -/
theorem refs_arrays {r r' : Reference} (h : M.Refs r r') : M.Refs r.arrays r'.arrays :=
  hM.refs_filter h (· == .array) fun _ => rfl

/-- The containers among matching possibilities match. -/
theorem refs_containers {r r' : Reference} (h : M.Refs r r') : M.Refs r.containers r'.containers :=
  hM.refs_filter h (fun k => k == .object || k == .array) fun v => by cases v <;> rfl

omit hM in
/-- Empty objects match. -/
theorem cells_empty : M.Cells .empty .empty := ⟨.nil, .none⟩

omit hM in
/-- Where nothing is held, nothing matches nothing. -/
theorem refs_getD {r r' : Option Reference} (h : Option.Rel M.Refs r r') :
    M.Refs (r.getD .empty) (r'.getD .empty) := by
  cases h with
  | none => exact .nil
  | some h => exact h

omit hM in
/-- Matching slots of one name hold matching references. -/
theorem refs_slot {slots slots' : List (String × Reference)} (name : String)
    (h : List.Forall₂ (fun s s' => s'.1 = s.1 ∧ M.Refs s.2 s'.2) slots slots')
    (w w' : Option Reference) :
    Option.Rel M.Refs (ObjectCell.slot? ⟨slots, w⟩ name) (ObjectCell.slot? ⟨slots', w'⟩ name) := by
  unfold ObjectCell.slot?
  dsimp only
  induction h with
  | nil => exact .none
  | @cons s s' _ _ hs _ ih =>
    obtain ⟨n, q⟩ := s
    obtain ⟨n', q'⟩ := s'
    obtain ⟨rfl, hq⟩ : n' = n ∧ M.Refs q q' := hs
    rw [List.find?_cons, List.find?_cons]
    dsimp only
    cases n' == name with
    | true => exact .some hq
    | false => exact ih

/-- Matching objects hold matching references at each key. -/
theorem cells_get {o o' : ObjectCell} (h : M.Cells o o') (k : Key) :
    M.Refs (o.get k) (o'.get k) := by
  refine hM.refs_union ?_ (refs_getD h.wildcard)
  cases k with
  | any =>
    refine hM.refs_unionAll ?_
    rw [List.forall₂_map_left_iff, List.forall₂_map_right_iff]
    exact h.slots.imp fun _ _ h => h.2
  | name name => exact refs_getD (refs_slot name h.slots _ _)

/-- Matching objects stay matching when matching references are written to them. -/
theorem cells_set {o o' : ObjectCell} {r r' : Reference} (h : M.Cells o o') (k : Key)
    (hr : M.Refs r r') : M.Cells (o.set k r) (o'.set k r') := by
  have hset : ∀ {slots slots' : List (String × Reference)} (name : String),
      List.Forall₂ (fun s s' => s'.1 = s.1 ∧ M.Refs s.2 s'.2) slots slots' →
      List.Forall₂ (fun s s' => s'.1 = s.1 ∧ M.Refs s.2 s'.2) (ObjectCell.setSlot name r slots)
        (ObjectCell.setSlot name r' slots') := by
    intro slots slots' name h
    induction h with
    | nil => exact .cons ⟨rfl, hM.refs_union refs_empty hr⟩ .nil
    | @cons s s' _ _ hs hrest ih =>
      obtain ⟨n, q⟩ := s
      obtain ⟨n', q'⟩ := s'
      obtain ⟨rfl, hq⟩ : n' = n ∧ M.Refs q q' := hs
      rw [ObjectCell.setSlot, ObjectCell.setSlot]
      split
      · exact .cons ⟨rfl, hM.refs_union hq hr⟩ hrest
      · exact .cons ⟨rfl, hq⟩ ih
  cases k with
  | any => exact ⟨h.slots, .some (hM.refs_union (refs_getD h.wildcard) hr)⟩
  | name name => exact ⟨hset name h.slots, h.wildcard⟩

/-- Matching contents stay matching when matching references are written to them. -/
theorem held_set {c c' : Contents} {r r' : Reference} (h : M.Held c c') (k : Key)
    (hr : M.Refs r r') : M.Held (c.set k r) (c'.set k r') := by
  cases h with
  | object h => exact .object (hM.cells_set h k hr)
  | array named h =>
    unfold Contents.set ArrayCell.set
    dsimp only
    split
    · exact .array named h
    · exact .array _ (hM.refs_union h hr)

/-- Values that match are of one kind, and native ones are the same. -/
theorem value_cases {v v' : Value} (h : M.value v v') :
    (∃ id id', v = .object id ∧ v' = .object id') ∨ (∃ id id', v = .array id ∧ v' = .array id') ∨
    (∃ id id', v = .function id ∧ v' = .function id') ∨
    (∃ p p', v = .primitive p ∧ v' = .primitive p') ∨ v.isNative ∧ v' = v := by
  have hkind := hM.kind h
  cases v with
  | intrinsic i => exact .inr (.inr (.inr (.inr ⟨rfl, hM.native h rfl⟩)))
  | builtin b => exact .inr (.inr (.inr (.inr ⟨rfl, hM.native h rfl⟩)))
  | object id => cases v' <;> first | cases hkind; done | exact .inl ⟨_, _, rfl, rfl⟩
  | array id => cases v' <;> first | cases hkind; done | exact .inr (.inl ⟨_, _, rfl, rfl⟩)
  | function id =>
    cases v' <;> first | cases hkind; done | exact .inr (.inr (.inl ⟨_, _, rfl, rfl⟩))
  | primitive p =>
    cases v' <;> first | cases hkind; done | exact .inr (.inr (.inr (.inl ⟨_, _, rfl, rfl⟩)))

end Lawful

end Naming

/-! ## Matchings -/

/-- How two analyses match: what corresponds, and what is known of the contents of their states. -/
structure Matching (A B : Setup) extends Naming where
  content : Content → Content → Prop

namespace Matching

variable {A B : Setup} (M : Matching A B)

/-- A matching as a coupling whose stages are all alike. -/
def coupling : Coupling A B where
  empties := M.empties
  Stage := Unit
  le _ _ := True
  refl _ := trivial
  trans _ _ := trivial
  states _ s t := M.content s.content t.content ∧ s.Parallel t
  value _ := M.value
  ref _ := M.Refs
  cell _ := M.Cells
  frame _ f f' := f' = f
  result _ _ _ _ := True
  runs u _ n st st' := st' = st ∧ M.clear u n
  opens u _ n st st' := st' = st ∧ M.clear u n
  template u _ := M.Templates u
  scope u _ fn st st' := st' = st ∧ M.clear u (.function fn)
  binds _ _ _ := True
  installs _ _ name _ := ¬ M.hides name
  failures e f := f = e
  apart := False
  failures_of_apart h := h.elim
  left _ := True
  right _ := True

/-- Operands correspond in the coupling if they match. -/
theorem operands_iff {o o' : Operand} : M.coupling.Operands () o o' ↔ M.Operands o o' := by
  constructor
  · rintro (h | _)
    · exact .known h
    · exact .thrown
  · rintro (h | _)
    · exact .known h
    · exact .thrown

variable {M} in
/-- Where values keep their names, operands correspond only if they are equal. -/
theorem operands_iff_of_same (hM : M.Same) {o o' : Operand} :
    M.coupling.Operands () o o' ↔ o' = o := M.operands_iff.trans hM.operands_iff

/-- What a matching has to fulfil. -/
structure Lawful : Prop extends M.toNaming.Lawful where
  maxCallDepth : B.options.maxCallDepth = A.options.maxCallDepth
  strict : B.options.strict = A.options.strict
  canceled : B.canceled = A.canceled
  resolver : B.resolver = A.resolver
  external : A.resolver.isSome → M.coupling.External
  programs : ∀ u : Nat, Option.Rel (fun p p' : Prepared =>
    p'.program.body = p.program.body.map (Stmt.emptied (M.empties u)) ∧
      ∀ n start, M.clear u n → n.entry? = some start →
        Option.Rel (M.Templates u) (p.hoisting.find? start) (p'.hoisting.find? start))
    A.programs[u]? B.programs[u]?
  /- what the states hold -/
  thrown : ∀ {c c'}, M.content c c' → M.Refs c.thrown c'.thrown
  object : ∀ {c c' id id'}, M.content c c' → M.value (.object id) (.object id') →
    M.Cells (c.heap.object id) (c'.heap.object id')
  array : ∀ {c c' id id'}, M.content c c' → M.value (.array id) (.array id') →
    M.Refs (c.heap.array id).elements (c'.heap.array id').elements ∧
      (c'.heap.array id').named = (c.heap.array id).named
  closure : ∀ {c c' id id'}, M.content c c' → M.value (.function id) (.function id') →
    Option.Rel M.Closures (c.heap.closure? id) (c'.heap.closure? id')
  binding : ∀ {c c' f name}, M.content c c' → ¬ M.hides name →
    Option.Rel (M.coupling.Operands ()) ((c.heap.frame f).find? name)
      ((c'.heap.frame f).find? name)
  path : ∀ {c c' v v'}, M.content c c' → M.value v v' →
    (c'.provenance.find? v').isSome = (c.provenance.find? v).isSome ∧
      (M.exact → c'.provenance.find? v' = c.provenance.find? v)
  flatten : ∀ {c c' r r'}, M.content c c' → M.Refs r r' →
    M.Refs (c.heap.flatten (List.range c.heap.arrays.size) r.values .empty)
      (c'.heap.flatten (List.range c'.heap.arrays.size) r'.values .empty)
  /- how the states change -/
  throws : ∀ {c c' r r'}, M.content c c' → M.Refs r r' →
    M.content { c with thrown := c.thrown.union r } { c' with thrown := c'.thrown.union r' }
  report : ∀ {c c' d d'}, M.content c c' → d'.span = d.span → (M.exact → d' = d) →
    M.content { c with diagnostics := c.diagnostics.push d }
      { c' with diagnostics := c'.diagnostics.push d' }
  warn : ∀ {c c'} (message : String), M.content c c' →
    M.content
      { c with warnings := if A.options.warnings then c.warnings.push message else c.warnings }
      { c' with warnings := if B.options.warnings then c'.warnings.push message else c'.warnings }
  write : ∀ {c c' v v' r r'} (k : Key), M.content c c' → M.value v v' → M.Refs r r' →
    M.content { c with heap := c.heap.setKeyOf k r v } { c' with heap := c'.heap.setKeyOf k r' v' }
  newObject : ∀ {c c' o o'}, M.content c c' → M.Cells o o' →
    M.value (c.heap.addObject o).1 (c'.heap.addObject o').1 ∧
      M.content { c with heap := (c.heap.addObject o).2 }
        { c' with heap := (c'.heap.addObject o').2 }
  newArray : ∀ {c c' r r'}, M.content c c' → M.Refs r r' →
    M.value (c.heap.addArray r).1 (c'.heap.addArray r').1 ∧
      M.content { c with heap := (c.heap.addArray r).2 } { c' with heap := (c'.heap.addArray r').2 }
  newFrame : ∀ {c c'} (f : Frame), M.content c c' → (∀ b ∈ f.bindings, b.2 = .known .empty) →
    (c'.heap.addFrame f).1 = (c.heap.addFrame f).1 ∧
      M.content { c with heap := (c.heap.addFrame f).2 } { c' with heap := (c'.heap.addFrame f).2 }
  newClosure : ∀ {c c' fn fn'}, M.content c c' → M.Closures fn fn' →
    M.value (c.heap.addClosure fn).1 (c'.heap.addClosure fn').1 ∧
      M.content { c with heap := (c.heap.addClosure fn).2 }
        { c' with heap := (c'.heap.addClosure fn').2 }
  mark : ∀ {c c' id id'} (a : Accessor), M.content c c' → M.value (.function id) (.function id') →
    M.content { c with heap := c.heap.markAccessor id a }
      { c' with heap := c'.heap.markAccessor id' a }
  define : ∀ {c c' o o'} (f : Nat) (name : String), M.content c c' → M.coupling.Operands () o o' →
    M.content { c with heap := c.heap.define f name o } { c' with heap := c'.heap.define f name o' }

namespace Lawful

open Naming.Lawful

variable {M : Matching A B} (hM : M.Lawful)
include hM

/-! ## Contents -/

section
variable {c c' : Content} (hc : M.content c c')
include hc

/-- Matching arrays hold matching references at each key. -/
theorem refs_array {id id' : Nat} (h : M.value (.array id) (.array id')) (k : Key) :
    M.Refs ((c.heap.array id).get k) ((c'.heap.array id').get k) := by
  obtain ⟨he, hn⟩ := hM.array hc h
  unfold ArrayCell.get
  rw [hn]
  split
  · exact he
  · split
    · exact he
    · split
      · exact refs_single (hM.primitive .any)
      · split
        · split
          · exact hM.refs_union (refs_single (hM.builtin _)) he
          · exact refs_single (hM.builtin _)
        · exact he

/-- Matching values hold matching references at each key. -/
theorem refs_getKeyOf {v v' : Value} (h : M.value v v') (k : Key) :
    M.Refs (c.heap.getKeyOf k v) (c'.heap.getKeyOf k v') := by
  obtain ⟨id, id', rfl, rfl⟩ | ⟨id, id', rfl, rfl⟩ | ⟨id, id', rfl, rfl⟩ | ⟨p, p', rfl, rfl⟩ |
    ⟨hn, rfl⟩ := hM.value_cases h
  · exact hM.cells_get (hM.object hc h) k
  · exact hM.refs_array hc h k
  · exact refs_empty
  · exact refs_empty
  · cases v' with
    | intrinsic i =>
      unfold Heap.getKeyOf
      dsimp only
      split
      · split
        · exact refs_single (hM.builtin _)
        · exact refs_empty
      · exact refs_empty
    | builtin b => exact refs_empty
    | _ => cases hn

/-- Matching references hold matching references at each key. -/
theorem refs_getKey {r r' : Reference} (h : M.Refs r r') (k : Key) :
    M.Refs (c.heap.getKey r k) (c'.heap.getKey r' k) := by
  refine hM.refs_unionAll ?_
  rw [List.forall₂_map_left_iff, List.forall₂_map_right_iff]
  exact h.imp fun _ _ hv => hM.refs_getKeyOf hc hv k

/-- Names that are not hidden are bound to matching operands. -/
theorem lookup {name : String} (hn : ¬ M.hides name) (st : Stack) :
    Option.Rel (M.coupling.Operands ()) (c.heap.lookup? st name) (c'.heap.lookup? st name) := by
  unfold Heap.lookup?
  induction st with
  | nil => exact .none
  | cons f st ih =>
    have hf := hM.binding (f := f) hc hn
    rw [List.findSome?_cons, List.findSome?_cons]
    revert hf
    cases (c.heap.frame f).find? name <;> cases (c'.heap.frame f).find? name <;> intro hf <;>
      cases hf
    · exact ih
    · exact .some ‹_›

/-- Names that are not hidden are bound in the same frames. -/
theorem owner {name : String} (hn : ¬ M.hides name) (st : Stack) :
    c'.heap.owner? st name = c.heap.owner? st name := by
  have hsome : ∀ f, ((c'.heap.frame f).find? name).isSome =
      ((c.heap.frame f).find? name).isSome := by
    intro f
    have hf := hM.binding (f := f) hc hn
    revert hf
    cases (c.heap.frame f).find? name <;> cases (c'.heap.frame f).find? name <;> intro hf <;>
      first | rfl | cases hf
  unfold Heap.owner?
  simp only [hsome]

/-- A path is found for matching references or for neither, and the same one if paths are told
apart. -/
theorem findAny {r r' : Reference} (h : M.Refs r r') :
    (c'.provenance.findAny? r').isSome = (c.provenance.findAny? r).isSome ∧
      (M.exact → c'.provenance.findAny? r' = c.provenance.findAny? r) := by
  have hfind : ∀ {vs vs' : List Value}, List.Forall₂ M.value vs vs' →
      (vs'.findSome? c'.provenance.find?).isSome = (vs.findSome? c.provenance.find?).isSome ∧
        (M.exact → vs'.findSome? c'.provenance.find? = vs.findSome? c.provenance.find?) := by
    intro vs vs' h
    induction h with
    | nil => exact ⟨rfl, fun _ => rfl⟩
    | @cons v v' _ _ hv _ ih =>
      obtain ⟨hsome, hexact⟩ := hM.path hc hv
      rw [List.findSome?_cons, List.findSome?_cons]
      cases hp : c.provenance.find? v <;> cases hp' : c'.provenance.find? v' <;>
        rw [hp, hp'] at hsome hexact
      · exact ih
      · cases hsome
      · cases hsome
      · exact ⟨rfl, hexact⟩
  exact hfind h

end

/-- Matching writes keep contents matching. -/
theorem content_setKey {c c' : Content} (hc : M.content c c') {r r' v v' : Reference}
    (hr : M.Refs r r') (hv : M.Refs v v') (k : Key) :
    M.content { c with heap := c.heap.setKey r k v }
      { c' with heap := c'.heap.setKey r' k v' } := by
  have hfold : ∀ {vs vs' : List Value}, List.Forall₂ M.value vs vs' → ∀ {c c'}, M.content c c' →
      M.content { c with heap := vs.foldl (fun h w => h.setKeyOf k v w) c.heap }
        { c' with heap := vs'.foldl (fun h w => h.setKeyOf k v' w) c'.heap } := by
    intro vs vs' h
    induction h with
    | nil => exact fun h => h
    | cons hw _ ih => exact fun hc => ih (hM.write k hc hw hv)
  exact hfold hr hc

end Lawful

end Matching

end FrozenGlobals
