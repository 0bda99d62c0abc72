import FrozenGlobals.Proofs.Coupling.Reports
import FrozenGlobals.Proofs.Frames

/-!
# One program, two sets of globals

Two analyses of one program against different globals match if what the program can name in both is
paired up: the containers of the globals one by one (`Pairing`), and whatever is created afterwards
by the order of its creation (`Pairing.Twin`). One name may be hidden from the program, and then it
may be bound differently or in one analysis only.

`Pairing.lawful` says so, and `Pairing.starts` that it is enough to look at the globals themselves.
-/

namespace FrozenGlobals

open Run
open Script (Span Node Expr Stmt Hoisting ScopeTemplate)

/-! ## Identifiers -/

namespace Script.Node

/-- The name of an identifier. -/
def name? : Node → Option String
  | .expr (.identifier id) => some id.name
  | _ => none

/-- The names of all identifiers in a syntax tree: those that are read or written to, and those that
are declared by patterns. -/
def identifiers (n : Node) : List String :=
  n.name?.toList ++ n.children.attach.flatMap fun ⟨c, _⟩ => identifiers c
termination_by sizeOf n
decreasing_by exact Node.sizeOf_lt_of_mem_children ‹_›

/-- The identifiers of a node are its own name and those of its children. -/
theorem identifiers_eq (n : Node) :
    n.identifiers = n.name?.toList ++ n.children.flatMap identifiers := by
  rw [identifiers]
  simp

/-- A child has no other identifiers than its parent. -/
theorem identifiers_subset {n c : Node} (h : c ∈ n.children) : c.identifiers ⊆ n.identifiers := by
  intro name hname
  rw [identifiers_eq n]
  exact List.mem_append_right _ (List.mem_flatMap.2 ⟨c, h, hname⟩)

/-- What is reached from a node has no other identifiers. -/
theorem Reaches.identifiers_subset {root n : Node} (h : root.Reaches false n) :
    n.identifiers ⊆ root.identifiers := by
  induction h with
  | refl => exact List.Subset.refl _
  | @tail n c _ hc ih =>
    refine List.Subset.trans (Node.identifiers_subset ?_) ih
    unfold reach at hc
    split at hc
    · rwa [children_function]
    · rwa [children_expr_function, children_function]
    · exact hc

end Script.Node

/-! ## Pairs of containers -/

/-- Containers of globals that are alike in two conversions, which may be found under the same
paths. -/
structure Pairing (c c' : Host.Conversion) (exact : Prop) where
  pairs : Value → Value → Prop
  kind : ∀ {v v'}, pairs v v' → v'.kind = v.kind
  unique : ∀ {v v' u u'}, pairs v v' → pairs u u' → (v' = u' ↔ v = u)
  left : ∀ {v v'}, pairs v v' → (c.provenance.find? v).isSome
  right : ∀ {v v'}, pairs v v' → (c'.provenance.find? v').isSome
  path : ∀ {v v'}, exact → pairs v v' → c'.provenance.find? v' = c.provenance.find? v
  recorded : ∀ e ∈ c.provenance.entries, (c.heap.contents e.1).isSome
  recorded' : ∀ e ∈ c'.provenance.entries, (c'.heap.contents e.1).isSome

/-- Only containers that exist have a path. -/
theorem isSome_contents_of_find? {c : Host.Conversion}
    (h : ∀ e ∈ c.provenance.entries, (c.heap.contents e.1).isSome) {v : Value}
    (hv : (c.provenance.find? v).isSome) : (c.heap.contents v).isSome := by
  obtain ⟨path, hpath⟩ := Option.isSome_iff_exists.1 hv
  obtain ⟨e, he, -⟩ := Option.map_eq_some_iff.1 hpath
  have hkey := List.find?_some he
  rw [beq_iff_eq] at hkey
  exact hkey ▸ h e (List.mem_of_find?_eq_some he)

/-- Objects are in the heap up to their number. -/
theorem Heap.isSome_contents_object {h : Heap} {id : Nat} :
    (h.contents (.object id)).isSome ↔ id < h.objects.size := by
  simp [Heap.contents]

/-- Arrays are in the heap up to their number. -/
theorem Heap.isSome_contents_array {h : Heap} {id : Nat} :
    (h.contents (.array id)).isSome ↔ id < h.arrays.size := by
  simp [Heap.contents]

/-- Objects that are created later do not exist. -/
theorem Heap.contents_object_add (h : Heap) (k : Nat) :
    h.contents (.object (h.objects.size + k)) = none := by
  simp [contents]

/-- Arrays that are created later do not exist. -/
theorem Heap.contents_array_add (h : Heap) (k : Nat) :
    h.contents (.array (h.arrays.size + k)) = none := by
  simp [contents]

namespace Pairing

variable {c c' : Host.Conversion} {exact : Prop} (P : Pairing c c' exact)

/-- Values that are alike: paired containers, containers created afterwards, and values that are no
containers. -/
inductive Twin : Value → Value → Prop
  | same {v : Value} : v.isContainer = false → Twin v v
  | old {v v' : Value} : P.pairs v v' → Twin v v'
  | object (k : Nat) : Twin (.object (c.heap.objects.size + k)) (.object (c'.heap.objects.size + k))
  | array (k : Nat) : Twin (.array (c.heap.arrays.size + k)) (.array (c'.heap.arrays.size + k))

variable {P}

section
variable {v v' : Value}

/-- Paired containers exist in the first conversion. -/
theorem isSome_left (h : P.pairs v v') : (c.heap.contents v).isSome :=
  isSome_contents_of_find? P.recorded (P.left h)

/-- Paired containers exist in the second conversion. -/
theorem isSome_right (h : P.pairs v v') : (c'.heap.contents v').isSome :=
  isSome_contents_of_find? P.recorded' (P.right h)

/-- What is paired with something is a container. -/
theorem isContainer_left (h : P.pairs v v') : v.isContainer := by
  obtain ⟨k, hk⟩ := Option.isSome_iff_exists.1 (isSome_left h)
  exact Heap.isContainer_of_contents hk

/-- What something is paired with is a container. -/
theorem isContainer_right (h : P.pairs v v') : v'.isContainer := by
  obtain ⟨k, hk⟩ := Option.isSome_iff_exists.1 (isSome_right h)
  exact Heap.isContainer_of_contents hk

/-- Twins are of one kind. -/
theorem Twin.kind (h : P.Twin v v') : v'.kind = v.kind := by
  cases h with
  | same _ => rfl
  | old h => exact P.kind h
  | object k => rfl
  | array k => rfl

end

/-- The twin of an array is an array. -/
theorem Twin.exists_array {id : Nat} {v' : Value} (h : P.Twin (.array id) v') :
    ∃ id', v' = .array id' := by
  have hkind := h.kind
  cases v' <;> first | cases hkind; done | exact ⟨_, rfl⟩

/-- What exists is not what is created next, or later. -/
theorem ne_object {h : Heap} {v : Value} (hv : (h.contents v).isSome) (k : Nat) :
    v ≠ .object (h.objects.size + k) := by
  rintro rfl
  have := Heap.isSome_contents_object.1 hv
  omega

/-- What exists is not an array that is created next, or later. -/
theorem ne_array {h : Heap} {v : Value} (hv : (h.contents v).isSome) (k : Nat) :
    v ≠ .array (h.arrays.size + k) := by
  rintro rfl
  have := Heap.isSome_contents_array.1 hv
  omega

/-- A value has one twin, and is the twin of one value. -/
theorem Twin.unique {v v' u u' : Value} (h : P.Twin v v') (hu : P.Twin u u') :
    v' = u' ↔ v = u := by
  -- a container is none of the values that are no containers
  have hkind : ∀ {v w : Value}, v.isContainer = false → w.isContainer → v ≠ w := by
    rintro v _ hv hw rfl
    rw [hv] at hw
    cases hw
  -- a container of the globals is none of those created afterwards
  have hage : ∀ {v v' : Value} (k : Nat), P.pairs v v' →
      (v ≠ .object (c.heap.objects.size + k) ∧ v' ≠ .object (c'.heap.objects.size + k)) ∧
        v ≠ .array (c.heap.arrays.size + k) ∧ v' ≠ .array (c'.heap.arrays.size + k) :=
    fun k h => ⟨⟨ne_object (isSome_left h) k, ne_object (isSome_right h) k⟩,
      ne_array (isSome_left h) k, ne_array (isSome_right h) k⟩
  cases h with
  | same h =>
    cases hu with
    | same _ => exact Iff.rfl
    | old hu =>
      exact iff_of_false (hkind h (isContainer_right hu)) (hkind h (isContainer_left hu))
    | object _ | array _ => exact iff_of_false (hkind h rfl) (hkind h rfl)
  | old h =>
    cases hu with
    | same hu =>
      exact iff_of_false (hkind hu (isContainer_right h)).symm (hkind hu (isContainer_left h)).symm
    | old hu => exact P.unique h hu
    | object k => exact iff_of_false (hage k h).1.2 (hage k h).1.1
    | array k => exact iff_of_false (hage k h).2.2 (hage k h).2.1
  | object j =>
    cases hu with
    | same hu => exact iff_of_false (hkind hu rfl).symm (hkind hu rfl).symm
    | old hu => exact iff_of_false (hage j hu).1.2.symm (hage j hu).1.1.symm
    | object k => simp
    | array k => exact iff_of_false nofun nofun
  | array j =>
    cases hu with
    | same hu => exact iff_of_false (hkind hu rfl).symm (hkind hu rfl).symm
    | old hu => exact iff_of_false (hage j hu).2.2.symm (hage j hu).2.1.symm
    | object k => exact iff_of_false nofun nofun
    | array k => simp

variable (P) (setup : Setup) (hidden : String)

/-- What corresponds in two analyses of one setup, where the programs do not mention a name. -/
def naming : Naming where
  empties _ _ := false
  value := P.Twin
  exact := exact
  hides name := name = hidden
  clear u n := hidden ∉ n.identifiers ∧ ∀ p, setup.programs[u]? = some p →
    hidden ∉ (Node.program p.program.body).identifiers

/-- Contents of two states are alike: what was created afterwards was created at the same times,
alike values hold alike values, and names other than the hidden one are bound alike. -/
structure Alike (x x' : Content) : Prop where
  objects : ∃ k, x.heap.objects.size = c.heap.objects.size + k ∧
    x'.heap.objects.size = c'.heap.objects.size + k
  arrays : ∃ k, x.heap.arrays.size = c.heap.arrays.size + k ∧
    x'.heap.arrays.size = c'.heap.arrays.size + k
  functions : x'.heap.closures.size = x.heap.closures.size
  frames : x'.heap.frames.size = x.heap.frames.size
  held : ∀ {v v'}, P.Twin v v' → Option.Rel (P.naming setup hidden).Held (x.heap.contents v)
    (x'.heap.contents v')
  closures : ∀ id, Option.Rel (P.naming setup hidden).Closures (x.heap.closure? id)
    (x'.heap.closure? id)
  bindings : ∀ f name, name ≠ hidden →
    Option.Rel (P.naming setup hidden).Operands ((x.heap.frame f).find? name)
      ((x'.heap.frame f).find? name)
  thrown : (P.naming setup hidden).Refs x.thrown x'.thrown
  provenance : x.provenance = c.provenance ∧ x'.provenance = c'.provenance
  diagnostics : x'.diagnostics.map (·.span) = x.diagnostics.map (·.span) ∧
    (exact → x'.diagnostics = x.diagnostics)
  warnings : x'.warnings = x.warnings

variable {P setup hidden}

/-- Twins fulfil what a naming of values has to fulfil. -/
theorem lawful_naming : (P.naming setup hidden).Lawful where
  kind h := Twin.kind h
  native {v v'} h hv := by
    cases h with
    | same _ => rfl
    | old h =>
      have := isContainer_left h
      cases v <;> first | cases hv; done | cases this
    | object k => cases hv
    | array k => cases hv
  primitive _ := .same rfl
  intrinsic _ := .same rfl
  builtin _ := .same rfl
  unique h hu := Twin.unique h hu
  part h hc :=
    ⟨fun hmem => h.1 (Node.identifiers_subset (Node.mem_children_of_mem_parts hc) hmem), h.2⟩
  literal {u fn} h := by
    refine ⟨fun hmem => h.1 ?_, h.2⟩
    rw [Node.identifiers_eq, Node.children_expr_function]
    rw [Node.identifiers_eq] at hmem
    exact hmem
  params {u fn} h := by
    refine ⟨fun hmem => h.1 (Node.identifiers_subset ?_ hmem), h.2⟩
    rw [Node.children_function]
    exact List.mem_cons_self
  body {u fn} h := by
    refine ⟨fun hmem => h.1 (Node.identifiers_subset ?_ hmem), h.2⟩
    rw [Node.children_function]
    exact List.mem_cons_of_mem _ List.mem_cons_self
  identifier {u id} h heq := by
    refine h.1 ?_
    rw [Node.identifiers_eq]
    exact List.mem_append_left _ (Option.mem_toList.2 (congrArg some heq))

end Pairing

/-! ## Contents that stay alike -/

namespace Heap

/-- A write changes contents only. -/
theorem shape_setKeyOf (h : Heap) (k : Key) (r : Reference) (v : Value) :
    (h.setKeyOf k r v).objects.size = h.objects.size ∧
      (h.setKeyOf k r v).arrays.size = h.arrays.size ∧
      (h.setKeyOf k r v).closures = h.closures ∧ (h.setKeyOf k r v).frames = h.frames := by
  cases v <;> simp [setKeyOf]

end Heap

namespace Pairing

variable {c c' : Host.Conversion} {exact : Prop} {P : Pairing c c' exact} {setup : Setup}
  {hidden : String}

namespace Alike

variable {x x' : Content} (h : P.Alike setup hidden x x')
include h

/-- Of twins both exist or neither does. -/
theorem isSome_contents {v v' : Value} (hv : P.Twin v v') :
    (x'.heap.contents v').isSome ↔ (x.heap.contents v).isSome := by
  have hheld := h.held hv
  revert hheld
  cases x.heap.contents v <;> cases x'.heap.contents v' <;> intro hheld <;> cases hheld
  · exact Iff.rfl
  · exact Iff.rfl

/-- Twin arrays hold matching elements, under the same mark. -/
theorem refs_elements {id id' : Nat} (hv : P.Twin (.array id) (.array id')) :
    (P.naming setup hidden).Refs (x.heap.array id).elements (x'.heap.array id').elements ∧
      (x'.heap.array id').named = (x.heap.array id).named := by
  have hheld : Option.Rel (P.naming setup hidden).Held (x.heap.arrays[id]?.map .array)
    (x'.heap.arrays[id']?.map .array) := h.held hv
  unfold Heap.array
  revert hheld
  cases x.heap.arrays[id]? <;> cases x'.heap.arrays[id']? <;> intro hheld <;> cases hheld
  · exact ⟨.nil, rfl⟩
  · rename_i hheld
    cases hheld
    exact ⟨‹_›, rfl⟩

/-- Twin objects hold matching slots. -/
theorem cells {id id' : Nat} (hv : P.Twin (.object id) (.object id')) :
    (P.naming setup hidden).Cells (x.heap.object id) (x'.heap.object id') := by
  have hheld : Option.Rel (P.naming setup hidden).Held (x.heap.objects[id]?.map .object)
    (x'.heap.objects[id']?.map .object) := h.held hv
  unfold Heap.object
  revert hheld
  cases x.heap.objects[id]? <;> cases x'.heap.objects[id']? <;> intro hheld <;> cases hheld
  · exact Naming.Lawful.cells_empty
  · rename_i hheld
    cases hheld
    exact ‹_›

/-- The next objects are twins. -/
theorem twin_object : P.Twin (.object x.heap.objects.size) (.object x'.heap.objects.size) := by
  obtain ⟨k, hk, hk'⟩ := h.objects
  rw [hk, hk']
  exact .object k

/-- The next arrays are twins. -/
theorem twin_array : P.Twin (.array x.heap.arrays.size) (.array x'.heap.arrays.size) := by
  obtain ⟨k, hk, hk'⟩ := h.arrays
  rw [hk, hk']
  exact .array k

/-- Writes of alike values to twins keep contents alike. -/
theorem write {v v' : Value} {r r' : Reference} (k : Key) (hv : P.Twin v v')
    (hr : (P.naming setup hidden).Refs r r') :
    P.Alike setup hidden { x with heap := x.heap.setKeyOf k r v }
      { x' with heap := x'.heap.setKeyOf k r' v' } := by
  obtain ⟨hobjects, harrays, hclosures, hframes⟩ := Heap.shape_setKeyOf x.heap k r v
  obtain ⟨hobjects', harrays', hclosures', hframes'⟩ := Heap.shape_setKeyOf x'.heap k r' v'
  refine { h with
    objects := ?_, arrays := ?_, functions := ?_, frames := ?_,
    held := ?_, closures := ?_, bindings := ?_ }
  · dsimp only
    rw [hobjects, hobjects']
    exact h.objects
  · dsimp only
    rw [harrays, harrays']
    exact h.arrays
  · dsimp only
    rw [hclosures, hclosures']
    exact h.functions
  · dsimp only
    rw [hframes, hframes']
    exact h.frames
  · intro u u' hu
    dsimp only
    rw [Heap.contents_setKeyOf, Heap.contents_setKeyOf]
    have hiff := hu.unique hv
    have hheld := h.held hv
    by_cases heq : u = v
    · rw [if_pos heq, if_pos (hiff.2 heq)]
      revert hheld
      cases x.heap.contents v <;> cases x'.heap.contents v' <;> intro hheld <;> cases hheld
      · exact .none
      · exact .some (lawful_naming.held_set ‹_› k hr)
    · rw [if_neg heq, if_neg fun h => heq (hiff.1 h)]
      exact h.held hu
  · dsimp only [Heap.closure?]
    rw [hclosures, hclosures']
    exact h.closures
  · dsimp only [Heap.frame]
    rw [hframes, hframes']
    exact h.bindings

/-- New objects with alike slots keep contents alike. -/
theorem newObject {o o' : ObjectCell} (ho : (P.naming setup hidden).Cells o o') :
    P.Alike setup hidden { x with heap := (x.heap.addObject o).2 }
      { x' with heap := (x'.heap.addObject o').2 } := by
  refine { h with objects := ?_, held := ?_ }
  · obtain ⟨k, hk, hk'⟩ := h.objects
    exact ⟨k + 1, by simp [Heap.addObject, hk, Nat.add_assoc],
      by simp [Heap.addObject, hk', Nat.add_assoc]⟩
  · intro u u' hu
    dsimp only
    rw [Heap.contents_addObject, Heap.contents_addObject]
    have hiff : u' = .object x'.heap.objects.size ↔ u = .object x.heap.objects.size :=
      hu.unique h.twin_object
    by_cases heq : u = .object x.heap.objects.size
    · rw [if_pos (by exact heq), if_pos (by exact hiff.2 heq)]
      exact .some (.object ho)
    · rw [if_neg (by exact heq), if_neg (by exact fun h => heq (hiff.1 h))]
      exact h.held hu

/-- New arrays with alike elements keep contents alike. -/
theorem newArray {r r' : Reference} (hr : (P.naming setup hidden).Refs r r') :
    P.Alike setup hidden { x with heap := (x.heap.addArray r).2 }
      { x' with heap := (x'.heap.addArray r').2 } := by
  refine { h with arrays := ?_, held := ?_ }
  · obtain ⟨k, hk, hk'⟩ := h.arrays
    exact ⟨k + 1, by simp [Heap.addArray, hk, Nat.add_assoc],
      by simp [Heap.addArray, hk', Nat.add_assoc]⟩
  · intro u u' hu
    dsimp only
    rw [Heap.contents_addArray, Heap.contents_addArray]
    have hiff : u' = .array x'.heap.arrays.size ↔ u = .array x.heap.arrays.size :=
      hu.unique h.twin_array
    by_cases heq : u = .array x.heap.arrays.size
    · rw [if_pos (by exact heq), if_pos (by exact hiff.2 heq)]
      exact .some (.array _ hr)
    · rw [if_neg (by exact heq), if_neg (by exact fun h => heq (hiff.1 h))]
      exact h.held hu

/-- New frames that bind names to nothing keep contents alike. -/
theorem newFrame (f : Frame) (hf : ∀ b ∈ f.bindings, b.2 = .known .empty) :
    P.Alike setup hidden { x with heap := (x.heap.addFrame f).2 }
      { x' with heap := (x'.heap.addFrame f).2 } := by
  refine { h with frames := ?_, bindings := fun id name hname => ?_ }
  · simp [Heap.addFrame, h.frames]
  · dsimp only
    rw [Heap.frame_addFrame, Heap.frame_addFrame, h.frames]
    split
    · cases hfind : f.find? name with
      | none => exact .none
      | some o =>
        obtain rfl := hf _ (Frame.mem_bindings_of_find? hfind)
        exact .some (.known .nil)
    · exact h.bindings id name hname

/-- New functions with the same code keep contents alike. -/
theorem newClosure {fn fn' : Closure} (hfn : (P.naming setup hidden).Closures fn fn') :
    P.Alike setup hidden { x with heap := (x.heap.addClosure fn).2 }
      { x' with heap := (x'.heap.addClosure fn').2 } := by
  refine { h with functions := ?_, closures := fun id => ?_ }
  · simp [Heap.addClosure, h.functions]
  · dsimp only [Heap.closure?, Heap.addClosure]
    rw [Array.getElem?_push, Array.getElem?_push, h.functions]
    split
    · exact .some hfn
    · exact h.closures id

/-- Marking the same function as an accessor keeps contents alike. -/
theorem mark (id : Nat) (a : Accessor) :
    P.Alike setup hidden { x with heap := x.heap.markAccessor id a }
      { x' with heap := x'.heap.markAccessor id a } := by
  refine { h with functions := ?_, closures := fun other => ?_ }
  · simp [Heap.markAccessor, h.functions]
  · dsimp only [Heap.closure?, Heap.markAccessor]
    rw [Array.getElem?_modify, Array.getElem?_modify]
    have hother : Option.Rel (P.naming setup hidden).Closures x.heap.closures[other]?
      x'.heap.closures[other]? := h.closures other
    split
    · revert hother
      cases x.heap.closures[other]? <;> cases x'.heap.closures[other]? <;> intro hother <;>
        cases hother
      · exact .none
      · rename_i hfn
        exact .some ⟨hfn.name, hfn.scope, rfl, hfn.code⟩
    · exact hother

/-- Bindings of a name to alike operands keep contents alike. -/
theorem define (f : Nat) (name : String) {o o' : Operand}
    (ho : (P.naming setup hidden).Operands o o') :
    P.Alike setup hidden { x with heap := x.heap.define f name o }
      { x' with heap := x'.heap.define f name o' } := by
  refine { h with frames := ?_, bindings := fun id other hother => ?_ }
  · simp [Heap.define, h.frames]
  · dsimp only
    rw [Heap.frame_define, Heap.frame_define, h.frames]
    split
    · rw [Frame.find?_define, Frame.find?_define]
      split
      · exact .some ho
      · exact h.bindings f other hother
    · exact h.bindings id other hother

/-- Nested arrays are opened in the same order. -/
theorem flatten (unseen : List Nat) (queue : List Value) (out : Reference) :
    ∀ {unseen' queue' out'}, unseen.Nodup → unseen'.Nodup →
      (∀ id id', P.Twin (.array id) (.array id') → (id' ∈ unseen' ↔ id ∈ unseen)) →
      List.Forall₂ P.Twin queue queue' → (P.naming setup hidden).Refs out out' →
      (P.naming setup hidden).Refs (x.heap.flatten unseen queue out)
        (x'.heap.flatten unseen' queue' out') := by
  have hM : (P.naming setup hidden).Lawful := lawful_naming
  induction unseen, queue, out using Heap.flatten.induct x.heap with
  | case1 unseen out =>
    intro unseen' queue' out' _ _ _ hqueue hout
    cases hqueue
    simpa only [Heap.flatten] using hout
  | case2 unseen out id rest hmem elements =>
    rename_i ih
    intro unseen' queue' out' hn hn' hunseen hqueue hout
    obtain ⟨v', rest', hv, hrest, rfl⟩ := List.forall₂_cons_left_iff.1 hqueue
    obtain ⟨id', rfl⟩ := hv.exists_array
    obtain ⟨helements, -⟩ := h.refs_elements hv
    rw [Heap.flatten, Heap.flatten, dif_pos hmem, dif_pos ((hunseen _ _ hv).2 hmem)]
    refine ih (hn.erase _) (hn'.erase _) (fun j j' hj => ?_)
      (List.rel_append hrest (hM.refs_arrays helements)) (hM.refs_union hout helements)
    have hiff : j' = id' ↔ j = id := by simpa using hj.unique hv
    rw [hn.mem_erase_iff, hn'.mem_erase_iff, hunseen _ _ hj, ne_eq, hiff]
  | case3 unseen out id rest hmem ih =>
    intro unseen' queue' out' hn hn' hunseen hqueue hout
    obtain ⟨v', rest', hv, hrest, rfl⟩ := List.forall₂_cons_left_iff.1 hqueue
    obtain ⟨id', rfl⟩ := hv.exists_array
    rw [Heap.flatten, Heap.flatten, dif_neg hmem,
      dif_neg fun hmem' => hmem ((hunseen _ _ hv).1 hmem')]
    exact ih hn hn' hunseen hrest hout
  | case4 unseen out v rest hv ih =>
    intro unseen' queue' out' hn hn' hunseen hqueue hout
    obtain ⟨v', rest', htwin, hrest, rfl⟩ := List.forall₂_cons_left_iff.1 hqueue
    have hv' : ∀ id, v' = .array id → False := by
      rintro id rfl
      have hkind := htwin.kind
      cases v <;> first | cases hkind; done | exact hv _ rfl
    rw [Heap.flatten, Heap.flatten]
    · exact ih hn hn' hunseen hrest hout
    · exact hv'
    · exact hv

/-- Only containers that were there before have a path, the same one for twins that may be found
under the same paths. -/
theorem find?_eq {v v' : Value} (hv : P.Twin v v') :
    (x'.provenance.find? v').isSome = (x.provenance.find? v).isSome ∧
      (exact → x'.provenance.find? v' = x.provenance.find? v) := by
  obtain ⟨hp, hp'⟩ := h.provenance
  rw [hp, hp']
  have hnone : c.heap.contents v = none → c'.heap.contents v' = none →
      (c'.provenance.find? v').isSome = (c.provenance.find? v).isSome ∧
        (exact → c'.provenance.find? v' = c.provenance.find? v) := by
    intro hv hv'
    have hfind : c.provenance.find? v = none := by
      by_contra hne
      have := isSome_contents_of_find? P.recorded (Option.isSome_iff_ne_none.2 hne)
      rw [hv] at this
      cases this
    have hfind' : c'.provenance.find? v' = none := by
      by_contra hne
      have := isSome_contents_of_find? P.recorded' (Option.isSome_iff_ne_none.2 hne)
      rw [hv'] at this
      cases this
    rw [hfind, hfind']
    exact ⟨rfl, fun _ => rfl⟩
  cases hv with
  | same hv =>
    have hcontents : ∀ h : Heap, h.contents v = none := by
      intro h
      cases v <;> first | rfl | cases hv
    exact hnone (hcontents _) (hcontents _)
  | old hv => exact ⟨by rw [P.left hv, P.right hv], fun hexact => P.path hexact hv⟩
  | object k => exact hnone (c.heap.contents_object_add k) (c'.heap.contents_object_add k)
  | array k => exact hnone (c.heap.contents_array_add k) (c'.heap.contents_array_add k)

/-- Reports at the same range keep contents alike. -/
theorem report {d d' : Diagnostic} (hspan : d'.span = d.span) (hd : exact → d' = d) :
    P.Alike setup hidden { x with diagnostics := x.diagnostics.push d }
      { x' with diagnostics := x'.diagnostics.push d' } := by
  obtain ⟨hspans, hsame⟩ := h.diagnostics
  refine { h with diagnostics := ⟨?_, fun hexact => ?_⟩ }
  · rw [Array.map_push, Array.map_push, hspans, hspan]
  · rw [hd hexact, hsame hexact]

end Alike

variable (P setup hidden)

/-- Analyses of one setup with a hidden name, against two sets of globals. -/
def matching : Matching setup setup :=
  { P.naming setup hidden with content := P.Alike setup hidden }

variable {P setup hidden}

/-- What a node declares on entry has no other identifiers than its program. -/
theorem templates_self {u : Nat} {p : Prepared} (hp : setup.programs[u]? = some p) {n : Node}
    {start : Int} (hn : (P.naming setup hidden).clear u n) :
    Option.Rel ((P.naming setup hidden).Templates u) (p.hoisting.find? start)
      (p.hoisting.find? start) := by
  cases ht : p.hoisting.find? start with
  | none => exact .none
  | some t =>
    refine .some ⟨(t.pruned_full Script.Pruning.full_emptying).symm, fun fn hfn =>
      ⟨fun hmem => hn.2 p hp ?_, hn.2⟩⟩
    rw [p.hoisting_eq] at ht
    have hreaches := p.program.reaches_of_hoisted false t (List.mem_of_find?_eq_some ht) fn hfn
    exact hreaches.identifiers_subset hmem

/-- Twins make a lawful matching where no external code is followed. -/
theorem lawful (hresolver : setup.resolver = none) : (P.matching setup hidden).Lawful where
  toLawful := lawful_naming
  maxCallDepth := rfl
  strict := rfl
  canceled := rfl
  resolver := rfl
  external h := by
    rw [hresolver] at h
    cases h
  programs u := by
    cases hp : setup.programs[u]? with
    | none => exact .none
    | some p =>
      refine .some ⟨?_, fun n start hn _ => templates_self hp hn⟩
      exact (List.map_id'' (fun s => s.pruned_full Script.Pruning.full_emptying) _).symm
  thrown h := h.thrown
  object h hv := h.cells hv
  array h hv := h.refs_elements hv
  closure {x x' id id'} h hv := by
    cases hv with
    | same _ => exact h.closures id
    | old hv => cases isContainer_left hv
  binding {x x' f name} h hname := by
    have hbinding := h.bindings f name hname
    revert hbinding
    cases (x.heap.frame f).find? name <;> cases (x'.heap.frame f).find? name <;> intro hbinding <;>
      cases hbinding
    · exact .none
    · exact .some ((Matching.operands_iff _).2 ‹_›)
  path h hv := h.find?_eq hv
  flatten {x x' r r'} h hr := by
    refine h.flatten _ _ _ List.nodup_range List.nodup_range (fun id id' hv => ?_) hr .nil
    rw [List.mem_range, List.mem_range, ← Heap.isSome_contents_array, ← Heap.isSome_contents_array]
    exact h.isSome_contents hv
  throws h hr := { h with thrown := lawful_naming.refs_union h.thrown hr }
  report h hspan hd := h.report hspan hd
  warn message h := { h with warnings := by dsimp only; rw [h.warnings] }
  write k h hv hr := h.write k hv hr
  newObject h ho := ⟨h.twin_object, h.newObject ho⟩
  newArray h hr := ⟨h.twin_array, h.newArray hr⟩
  newFrame f h hf := ⟨h.frames, h.newFrame f hf⟩
  newClosure {x x' fn fn'} h hfn := by
    refine ⟨?_, h.newClosure hfn⟩
    show P.Twin (.function x.heap.closures.size) (.function x'.heap.closures.size)
    rw [h.functions]
    exact .same rfl
  mark {x x' id id'} a h hv := by
    cases hv with
    | same _ => exact h.mark id a
    | old hv => cases isContainer_left hv
  define f name h ho := h.define f name ((Matching.operands_iff _).1 ho)

end Pairing

end FrozenGlobals
