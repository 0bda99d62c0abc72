import FrozenGlobals.Proofs.Contents
import FrozenGlobals.Host.Conversion
import Mathlib.Data.List.Perm.Subperm
import Mathlib.Logic.Relation
import Mathlib.Tactic.ByContra

/-!
# Traversals of host data

Host data is a graph, so a traversal of it needs more than the shape of the data to end: a shared
container is entered once, and a copied one at each of its occurrences. `Graph.Grounded` asks that
copied containers never lie within themselves, which is what leaves a traversal finitely many ways
to go on.

`Traversal` is the depth-first traversal that the paths of the globals refer to: by ascending name,
entering shared containers only the first time. `Converts` is the conversion without its bound on
levels, as a relation between what has been made before and after; `convert_converts` says that the
bound is never what ends a conversion of grounded data.
-/

namespace FrozenGlobals

/-- The key a segment of a path reads. -/
def Segment.toKey : Segment → Key
  | .key name => .name name
  | .any => .any

/-- The segment of a key reads that key. -/
@[simp] theorem Segment.toKey_ofKey (k : Key) : (Segment.ofKey k).toKey = k := by
  cases k <;> rfl

namespace Host

/-! ## Parts of containers -/

namespace Container

/-- The data directly inside a container with the step that leads to it, in the order in which it is
visited. -/
def parts : Container → List (Segment × Datum)
  | .object entries _ => (Graph.sortedEntries entries).map fun e => (.key e.1, e.2)
  | .array items _ => items.map fun d => (.any, d)
  | .keyedBy _ => []

/-- The container is one and the same wherever it occurs. -/
def isShared : Container → Bool
  | .object _ absent => !absent
  | .array _ shared => shared
  | .keyedBy _ => false

/-- Scripts see the container as an object or an array. -/
def isVisible : Container → Bool
  | .keyedBy _ => false
  | _ => true

end Container

namespace Graph

/-- A container of the graph is shared between its occurrences. -/
def Shares (g : Graph) (id : Nat) : Bool := (g.find? id).any Container.isShared

/-- A copied container stands directly inside a copied container. -/
def CopiedIn (g : Graph) (inner outer : Nat) : Prop :=
  g.Shares inner = false ∧ g.Shares outer = false ∧
    ∃ k, g.find? outer = some k ∧ ∃ s, (s, Datum.container inner) ∈ k.parts

/-- Every cycle of the data leads through a shared container: no copied container lies within
itself. -/
def Grounded (g : Graph) : Prop := ∀ id, ¬ Relation.TransGen g.CopiedIn id id

/-- Containers have numbers below the size of their graph. -/
theorem lt_of_find? {g : Graph} {id : Nat} {k : Container} (h : g.find? id = some k) :
    id < g.containers.size := by
  obtain ⟨hlt, _⟩ := Array.getElem?_eq_some_iff.1 h
  exact hlt

/-- Data is grounded if containers that are copied are empty. -/
theorem grounded_of_shared {g : Graph} (h : ∀ k ∈ g.containers, k.isShared ∨ k.parts = []) :
    g.Grounded := by
  have hnone : ∀ inner outer, ¬ g.CopiedIn inner outer := by
    rintro inner outer ⟨_, hs, k, hk, s, hmem⟩
    rcases h k (Array.mem_of_getElem? hk) with hshared | hempty
    · rw [Shares, hk] at hs
      exact absurd hshared (by simpa using hs)
    · rw [hempty] at hmem
      cases hmem
  intro id hloop
  obtain ⟨_, hfirst, _⟩ := Relation.TransGen.head'_iff.1 hloop
  exact hnone _ _ hfirst

end Graph

/-- The containers met by a depth-first traversal with the paths under which they are met. `seen`
are the shared containers entered before, and `pending` is what is left to visit. -/
inductive Traversal (g : Graph) : List Nat → List (Path × Datum) → List (Nat × Path) → Prop
  | done {seen} : Traversal g seen [] []
  | scalar {seen p d rest out} : (∀ id, d ≠ .container id) → Traversal g seen rest out →
      Traversal g seen ((p, d) :: rest) out
  | hidden {seen p id rest out} : (∀ k, g.find? id = some k → k.isVisible = false) →
      Traversal g seen rest out → Traversal g seen ((p, .container id) :: rest) out
  | again {seen p id rest out} : id ∈ seen → Traversal g seen rest out →
      Traversal g seen ((p, .container id) :: rest) out
  | enter {seen p id k rest out} : g.find? id = some k → k.isVisible → id ∉ seen →
      Traversal g (if k.isShared then id :: seen else seen)
        (k.parts.map (fun e => (p.child e.1, e.2)) ++ rest) out →
      Traversal g seen ((p, .container id) :: rest) ((id, p) :: out)

namespace Conversion

/-! ## The conversion as a relation -/

/-- Adds an empty cell for a visible container. -/
def enter (c : Conversion) (k : Container) (id : Nat) (path : Path) : Value × Conversion :=
  match k with
  | .object _ absent => c.openObject (!absent) id path
  | .array _ shared => c.openArray shared id path
  | .keyedBy _ => (.primitive .any, c)

/-- Entering a shared container records its cell, and entering a copied one does not. -/
theorem enter_known {k : Container} (hv : k.isVisible) (c : Conversion) (id : Nat) (path : Path) :
    (c.enter k id path).2.known =
      if k.isShared then (id, (c.enter k id path).1) :: c.known else c.known := by
  cases k with
  | object _ _ | array _ _ => rfl
  | keyedBy _ => cases hv

/-- Cells that are recorded stay recorded when a container is entered. -/
theorem lookup_isSome_enter {k : Container} (hv : k.isVisible) (c : Conversion) (id : Nat)
    (path : Path) {other : Nat} (h : (c.known.lookup other).isSome) :
    ((c.enter k id path).2.known.lookup other).isSome := by
  rw [enter_known hv]
  split
  · rw [List.lookup_cons]
    split
    · rfl
    · exact h
  · exact h

/-- What is to be converted: data found at a path, or the parts of a container that has a cell. -/
inductive Task where
  | datum (path : Path) (d : Datum)
  | parts (v : Value) (path : Path) (todo : List (Segment × Datum))

/-- A task yields a value and leads from what was made before to what is made afterwards. -/
inductive Converts (g : Graph) : Conversion → Task → Value → Conversion → Prop
  | scalar {c p d} : (∀ id, d ≠ .container id) →
      Converts g c (.datum p d) (.primitive (scalar d)) c
  | known {c p id v} : c.known.lookup id = some v → Converts g c (.datum p (.container id)) v c
  | hidden {c p id} : c.known.lookup id = none →
      (∀ k, g.find? id = some k → k.isVisible = false) →
      Converts g c (.datum p (.container id)) (.primitive .any) c
  | container {c p id k c'} : c.known.lookup id = none → g.find? id = some k → k.isVisible →
      Converts g (c.enter k id p).2 (.parts (c.enter k id p).1 p k.parts) (c.enter k id p).1 c' →
      Converts g c (.datum p (.container id)) (c.enter k id p).1 c'
  | nil {c v p} : Converts g c (.parts v p []) v c
  | cons {c v p s d rest w c₁ c₂} : Converts g c (.datum (p.child s) d) w c₁ →
      Converts g (c₁.write v s.toKey w) (.parts v p rest) v c₂ →
      Converts g c (.parts v p ((s, d) :: rest)) v c₂

/-- One round of the loop over the parts of a container. -/
def convertPart (g : Graph) (levels : Nat) (v : Value) (path : Path) (c : Conversion)
    (part : Segment × Datum) : Conversion :=
  let r := convert g levels c (path.child part.1) part.2
  r.2.write v part.1.toKey r.1

/-- Objects and arrays are converted alike: a cell, then the parts one after another. -/
theorem convert_container {g : Graph} {levels : Nat} {c : Conversion} {path : Path} {id : Nat}
    {k : Container} (hn : c.known.lookup id = none) (hk : g.find? id = some k)
    (hv : k.isVisible) :
    convert g (levels + 1) c path (.container id) =
      ((c.enter k id path).1,
        k.parts.foldl (convertPart g levels (c.enter k id path).1 path) (c.enter k id path).2) := by
  rw [convert]
  simp only [hn, hk]
  cases k with
  | object entries absent =>
      simp only [enter, Container.parts, List.foldl_map]
      rfl
  | array items shared =>
      simp only [enter, Container.parts, List.foldl_map]
      rfl
  | keyedBy kind => cases hv

/-- A container that shows nothing becomes some primitive. -/
theorem convert_hidden {g : Graph} {levels : Nat} {c : Conversion} {path : Path} {id : Nat}
    (hn : c.known.lookup id = none) (hk : ∀ k, g.find? id = some k → k.isVisible = false) :
    convert g (levels + 1) c path (.container id) = (.primitive .any, c) := by
  rw [convert]
  simp only [hn]
  split
  · next h => cases hk _ h
  · next h => cases hk _ h
  · rfl
  · rfl

/-! ## The bound on levels -/

/-- Every shared container has its cell once it was met. -/
theorem Converts.lookup_isSome {g : Graph} {c c' : Conversion} {t : Task} {v : Value}
    (h : Converts g c t v c') {id : Nat} (hid : (c.known.lookup id).isSome) :
    (c'.known.lookup id).isSome := by
  induction h with
  | scalar | known | hidden | nil => exact hid
  | container _ _ hv _ ih => exact ih (lookup_isSome_enter hv _ _ _ hid)
  | cons _ _ ih₁ ih₂ => exact ih₂ (ih₁ hid)

/-- The shared containers of a graph that have no cell yet. -/
def unmet (g : Graph) (c : Conversion) : List Nat :=
  (List.range g.containers.size).filter fun id => g.Shares id && (c.known.lookup id).isNone

/-- The shared containers without a cell, spelled out. -/
theorem mem_unmet {g : Graph} {c : Conversion} {id : Nat} :
    id ∈ unmet g c ↔
      id < g.containers.size ∧ g.Shares id = true ∧ c.known.lookup id = none := by
  simp [unmet]

/-- What is recorded later is no longer to be met. -/
theorem unmet_sublist {g : Graph} {c c' : Conversion}
    (h : ∀ id, (c.known.lookup id).isSome → (c'.known.lookup id).isSome) :
    (unmet g c').Sublist (unmet g c) := by
  apply List.monotone_filter_right
  intro id hid
  simp only [Bool.and_eq_true, Option.isNone_iff_eq_none] at hid ⊢
  refine ⟨hid.1, ?_⟩
  by_contra hne
  have := h id (Option.isSome_iff_ne_none.2 hne)
  rw [hid.2] at this
  cases this

/-- Entering a shared container leaves one fewer to be met. -/
theorem length_unmet_enter_lt {g : Graph} {c : Conversion} {k : Container} {id : Nat}
    (path : Path) (hn : c.known.lookup id = none) (hk : g.find? id = some k) (hv : k.isVisible)
    (hs : k.isShared) : (unmet g (c.enter k id path).2).length < (unmet g c).length := by
  have hmem : id ∈ unmet g c :=
    mem_unmet.2 ⟨Graph.lt_of_find? hk, by simp [Graph.Shares, hk, hs], hn⟩
  have hnot : id ∉ unmet g (c.enter k id path).2 := by
    intro h
    have := (mem_unmet.1 h).2.2
    rw [enter_known hv, if_pos hs, List.lookup_cons] at this
    simp at this
  have hsub : (unmet g (c.enter k id path).2).Sublist (unmet g c) :=
    unmet_sublist fun other h => lookup_isSome_enter hv c id path h
  refine Nat.lt_of_le_of_ne hsub.length_le fun heq => ?_
  rw [hsub.eq_of_length heq] at hnot
  exact hnot hmem

/-- The copied containers around data at some moment of a conversion, innermost first. -/
structure Nested (g : Graph) (around : List Nat) (d : Datum) : Prop where
  nodup : around.Nodup
  lt : ∀ id ∈ around, id < g.containers.size
  within : ∀ id, d = .container id → g.Shares id = false →
    ∀ outer ∈ around, Relation.TransGen g.CopiedIn id outer

/-- No more copied containers stand around data than the graph has. -/
theorem Nested.length_le {g : Graph} {around : List Nat} {d : Datum} (h : Nested g around d) :
    around.length ≤ g.containers.size := by
  have hsub : around ⊆ List.range g.containers.size :=
    fun id hid => List.mem_range.2 (h.lt id hid)
  simpa using (List.subperm_of_subset h.nodup hsub).length_le

/-- A copied container of grounded data is not among those around it. -/
theorem Nested.cons {g : Graph} (hg : g.Grounded) {around : List Nat} {id : Nat} {k : Container}
    (h : Nested g around (.container id)) (hk : g.find? id = some k) (hs : k.isShared = false)
    {s : Segment} {d : Datum} (hd : (s, d) ∈ k.parts) : Nested g (id :: around) d := by
  have hsh : g.Shares id = false := by simp [Graph.Shares, hk, hs]
  refine ⟨List.nodup_cons.2 ⟨fun hmem => hg id (h.within id rfl hsh id hmem), h.nodup⟩, ?_, ?_⟩
  · rintro outer (_ | ⟨_, hmem⟩)
    · exact Graph.lt_of_find? hk
    · exact h.lt outer hmem
  · rintro inner rfl hinner outer hmem
    have hin : g.CopiedIn inner id := ⟨hinner, hsh, k, hk, s, hd⟩
    rcases List.mem_cons.1 hmem with rfl | hmem
    · exact .single hin
    · exact .head hin (h.within id rfl hsh outer hmem)

/-- Levels enough for data inside some copied containers: as many as there are containers for every
shared container still to be met, and one for each copied container that may yet follow. -/
def Fits (g : Graph) (levels : Nat) (c : Conversion) (around : List Nat) : Prop :=
  (unmet g c).length * (g.containers.size + 1) + (g.containers.size + 1 - around.length) ≤ levels

/-- The parts of a container are converted one after another if each of them can be. -/
theorem converts_parts {g : Graph} {levels : Nat} {v : Value} {path : Path}
    {todo : List (Segment × Datum)} {around : List Nat} {c : Conversion}
    (hfit : Fits g levels c around)
    (h : ∀ e ∈ todo, ∀ c, Fits g levels c around →
      Converts g c (.datum (path.child e.1) e.2) (convert g levels c (path.child e.1) e.2).1
        (convert g levels c (path.child e.1) e.2).2) :
    Converts g c (.parts v path todo) v (todo.foldl (convertPart g levels v path) c) := by
  induction todo generalizing c with
  | nil => exact .nil
  | cons e todo ih =>
      have he := h e (by simp) c hfit
      refine .cons he (ih (c := convertPart g levels v path c e) ?_ fun e' he' =>
        h e' (List.mem_cons_of_mem _ he'))
      have hle : (unmet g (convertPart g levels v path c e)).length ≤ (unmet g c).length :=
        (unmet_sublist fun id hid => he.lookup_isSome hid).length_le
      unfold Fits at hfit ⊢
      have := Nat.mul_le_mul_right (g.containers.size + 1) hle
      omega

/-- With levels enough a conversion of grounded data ends by itself. -/
theorem convert_converts_of_fits {g : Graph} (hg : g.Grounded) {levels : Nat} :
    ∀ {c : Conversion} {path : Path} {d : Datum} {around : List Nat}, Nested g around d →
      Fits g levels c around →
      Converts g c (.datum path d) (convert g levels c path d).1 (convert g levels c path d).2 := by
  induction levels with
  | zero =>
      intro c path d around hnest hfit
      have := hnest.length_le
      unfold Fits at hfit
      omega
  | succ levels ih =>
      intro c path d around hnest hfit
      by_cases hd : ∃ id, d = .container id
      · obtain ⟨id, rfl⟩ := hd
        cases hl : c.known.lookup id with
        | some v =>
            have : convert g (levels + 1) c path (.container id) = (v, c) := by
              rw [convert]
              simp only [hl]
            rw [this]
            exact .known hl
        | none =>
            by_cases hk : ∃ k, g.find? id = some k ∧ k.isVisible
            · obtain ⟨k, hk, hv⟩ := hk
              rw [convert_container hl hk hv]
              refine .container hl hk hv ?_
              have hlen := hnest.length_le
              unfold Fits at hfit
              cases hs : k.isShared with
              | true =>
                  -- a shared container starts afresh: nothing copied lies around its parts
                  have hlt := length_unmet_enter_lt path hl hk hv hs
                  have hmul := Nat.mul_le_mul_right (g.containers.size + 1) hlt
                  have hfit' : Fits g levels (c.enter k id path).2 [] := by
                    unfold Fits
                    simp only [List.length_nil]
                    rw [Nat.succ_mul] at hmul
                    omega
                  exact converts_parts hfit' fun e _ c hc =>
                    ih ⟨.nil, by simp, fun _ _ _ outer h => by cases h⟩ hc
              | false =>
                  have hknown : (c.enter k id path).2.known = c.known := by
                    rw [enter_known hv, hs]
                    rfl
                  have hunmet : unmet g (c.enter k id path).2 = unmet g c := by
                    simp only [unmet, hknown]
                  have hfit' : Fits g levels (c.enter k id path).2 (id :: around) := by
                    unfold Fits
                    rw [hunmet, List.length_cons]
                    omega
                  exact converts_parts hfit' fun e he c hc =>
                    ih (hnest.cons hg hk hs (s := e.1) he) hc
            · have hhid : ∀ k, g.find? id = some k → k.isVisible = false := by
                intro k hk'
                by_contra hne
                exact hk ⟨k, hk', by simpa using hne⟩
              rw [convert_hidden hl hhid]
              exact .hidden hl hhid
      · have hsc : ∀ id, d ≠ .container id := fun id h => hd ⟨id, h⟩
        have : convert g (levels + 1) c path d = (.primitive (Conversion.scalar d), c) := by
          cases d with
          | container id => exact absurd rfl (hsc id)
          | _ => rfl
        rw [this]
        exact .scalar hsc

/-- The levels a conversion is given are never what ends it. -/
theorem convert_converts {g : Graph} (hg : g.Grounded) (c : Conversion) (path : Path)
    (d : Datum) :
    Converts g c (.datum path d) (convert g (depth g) c path d).1
      (convert g (depth g) c path d).2 := by
  have hnest : Nested g [] d := ⟨.nil, by simp, fun _ _ _ o h => by cases h⟩
  refine convert_converts_of_fits hg hnest ?_
  have hlen : (unmet g c).length ≤ g.containers.size := by
    calc (unmet g c).length ≤ (List.range g.containers.size).length := List.length_filter_le _ _
      _ = g.containers.size := List.length_range
  have := Nat.mul_le_mul_right (g.containers.size + 1) hlen
  simp only [Fits, depth, List.length_nil, Nat.succ_mul]
  omega

end Conversion

end Host

end FrozenGlobals
