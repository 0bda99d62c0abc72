import FrozenGlobals.Canonical
import Mathlib.Data.List.Perm.Basic
import Mathlib.Data.String.Basic

/-!
# The parts of canonical text

A container is written as its parts one after another between brackets: `Heap.parts` are the
references it holds with the text in front of each, and `Heap.wrap` puts what they are written as
together. Everything else is a leaf and written as `Heap.leafText`. Of what is proved about writing,
most goes by the three equations `Heap.writeValue_leaf`, `Heap.writeValue_opened` and
`Heap.writeValue_container`.

Possibilities are sorted and written once, so a reference is written as the set of its texts
(`sortedOnce_eq_iff`).
-/

namespace FrozenGlobals

/-! ## Sorted texts -/

/-- Sorted texts are in ascending order. -/
theorem sortTexts_pairwise (l : List String) :
    (l.mergeSort fun a b => a ≤ b).Pairwise (· ≤ ·) := by
  have h : (l.mergeSort fun a b => a ≤ b).Pairwise fun a b => decide (a ≤ b) = true :=
    List.pairwise_mergeSort
    (fun a b c hab hbc => by simpa using le_trans (by simpa using hab) (by simpa using hbc))
    (fun a b => by simpa using le_total a b) l
  simpa using h

/-- Sorting forgets the order and nothing else. -/
theorem sortTexts_eq_iff {l m : List String} :
    (l.mergeSort fun a b => a ≤ b) = (m.mergeSort fun a b => a ≤ b) ↔ l.Perm m := by
  constructor
  · intro h
    exact ((List.mergeSort_perm l _).symm.trans (.of_eq h)).trans (List.mergeSort_perm m _)
  · intro h
    refine List.Perm.eq_of_pairwise (fun a b _ _ => le_antisymm) (sortTexts_pairwise l)
      (sortTexts_pairwise m) ?_
    exact ((List.mergeSort_perm l _).trans h).trans (List.mergeSort_perm m _).symm

/-- What the texts seen so far collect: each text once. -/
theorem foldl_distinct (texts done : List String) (hdone : done.Nodup) :
    let all := texts.foldl (fun done t => if done.contains t then done else t :: done) done
    all.Nodup ∧ ∀ t, t ∈ all ↔ t ∈ done ∨ t ∈ texts := by
  induction texts generalizing done with
  | nil => exact ⟨hdone, by simp⟩
  | cons u texts ih =>
    rw [List.foldl_cons]
    by_cases hu : u ∈ done
    · rw [if_pos (by simpa using hu)]
      refine ⟨(ih done hdone).1, fun t => ?_⟩
      rw [(ih done hdone).2]
      aesop
    · rw [if_neg (by simpa using hu)]
      have hcons : (u :: done).Nodup := List.nodup_cons.2 ⟨hu, hdone⟩
      refine ⟨(ih _ hcons).1, fun t => ?_⟩
      rw [(ih _ hcons).2]
      simp only [List.mem_cons]
      tauto

/-- Sorting texts and dropping duplicates keeps all texts. -/
@[simp] theorem mem_sortedOnce {texts : List String} {t : String} :
    t ∈ sortedOnce texts ↔ t ∈ texts := by
  rw [sortedOnce, List.mem_mergeSort, (foldl_distinct texts [] .nil).2]
  simp

/-- Texts that are sorted and written once tell which texts there are and nothing else. -/
theorem sortedOnce_eq_iff {l m : List String} :
    sortedOnce l = sortedOnce m ↔ ∀ t, t ∈ l ↔ t ∈ m := by
  constructor
  · intro h t
    rw [← mem_sortedOnce, h, mem_sortedOnce]
  · intro h
    refine sortTexts_eq_iff.2 ((List.perm_ext_iff_of_nodup (foldl_distinct l [] .nil).1
      (foldl_distinct m [] .nil).1).2 fun t => ?_)
    rw [(foldl_distinct l [] .nil).2, (foldl_distinct m [] .nil).2]
    simp [h t]

/-- Different texts in ascending order stay as they are. -/
theorem sortedOnce_of_pairwise {l : List String} (hl : l.Pairwise (· < ·)) : sortedOnce l = l := by
  have hdistinct := foldl_distinct l [] .nil
  refine List.Perm.eq_of_pairwise (fun a b _ _ => le_antisymm) (sortTexts_pairwise _)
    (hl.imp le_of_lt) ((List.mergeSort_perm _ _).trans ?_)
  exact (List.perm_ext_iff_of_nodup hdistinct.1 (hl.imp ne_of_lt)).2 fun t => by
    rw [hdistinct.2]
    simp

namespace Heap

/-! ## Writing one after another -/

section WriteParts

variable {α β : Type} {f g : Nat → α → String × Nat}

/-- The first part takes its numbers before the others. -/
theorem writeParts_cons (n : Nat) (a : α) (l : List α) :
    writeParts f n (a :: l) =
      ((f n a).1 :: (writeParts f (f n a).2 l).1, (writeParts f (f n a).2 l).2) := rfl

/-- Parts in front take their numbers before those behind. -/
theorem writeParts_append (n : Nat) (l m : List α) :
    writeParts f n (l ++ m) =
      ((writeParts f n l).1 ++ (writeParts f (writeParts f n l).2 m).1,
        (writeParts f (writeParts f n l).2 m).2) := by
  induction l generalizing n with
  | nil => rfl
  | cons a l ih => simp [writeParts_cons, ih]

/-- Parts may be looked up while they are written. -/
theorem writeParts_map (k : β → α) (n : Nat) (l : List β) :
    writeParts f n (l.map k) = writeParts (fun n b => f n (k b)) n l := by
  induction l generalizing n with
  | nil => rfl
  | cons b l ih => simp [writeParts_cons, ih]

/-- Related parts that are written alike. -/
theorem writeParts_congr {g : Nat → β → String × Nat} {l : List α} {m : List β}
    (h : List.Forall₂ (fun a b => ∀ n, f n a = g n b) l m) (n : Nat) :
    writeParts f n l = writeParts g n m := by
  induction h generalizing n with
  | nil => rfl
  | cons hab _ ih => rw [writeParts_cons, writeParts_cons, hab n, ih]

/-- Parts whose texts do not depend on the next number. -/
theorem writeParts_fst_eq {l : List α} (h : ∀ a ∈ l, ∀ n m, (f n a).1 = (g m a).1) (n m : Nat) :
    (writeParts f n l).1 = (writeParts g m l).1 := by
  induction l generalizing n m with
  | nil => rfl
  | cons a l ih =>
    rw [writeParts_cons, writeParts_cons, h a List.mem_cons_self n m,
      ih fun b hb => h b (List.mem_cons_of_mem a hb)]

/-- Parts that have texts of their own. -/
theorem writeParts_fst {g : α → String} {l : List α} (h : ∀ a ∈ l, ∀ n, (f n a).1 = g a) (n : Nat) :
    (writeParts f n l).1 = l.map g := by
  induction l generalizing n with
  | nil => rfl
  | cons a l ih =>
    rw [writeParts_cons, h a List.mem_cons_self n, ih fun b hb => h b (List.mem_cons_of_mem a hb),
      List.map_cons]

/-- Parts that take the same count of numbers whatever the next one is. -/
theorem writeParts_shift {l : List α} (h : ∀ a ∈ l, ∀ n m, (f n a).2 + m = (g m a).2 + n)
    (n m : Nat) : (writeParts f n l).2 + m = (writeParts g m l).2 + n := by
  induction l generalizing n m with
  | nil => exact Nat.add_comm n m
  | cons a l ih =>
    have ha := h a List.mem_cons_self n m
    have hl := ih (fun b hb => h b (List.mem_cons_of_mem a hb)) (f n a).2 (g m a).2
    simp only [writeParts_cons]
    omega

end WriteParts

/-! ## Leaves and containers -/

variable (h : Heap)

/-- What a value that is no container is written as. -/
def leafText : Value → String
  | .primitive p => p.render
  | .intrinsic i => "%" ++ i.render
  | .builtin b => "&" ++ b.render
  | .function id => h.functionText id
  | .object _ | .array _ => ""

/-- The references a container holds as they are written, each behind the text in front of it. -/
def parts : Value → List (String × Reference)
  | .object id =>
      ((h.object id).keys.mergeSort fun a b => a ≤ b).map (fun key =>
        (Text.quote key ++ ":", ((h.object id).slot? key).getD .empty)) ++
        ((h.object id).wildcard.map fun r => ("*:", r)).toList
  | .array id => [("", (h.array id).elements)]
  | _ => []

/-- The text of a container with given texts of its parts. -/
def wrap (v : Value) (texts : List String) : String :=
  match v with
  | .object _ => "\x7b" ++ ",".intercalate texts ++ "\x7d"
  | .array id => "[" ++ ",".intercalate texts ++ "]" ++ (if (h.array id).named then "+" else "")
  | _ => ""

/-- What a container may hold somewhere. -/
def Holds (v w : Value) : Prop := ∃ part ∈ h.parts v, w ∈ part.2

/-- Writes a part behind the text in front of it. -/
def writePart (write : Nat → Value → String × Nat) (next : Nat) (part : String × Reference) :
    String × Nat :=
  (part.1 ++ (writeReference write next part.2).1, (writeReference write next part.2).2)

/-- Only containers hold something. -/
theorem isContainer_of_holds {v w : Value} (hvw : h.Holds v w) : v.isContainer = true := by
  obtain ⟨part, hpart, -⟩ := hvw
  cases v <;> first | rfl | cases hpart

variable {h}

/-- Without levels a mark is written. -/
theorem writeValue_zero (opened : Open) (n : Nat) (v : Value) :
    h.writeValue 0 opened n v = (truncationMark, n) := rfl

/-- A value that is no container is written as its own text, and takes no number. -/
theorem writeValue_leaf {v : Value} (hv : ¬ v.isContainer = true) (limit : Nat) (opened : Open)
    (n : Nat) : h.writeValue (limit + 1) opened n v = (h.leafText v, n) := by
  cases v <;> first | rfl | exact absurd rfl hv

/-- A container that is open is written as its number. -/
theorem writeValue_opened {v : Value} (hv : v.isContainer = true) {opened : Open} {number : Nat}
    (hopen : opened.lookup v = some number) (limit n : Nat) :
    h.writeValue (limit + 1) opened n v = ("#" ++ toString number, n) := by
  cases v with
  | object id => simp only [writeValue, hopen]
  | array id => simp only [writeValue, hopen]
  | primitive p => cases hv
  | function id => cases hv
  | intrinsic i => cases hv
  | builtin b => cases hv

/-- A container that is not open is written as its parts, in brackets, under the next number. -/
theorem writeValue_container {v : Value} (hv : v.isContainer = true) {opened : Open}
    (hopen : opened.lookup v = none) (limit n : Nat) :
    h.writeValue (limit + 1) opened n v =
      (h.wrap v (writeParts (writePart (h.writeValue limit ((v, n) :: opened))) (n + 1)
        (h.parts v)).1,
      (writeParts (writePart (h.writeValue limit ((v, n) :: opened))) (n + 1) (h.parts v)).2) := by
  cases v with
  | object id =>
    simp only [writeValue, hopen, parts, writeParts_append, writeParts_map, wrap]
    cases (h.object id).wildcard <;> simp [writePart, writeParts]
  | array id => simp [writeValue, hopen, parts, writeParts, writePart, wrap]
  | primitive p => cases hv
  | function id => cases hv
  | intrinsic i => cases hv
  | builtin b => cases hv

end Heap

end FrozenGlobals
