import FrozenGlobals.Proofs.Canonical.Leaves
import FrozenGlobals.Proofs.Canonical.Shape
import FrozenGlobals.Proofs.Contents
import Mathlib.Logic.Relation

/-!
# Canonical text is faithful

On graphs without cycles no container is open when it is met, so what is written is a tree that does
not depend on numbers: `Heap.treeText` (`Heap.writeValue_fst`). Trees of the same shape have the
same text, because possibilities are written as the set of their texts (`Heap.treeText_eq`). In the
other direction the text can be read back: brackets and separators belong to the container they were
written for, since every part is level text, and quoted keys end where their quotes do
(`Heap.alike_of_treeText_eq`).

Together: as long as containers are nested less deep than the limit and no functions are among them,
two references have the same text exactly if they have the same shape (`Heap.text_eq_iff`).
-/

namespace FrozenGlobals.Heap

open Relation Text

variable {h h' : Heap}

/-! ## Trees -/

/-- The text of a reference whose possibilities have texts of their own. -/
def referenceText (text : Value → String) (r : Reference) : String :=
  "(" ++ "|".intercalate (sortedOnce (r.values.map text)) ++ ")"

/-- The text of a part behind what is written in front of it. -/
def partText (text : Value → String) (part : String × Reference) : String :=
  part.1 ++ referenceText text part.2

/-- The text of a value that is a tree at most `limit` deep. -/
def treeText (h : Heap) : (limit : Nat) → Value → String
  | 0, _ => truncationMark
  | limit + 1, v =>
      if v.isContainer then h.wrap v ((h.parts v).map (partText (h.treeText limit)))
      else h.leafText v

/-- A part without a name is written as its reference. -/
@[simp] theorem partText_empty (text : Value → String) (r : Reference) :
    partText text ("", r) = referenceText text r := by simp [partText]

/-- Trees of containers around plain leaves, with at most a number of containers around each other.
-/
inductive Nested (h : Heap) : Nat → Value → Prop where
  | leaf {n : Nat} {v : Value} (plain : v.IsPlain) : Nested h n v
  | container {n : Nat} {v : Value} (isContainer : v.isContainer = true)
      (inside : ∀ w, h.Holds v w → Nested h n w) : Nested h (n + 1) v

/-- The tree of a leaf is the text of the leaf. -/
theorem treeText_leaf {v : Value} (hv : ¬ v.isContainer = true) (limit : Nat) :
    h.treeText (limit + 1) v = h.leafText v := by rw [treeText, if_neg hv]

/-- The tree of a container is the texts of its parts in brackets. -/
theorem treeText_container {v : Value} (hv : v.isContainer = true) (limit : Nat) :
    h.treeText (limit + 1) v = h.wrap v ((h.parts v).map (partText (h.treeText limit))) := by
  rw [treeText, if_pos hv]

/-- Plain values are not containers. -/
theorem not_isContainer_of_isPlain {v : Value} (hv : v.IsPlain) : ¬ v.isContainer = true := by
  cases v <;> simp_all [Value.IsPlain, Value.isContainer]

/-- A tree of some depth is one of every larger depth. -/
theorem Nested.mono {n m : Nat} {v : Value} (hv : h.Nested n v) (hnm : n ≤ m) : h.Nested m v := by
  induction hv generalizing m with
  | leaf plain => exact .leaf plain
  | container isContainer inside ih =>
    cases m with
    | zero => omega
    | succ m => exact .container isContainer fun w hw => ih w hw (by omega)

/-- What a tree holds is a tree one level lower. -/
theorem Nested.holds {n : Nat} {v w : Value} (hv : h.Nested n v) (hvw : h.Holds v w) :
    ∃ m, n = m + 1 ∧ h.Nested m w := by
  cases hv with
  | leaf plain => exact absurd (isContainer_of_holds h hvw) (not_isContainer_of_isPlain plain)
  | container _ inside => exact ⟨_, rfl, inside w hvw⟩

/-- What a tree leads to is a tree of that depth. -/
theorem Nested.reaches {n : Nat} {v w : Value} (hv : h.Nested n v)
    (hvw : ReflTransGen h.Holds v w) : h.Nested n w := by
  induction hvw with
  | refl => exact hv
  | tail _ hstep ih =>
    obtain ⟨m, rfl, hw⟩ := ih.holds hstep
    exact hw.mono (Nat.le_succ m)

/-- A tree does not hold itself. -/
theorem Nested.not_transGen {n : Nat} {v : Value} (hv : h.Nested n v) :
    ¬ TransGen h.Holds v v := by
  induction n with
  | zero =>
    intro hcycle
    obtain ⟨w, hvw, -⟩ := TransGen.head'_iff.1 hcycle
    obtain ⟨m, hm, -⟩ := hv.holds hvw
    cases hm
  | succ n ih =>
    intro hcycle
    obtain ⟨w, hvw, hwv⟩ := TransGen.head'_iff.1 hcycle
    obtain ⟨m, hm, hw⟩ := hv.holds hvw
    cases hm
    exact ih (hw.reaches hwv) hcycle

/-! ## Writing trees -/

/-- A reference is written as a tree if its possibilities are, whatever number is next. -/
theorem writeReference_fst {write : Nat → Value → String × Nat} {text : Value → String}
    {r : Reference} (hr : ∀ v ∈ r, ∀ n, (write n v).1 = text v) (n : Nat) :
    (writeReference write n r).1 = referenceText text r := by
  simp only [writeReference, referenceText, writeParts_fst hr]

/-- A value none of whose containers is open is written as a tree. -/
theorem writeValue_fst (limit : Nat) {n : Nat} {v : Value} (hv : h.Nested n v) {opened : Open}
    (hopen : ∀ w, ReflTransGen h.Holds v w → opened.lookup w = none) (next : Nat) :
    (h.writeValue limit opened next v).1 = h.treeText limit v := by
  induction limit generalizing n v opened next with
  | zero => rfl
  | succ limit ih =>
    by_cases hcontainer : v.isContainer = true
    · rw [writeValue_container hcontainer (hopen v .refl), treeText_container hcontainer]
      refine congrArg (h.wrap v) (writeParts_fst (fun part hpart m => ?_) _)
      refine congrArg (part.1 ++ ·) (writeReference_fst (fun w hw m => ?_) m)
      have hvw : h.Holds v w := ⟨part, hpart, hw⟩
      refine ih (hv.reaches (.single hvw)) (fun x hx => ?_) m
      have hne : x ≠ v := by
        rintro rfl
        exact hv.not_transGen (.head' hvw hx)
      rw [List.lookup_cons, beq_eq_false_iff_ne.2 hne]
      exact hopen x (.head hvw hx)
    · rw [writeValue_leaf hcontainer, treeText_leaf hcontainer]

/-- The text of a reference to trees is that of these trees. -/
theorem text_eq_referenceText {n : Nat} {r : Reference} (hr : ∀ v ∈ r, h.Nested n v) :
    h.text r = referenceText (h.treeText nestingLimit) r :=
  writeReference_fst (fun v hv => writeValue_fst nestingLimit (hr v hv) fun _ _ => rfl) 0

/-! ## Trees of the same shape -/

/-- References that match by the texts of their possibilities have the same text. -/
theorem referenceText_congr {text text' : Value → String} {r s : Reference}
    (hrs : r.Matches (fun v w => text v = text' w) s) :
    referenceText text r = referenceText text' s := by
  have hset : ∀ t, t ∈ r.values.map text ↔ t ∈ s.values.map text' := by
    intro t
    simp only [List.mem_map]
    constructor
    · rintro ⟨v, hv, rfl⟩
      obtain ⟨w, hw, hvw⟩ := hrs.1 v hv
      exact ⟨w, hw, hvw.symm⟩
    · rintro ⟨w, hw, rfl⟩
      obtain ⟨v, hv, hvw⟩ := hrs.2 w hw
      exact ⟨v, hv, hvw⟩
  rw [referenceText, referenceText, sortedOnce_eq_iff.2 hset]

/-- Related values are written as the same tree. -/
theorem treeText_eq {R : Value → Value → Prop} (hsim : h.IsBisimulation h' R) (limit : Nat)
    {v w : Value} (hvw : R v w) : h.treeText limit v = h'.treeText limit w := by
  induction limit generalizing v w with
  | zero => rfl
  | succ limit ih =>
    have halike := hsim v w hvw
    by_cases hcontainer : v.isContainer = true
    · rw [treeText_container hcontainer,
        treeText_container (halike.isContainer_eq ▸ hcontainer), halike.wrap_eq]
      refine congrArg (h'.wrap w) (List.forall₂_eq_eq_eq ▸ List.forall₂_map_left_iff.2
        (List.forall₂_map_right_iff.2 (halike.parts_matches.imp ?_)))
      rintro p q ⟨hlabel, hpq⟩
      rw [partText, partText, hlabel, referenceText_congr (hpq.mono fun x _ y _ hxy => ih hxy)]
    · rw [treeText_leaf hcontainer, treeText_leaf (by rwa [← halike.isContainer_eq]),
        halike.leafText_eq]

/-! ## Reading trees -/

/-- The texts in front of the parts of an object are quoted names, or stand for all names. -/
theorem label_cases {id : Nat} {part : String × Reference} (hpart : part ∈ h.parts (.object id)) :
    (∃ key, part.1 = quote key ++ ":") ∨ part.1 = "*:" := by
  simp only [parts, List.mem_append, List.mem_map, Option.mem_toList,
    Option.map_eq_some_iff] at hpart
  obtain ⟨key, -, rfl⟩ | ⟨r, -, rfl⟩ := hpart
  · exact .inl ⟨key, rfl⟩
  · exact .inr rfl

/-- What is written in front of a part closes all brackets it opens. -/
theorem level_label {v : Value} {part : String × Reference} (hpart : part ∈ h.parts v) :
    Level part.1.toList := by
  cases v with
  | object id =>
    obtain ⟨key, hkey⟩ | hany := label_cases hpart
    · rw [hkey, String.toList_append]
      exact (level_quotePieces _).append (level_of_not_isMark (isMark_of_mem (by decide)))
    · rw [hany]
      exact level_of_not_isMark (isMark_of_mem (by decide))
  | array id =>
    obtain rfl := List.mem_singleton.1 hpart
    exact level_nil
  | _ => cases hpart

/-- The characters of a reference are those of its possibilities between parentheses. -/
theorem toList_referenceText (text : Value → String) (r : Reference) :
    (referenceText text r).toList =
      '(' :: (['|'].intercalate ((sortedOnce (r.values.map text)).map String.toList) ++ [')']) := by
  simp [referenceText]

/-- The text of a reference closes all brackets it opens if those of its possibilities do. -/
theorem level_referenceText {text : Value → String} {r : Reference}
    (hr : ∀ v ∈ r, Level (text v).toList) : Level (referenceText text r).toList := by
  rw [toList_referenceText]
  refine level_bracketed _ _ (by simp) (by simp) (run_intercalate (by simp) fun t ht => ?_)
  obtain ⟨s, hs, rfl⟩ := List.mem_map.1 ht
  obtain ⟨v, hv, rfl⟩ := List.mem_map.1 (mem_sortedOnce.1 hs)
  exact hr v hv

/-- Possibilities can be read back from the text of a reference. -/
theorem referenceText_inj {text text' : Value → String} {r s : Reference}
    (hr : ∀ v ∈ r, Level (text v).toList ∧ (text v).toList ≠ [])
    (hs : ∀ w ∈ s, Level (text' w).toList ∧ (text' w).toList ≠ [])
    (htext : referenceText text r = referenceText text' s) :
    r.Matches (fun v w => text v = text' w) s := by
  have hlevel : ∀ {text : Value → String} {r : Reference},
      (∀ v ∈ r, Level (text v).toList ∧ (text v).toList ≠ []) →
      ∀ t ∈ (sortedOnce (r.values.map text)).map String.toList, Level t ∧ t ≠ [] := by
    intro text r hr t ht
    obtain ⟨s, hs, rfl⟩ := List.mem_map.1 ht
    obtain ⟨v, hv, rfl⟩ := List.mem_map.1 (mem_sortedOnce.1 hs)
    exact hr v hv
  have hlist := congrArg String.toList htext
  rw [toList_referenceText, toList_referenceText, List.cons.injEq, List.append_cancel_right_eq]
    at hlist
  have htexts := List.map_injective_iff.2 (fun _ _ => String.toList_inj.1)
    (intercalate_inj (by simp) (hlevel hr) (hlevel hs) hlist.2)
  have hset := sortedOnce_eq_iff.1 htexts
  refine ⟨fun v hv => ?_, fun w hw => ?_⟩
  · obtain ⟨w, hw, hvw⟩ := List.mem_map.1 ((hset _).1 (List.mem_map_of_mem hv))
    exact ⟨w, hw, hvw.symm⟩
  · obtain ⟨v, hv, hvw⟩ := List.mem_map.1 ((hset _).2 (List.mem_map_of_mem hw))
    exact ⟨v, hv, hvw⟩

/-- The text of a part closes all brackets it opens, and is not empty. -/
theorem level_partText {text : Value → String} {v : Value} {part : String × Reference}
    (hpart : part ∈ h.parts v) (hinside : ∀ w ∈ part.2, Level (text w).toList) :
    Level (partText text part).toList ∧ (partText text part).toList ≠ [] := by
  rw [partText, String.toList_append]
  exact ⟨(level_label hpart).append (level_referenceText hinside), by simp [referenceText]⟩

/-- The characters of an object are those of its parts between braces. -/
theorem toList_wrap_object (id : Nat) (texts : List String) :
    (h.wrap (.object id) texts).toList =
      '\x7b' :: ([','].intercalate (texts.map String.toList) ++ ['\x7d']) := by
  simp [wrap]

/-- The characters of an array are those of its elements between brackets, and a mark. -/
theorem toList_wrap_array (id : Nat) (text : String) :
    (h.wrap (.array id) [text]).toList =
      '[' :: (text.toList ++ ']' :: if (h.array id).named then ['+'] else []) := by
  cases hnamed : (h.array id).named <;> simp [wrap, hnamed]

/-- A tree does not end before it is over. -/
theorem level_treeText {n : Nat} {v : Value} (hv : h.Nested n v) :
    Level (h.treeText (n + 1) v).toList ∧ (h.treeText (n + 1) v).toList ≠ [] := by
  induction hv with
  | @leaf n v plain =>
    rw [treeText_leaf (not_isContainer_of_isPlain plain)]
    exact ⟨(level_leafText plain).1, (level_leafText plain).2.1⟩
  | @container n v isContainer inside ih =>
    rw [treeText_container isContainer]
    have hpart : ∀ part ∈ h.parts v, Level (partText (h.treeText (n + 1)) part).toList := by
      intro part hpart
      exact (level_partText hpart fun w hw => (ih w ⟨part, hpart, hw⟩).1).1
    cases v with
    | object id =>
      rw [toList_wrap_object]
      refine ⟨level_bracketed _ _ (by simp) (by simp) (run_intercalate (by simp) fun t ht => ?_),
        by simp⟩
      simp only [List.map_map, List.mem_map, Function.comp_apply] at ht
      obtain ⟨part, hmem, rfl⟩ := ht
      exact hpart part hmem
    | array id =>
      have helements := hpart _ (List.mem_singleton.2 rfl)
      rw [parts, List.map_singleton, toList_wrap_array]
      refine ⟨?_, by simp⟩
      have hclose := level_bracketed '[' ']' (by simp) (by simp)
        fun depth => helements (depth + 1)
      have hflag : Level (if (h.array id).named then ['+'] else []) := by
        split
        · exact level_of_not_isMark (isMark_of_mem (by decide))
        · exact level_nil
      simpa using hclose.append hflag
    | _ => cases isContainer

/-- The parts of objects can be read one by one. -/
theorem part_of_partText {text text' : Value → String} {id id' : Nat} {p q : String × Reference}
    (hp : p ∈ h.parts (.object id)) (hq : q ∈ h'.parts (.object id'))
    (htext : partText text p = partText text' q) :
    p.1 = q.1 ∧ referenceText text p.2 = referenceText text' q.2 := by
  have hlist := congrArg String.toList htext
  simp only [partText, String.toList_append] at hlist
  obtain ⟨key, hkey⟩ | hany := label_cases hp
  · obtain ⟨key', hkey'⟩ | hany' := label_cases hq
    · simp only [hkey, hkey', String.toList_append, List.append_assoc] at hlist ⊢
      obtain ⟨rfl, hrest⟩ := quote_append_inj hlist
      exact ⟨rfl, String.toList_inj.1 (List.append_cancel_left hrest)⟩
    · simp [hkey, hany', quote, toList_quotePieces] at hlist
  · obtain ⟨key', hkey'⟩ | hany' := label_cases hq
    · simp [hany, hkey', quote, toList_quotePieces] at hlist
    · rw [hany, hany'] at hlist ⊢
      exact ⟨rfl, String.toList_inj.1 (List.append_cancel_left hlist)⟩

/-- Texts of possibilities that are complete. -/
abbrev LevelOn (text : Value → String) (r : Reference) : Prop :=
  ∀ v ∈ r, Level (text v).toList ∧ (text v).toList ≠ []

/-- Objects can be read back from their texts. -/
theorem parts_of_object_text {text text' : Value → String} {id id' : Nat}
    (hv : ∀ p ∈ h.parts (.object id), LevelOn text p.2)
    (hw : ∀ q ∈ h'.parts (.object id'), LevelOn text' q.2)
    (htext : h.wrap (.object id) ((h.parts (.object id)).map (partText text)) =
      h'.wrap (.object id') ((h'.parts (.object id')).map (partText text'))) :
    List.Forall₂ (fun p q => p.1 = q.1 ∧ p.2.Matches (fun x y => text x = text' y) q.2)
      (h.parts (.object id)) (h'.parts (.object id')) := by
  have hlist := congrArg String.toList htext
  rw [toList_wrap_object, toList_wrap_object, List.cons.injEq, List.append_cancel_right_eq] at hlist
  have hlevel : ∀ {h : Heap} {text : Value → String} {id : Nat},
      (∀ p ∈ h.parts (.object id), LevelOn text p.2) →
      ∀ t ∈ ((h.parts (.object id)).map (partText text)).map String.toList,
        Level t ∧ t ≠ [] := by
    intro h text id hparts t ht
    simp only [List.map_map, List.mem_map, Function.comp_apply] at ht
    obtain ⟨p, hp, rfl⟩ := ht
    exact level_partText hp fun x hx => (hparts p hp x hx).1
  have htexts := List.map_injective_iff.2 (fun _ _ => String.toList_inj.1)
    (intercalate_inj (by simp) (hlevel hv) (hlevel hw) hlist.2)
  have hpairs : List.Forall₂ (fun p q => partText text p = partText text' q)
      (h.parts (.object id)) (h'.parts (.object id')) :=
    List.forall₂_map_left_iff.1 (List.forall₂_map_right_iff.1 (List.forall₂_eq_eq_eq ▸ htexts))
  obtain ⟨hlength, hzip⟩ := List.forall₂_iff_zip.1 hpairs
  refine List.forall₂_iff_zip.2 ⟨hlength, fun {p q} hpq => ?_⟩
  obtain ⟨hp, hq⟩ := List.of_mem_zip hpq
  obtain ⟨hlabel, href⟩ := part_of_partText hp hq (hzip hpq)
  exact ⟨hlabel, referenceText_inj (hv p hp) (hw q hq) href⟩

/-- Arrays can be read back from their texts. -/
theorem elements_of_array_text {text text' : Value → String} {id id' : Nat}
    (hv : LevelOn text (h.array id).elements) (hw : LevelOn text' (h'.array id').elements)
    (htext : h.wrap (.array id) ((h.parts (.array id)).map (partText text)) =
      h'.wrap (.array id') ((h'.parts (.array id')).map (partText text'))) :
    (h.array id).elements.Matches (fun x y => text x = text' y) (h'.array id').elements ∧
      (h.array id).named = (h'.array id').named := by
  have hlist := congrArg String.toList htext
  simp only [parts, List.map_singleton, partText_empty, toList_wrap_array, List.cons.injEq,
    true_and] at hlist
  have hstop : ∀ rest, Stops (']' :: rest) := by
    intro rest c hc
    cases hc
    rfl
  obtain ⟨href, hrest⟩ := level_append_inj (level_referenceText fun x hx => (hv x hx).1)
    (level_referenceText fun x hx => (hw x hx).1) (hstop _) (hstop _) hlist
  refine ⟨referenceText_inj hv hw (String.toList_inj.1 href), ?_⟩
  cases hnamed : (h.array id).named <;> cases hnamed' : (h'.array id').named <;>
    simp [hnamed, hnamed'] at hrest ⊢

/-- Trees with the same text. -/
def SameTree (h h' : Heap) (v w : Value) : Prop :=
  ∃ n, h.Nested n v ∧ h'.Nested n w ∧ h.treeText (n + 1) v = h'.treeText (n + 1) w

/-- A plain value is like itself in every heap. -/
theorem alike_of_isPlain {R : Value → Value → Prop} {v : Value} (hv : v.IsPlain) :
    h.Alike h' R v v := by
  cases v with
  | primitive p => rfl
  | intrinsic i => rfl
  | builtin b => rfl
  | _ => exact hv.elim

/-- Containers start with a bracket, so they are not taken for leaves. -/
theorem wrap_ne_leafText {v w : Value} (hv : v.isContainer = true) (hw : w.IsPlain)
    (texts : List String) : h.wrap v texts ≠ h'.leafText w := by
  intro htext
  have hhead := (level_leafText (h := h') hw).2.2
  rw [← htext] at hhead
  cases v with
  | object id => exact (hhead '\x7b' (by simp [wrap])).2 rfl
  | array id => exact (hhead '[' (by simp [wrap])).1 rfl
  | _ => cases hv

/-- The texts of what a tree holds are complete. -/
theorem levelOn_part {n : Nat} {v : Value} (hinside : ∀ w, h.Holds v w → h.Nested n w)
    {part : String × Reference} (hpart : part ∈ h.parts v) :
    LevelOn (h.treeText (n + 1)) part.2 :=
  fun w hw => level_treeText (hinside w ⟨part, hpart, hw⟩)

/-- Trees with the same text look alike, down to everything they hold. -/
theorem isBisimulation_sameTree : h.IsBisimulation h' (h.SameTree h') := by
  rintro v w ⟨n, hv, hw, htext⟩
  cases hv with
  | leaf hv =>
    rw [treeText_leaf (not_isContainer_of_isPlain hv)] at htext
    cases hw with
    | leaf hw =>
      rw [treeText_leaf (not_isContainer_of_isPlain hw)] at htext
      rw [leafText_inj hv hw htext]
      exact alike_of_isPlain hw
    | container hw _ =>
      rw [treeText_container hw] at htext
      exact absurd htext.symm (wrap_ne_leafText hw hv _)
  | @container n _ hv hvs =>
    rw [treeText_container hv] at htext
    cases hw with
    | leaf hw =>
      rw [treeText_leaf (not_isContainer_of_isPlain hw)] at htext
      exact absurd htext (wrap_ne_leafText hv hw _)
    | container hw hws =>
      rw [treeText_container hw] at htext
      have hsame : ∀ {p q : String × Reference}, p ∈ h.parts v → q ∈ h'.parts w →
          p.2.Matches (fun x y => h.treeText (n + 1) x = h'.treeText (n + 1) y) q.2 →
          p.2.Matches (h.SameTree h') q.2 := fun hp hq hpq =>
        hpq.mono fun x hx y hy hxy => ⟨n, hvs x ⟨_, hp, hx⟩, hws y ⟨_, hq, hy⟩, hxy⟩
      cases v with
      | object id =>
        cases w with
        | object id' =>
          have hparts := parts_of_object_text (fun p hp => levelOn_part hvs hp)
            (fun q hq => levelOn_part hws hq) htext
          obtain ⟨hlength, hzip⟩ := List.forall₂_iff_zip.1 hparts
          refine alike_object (List.forall₂_iff_zip.2 ⟨hlength, fun {p q} hpq => ?_⟩)
          obtain ⟨hp, hq⟩ := List.of_mem_zip hpq
          exact ⟨(hzip hpq).1, hsame hp hq (hzip hpq).2⟩
        | array id' => exact absurd (congrArg String.toList htext) (by simp [wrap])
        | _ => cases hw
      | array id =>
        cases w with
        | array id' =>
          have hp := List.mem_singleton.2 (rfl : ("", (h.array id).elements) = _)
          have hq := List.mem_singleton.2 (rfl : ("", (h'.array id').elements) = _)
          obtain ⟨helements, hnamed⟩ := elements_of_array_text (levelOn_part hvs hp)
            (levelOn_part hws hq) htext
          exact ⟨hsame hp hq helements, hnamed⟩
        | object id' => exact absurd (congrArg String.toList htext) (by simp [wrap])
        | _ => cases hw
      | _ => cases hv

/-! ## Texts and shapes -/

/-- References to trees that stay below the limit have the same text exactly if they have the same
shape. -/
theorem text_eq_iff {r s : Reference} (hr : ∀ v ∈ r, h.Nested (nestingLimit - 1) v)
    (hs : ∀ w ∈ s, h'.Nested (nestingLimit - 1) w) :
    h.text r = h'.text s ↔ h.SameShape h' r s := by
  rw [text_eq_referenceText hr, text_eq_referenceText hs]
  constructor
  · intro htext
    refine ⟨h.SameTree h', isBisimulation_sameTree, ?_⟩
    exact (referenceText_inj (fun v hv => level_treeText (hr v hv))
      (fun w hw => level_treeText (hs w hw)) htext).mono
        fun v hv w hw hvw => ⟨_, hr v hv, hs w hw, hvw⟩
  · rintro ⟨R, hsim, hrs⟩
    exact referenceText_congr (hrs.mono fun v _ w _ hvw => treeText_eq hsim nestingLimit hvw)

/-- Two arrays with the same elements, found in different orders. -/
def twins : Heap :=
  ⟨#[], #[⟨.ofList [.primitive (.string "a"), .primitive .null], false⟩,
    ⟨.ofList [.primitive .null, .primitive (.string "a")], false⟩], #[], #[]⟩

/-- Both arrays hold the same two values. -/
theorem mem_elements_twins {id : Nat} (hid : id = 0 ∨ id = 1) {v : Value} :
    v ∈ (twins.array id).elements ↔ v = .primitive (.string "a") ∨ v = .primitive .null := by
  have hfirst : (twins.array 0).elements =
      .ofList [.primitive (.string "a"), .primitive .null] := rfl
  have hlast : (twins.array 1).elements =
      .ofList [.primitive .null, .primitive (.string "a")] := rfl
  obtain rfl | rfl := hid
  · simp [hfirst]
  · simp [hlast, or_comm]

/-- Both arrays are trees of plain values. -/
theorem nested_twins {id : Nat} (hid : id = 0 ∨ id = 1) :
    twins.Nested (nestingLimit - 1) (.array id) := by
  refine .container rfl fun w hw => .leaf ?_
  obtain ⟨part, hpart, hw⟩ := hw
  obtain rfl := List.mem_singleton.1 hpart
  obtain rfl | rfl := (mem_elements_twins hid).1 hw <;> trivial

/-- A shape counts once, however many arrays have it and whatever order they were found in. -/
theorem text_eq_iff_twins :
    twins.text (.ofList [.array 0, .array 1, .primitive (.ofNumber (.finite false 1 0))]) =
      twins.text (.ofList [.primitive (.ofNumber (.finite false 1 0)), .array 1]) := by
  have hnumber : (Value.primitive (.ofNumber (.finite false 1 0))).IsPlain := ⟨_, rfl⟩
  have hzero : 0 = 0 ∨ 0 = 1 := .inl rfl
  have hone : 1 = 0 ∨ 1 = 1 := .inr rfl
  refine (text_eq_iff (fun v hv => ?_) (fun w hw => ?_)).2
    ⟨fun v w => v = w ∧ v.IsPlain ∨
      ∃ i j, v = .array i ∧ w = .array j ∧ (i = 0 ∨ i = 1) ∧ (j = 0 ∨ j = 1), ?_, ?_⟩
  · simp only [Reference.mem_ofList, List.mem_cons, List.not_mem_nil, or_false] at hv
    obtain rfl | rfl | rfl := hv
    · exact nested_twins hzero
    · exact nested_twins hone
    · exact .leaf hnumber
  · simp only [Reference.mem_ofList, List.mem_cons, List.not_mem_nil, or_false] at hw
    obtain rfl | rfl := hw
    · exact .leaf hnumber
    · exact nested_twins hone
  · rintro v w (⟨rfl, hv⟩ | ⟨i, j, rfl, rfl, hi, hj⟩)
    · exact alike_of_isPlain hv
    · have helement : ∀ {v : Value}, v = .primitive (.string "a") ∨ v = .primitive .null →
          v.IsPlain := by
        rintro v (rfl | rfl) <;> trivial
      refine ⟨⟨fun v hv => ?_, fun w hw => ?_⟩, ?_⟩
      · rw [mem_elements_twins hi] at hv
        exact ⟨v, (mem_elements_twins hj).2 hv, .inl ⟨rfl, helement hv⟩⟩
      · rw [mem_elements_twins hj] at hw
        exact ⟨w, (mem_elements_twins hi).2 hw, .inl ⟨rfl, helement hw⟩⟩
      · obtain rfl | rfl := hi <;> obtain rfl | rfl := hj <;> rfl
  · refine ⟨fun v hv => ?_, fun w hw => ?_⟩
    · simp only [Reference.mem_ofList, List.mem_cons, List.not_mem_nil, or_false] at hv
      obtain rfl | rfl | rfl := hv
      · exact ⟨.array 1, by simp, .inr ⟨0, 1, rfl, rfl, hzero, hone⟩⟩
      · exact ⟨.array 1, by simp, .inr ⟨1, 1, rfl, rfl, hone, hone⟩⟩
      · exact ⟨_, by simp, .inl ⟨rfl, hnumber⟩⟩
    · simp only [Reference.mem_ofList, List.mem_cons, List.not_mem_nil, or_false] at hw
      obtain rfl | rfl := hw
      · exact ⟨_, by simp, .inl ⟨rfl, hnumber⟩⟩
      · exact ⟨.array 1, by simp, .inr ⟨1, 1, rfl, rfl, hone, hone⟩⟩

end FrozenGlobals.Heap
