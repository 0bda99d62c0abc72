import FrozenGlobals.Proofs.Canonical.Shape
import FrozenGlobals.Proofs.Contents
import Mathlib.Data.List.Nodup
import Mathlib.Logic.Relation

/-!
# The order of possibilities

Possibilities are written in the order in which they were found and sorted afterwards. The numbers
of open containers come from one count for the whole text, so what is written first can move the
numbers of what is written later: on graphs with cycles the order shows (`Heap.cyclic_order_shows`).

It does not show as long as writing never comes to two containers that it could open one before the
other and one of which leads around a cycle of its own (`Heap.Steady`). References back to
containers that are open already, such as those of children to their parent, have the same number in
either order. Under that condition containers that are the same up to the order of their names and
possibilities, and up to a renaming one by one, have the same text (`Heap.text_eq_of_steady`).

Whether the order shows is decided where two neighbours are exchanged (`Heap.writeParts_perm`): the
text of one must not depend on the next number (`Heap.writeValue_free`), or the other must not take
any.
-/

namespace FrozenGlobals.Heap

open Relation

variable {h h' : Heap}

/-! ## Where the order shows -/

/-- An empty object, and one that holds itself. -/
def loop : Heap := ⟨#[.empty, ⟨[("self", .single (.object 1))], none⟩], #[], #[], #[]⟩

/-- Of the two objects of `loop`, only the one that holds itself shows its number. -/
theorem writeValue_loop (n : Nat) :
    loop.writeValue nestingLimit [] n (.object 0) = ("\x7b\x7d", n + 1) ∧
      loop.writeValue nestingLimit [] n (.object 1) =
        ("\x7b\"self\":(#" ++ toString n ++ ")\x7d", n + 1) := by
  have hempty : loop.parts (.object 0) = [] := by
    simp [parts, loop, object, ObjectCell.empty, ObjectCell.keys]
  have hself : loop.parts (.object 1) = [(Text.quote "self" ++ ":", .single (.object 1))] := by
    simp [parts, loop, object, ObjectCell.keys, ObjectCell.slot?]
  have hquote : Text.quote "self" ++ ":" = "\"self\":" := by decide
  have hinner : ∀ m, loop.writeValue 999 [(.object 1, n)] m (.object 1) =
      ("#" ++ toString n, m) := writeValue_opened rfl (by simp) 998
  rw [nestingLimit, writeValue_container rfl rfl, writeValue_container rfl rfl, hempty, hself,
    hquote]
  refine ⟨rfl, ?_⟩
  simp [writeParts, writePart, writeReference, Reference.single, hinner, wrap, sortedOnce,
    ← String.toList_inj]

/-- Which object was found first moves the number of the one that holds itself, so the same two
possibilities have two texts. -/
theorem cyclic_order_shows :
    (Reference.ofList [.object 0, .object 1]).values.Perm
        (Reference.ofList [.object 1, .object 0]).values ∧
      loop.text (.ofList [.object 0, .object 1]) ≠ loop.text (.ofList [.object 1, .object 0]) ∧
      loop.equal (.ofList [.object 0, .object 1]) (.ofList [.object 1, .object 0]) = false := by
  have hfirst : loop.text (.ofList [.object 0, .object 1]) =
      "(\x7b\"self\":(#1)\x7d|\x7b\x7d)" := by
    have hsort : sortedOnce ["\x7b\x7d", "\x7b\"self\":(#1)\x7d"] =
        ["\x7b\"self\":(#1)\x7d", "\x7b\x7d"] :=
      (sortedOnce_eq_iff.2 fun t => by simp [or_comm]).trans
        (sortedOnce_of_pairwise (by decide +kernel))
    have hvalues : (Reference.ofList [.object 0, .object 1]).values = [.object 0, .object 1] := rfl
    have hnumber : "\x7b\"self\":(#" ++ toString 1 ++ ")\x7d" = "\x7b\"self\":(#1)\x7d" := rfl
    simp only [text, textWithin, writeReference, hvalues, writeParts, writeValue_loop, hnumber,
      hsort, Nat.zero_add]
    rfl
  have hlast : loop.text (.ofList [.object 1, .object 0]) =
      "(\x7b\"self\":(#0)\x7d|\x7b\x7d)" := by
    have hsort : sortedOnce ["\x7b\"self\":(#0)\x7d", "\x7b\x7d"] =
        ["\x7b\"self\":(#0)\x7d", "\x7b\x7d"] := sortedOnce_of_pairwise (by decide +kernel)
    have hvalues : (Reference.ofList [.object 1, .object 0]).values = [.object 1, .object 0] := rfl
    have hnumber : "\x7b\"self\":(#" ++ toString 0 ++ ")\x7d" = "\x7b\"self\":(#0)\x7d" := rfl
    simp only [text, textWithin, writeReference, hvalues, writeParts, writeValue_loop, hnumber,
      hsort]
    rfl
  refine ⟨.swap _ _ _, by rw [hfirst, hlast]; decide, beq_eq_false_iff_ne.2 ?_⟩
  rw [fingerprint, fingerprint, hfirst, hlast]
  decide +kernel

/-! ## Taking numbers -/

/-- A container that is not in progress has no number. -/
theorem lookup_eq_none_iff {opened : Open} {v : Value} :
    opened.lookup v = none ↔ v ∉ opened.map Prod.fst := by
  rw [List.lookup_eq_none_iff]
  simp only [bne_iff_ne, List.mem_map, not_exists, not_and]
  exact ⟨fun hne p hp hv => hne p hp hv.symm, fun hne p hp hv => hne p hp hv.symm⟩

/-- A part takes as many numbers as its possibilities. -/
theorem writePart_shift {f g : Nat → Value → String × Nat} {part : String × Reference}
    (hvalue : ∀ v ∈ part.2, ∀ n m, (f n v).2 + m = (g m v).2 + n) (n m : Nat) :
    (writePart f n part).2 + m = (writePart g m part).2 + n :=
  writeParts_shift hvalue n m

/-- How many numbers a value takes depends only on which containers are open. -/
theorem writeValue_shift (limit : Nat) {opened opened' : Open}
    (hopen : opened.map Prod.fst = opened'.map Prod.fst) (v : Value) (n m : Nat) :
    (h.writeValue limit opened n v).2 + m = (h.writeValue limit opened' m v).2 + n := by
  induction limit generalizing opened opened' v n m with
  | zero => exact Nat.add_comm n m
  | succ limit ih =>
    by_cases hv : v.isContainer = true
    · by_cases hnone : opened.lookup v = none
      · have hnone' : opened'.lookup v = none := by
          rwa [lookup_eq_none_iff, ← hopen, ← lookup_eq_none_iff]
        rw [writeValue_container hv hnone, writeValue_container hv hnone']
        have hparts := writeParts_shift
          (f := writePart (h.writeValue limit ((v, n) :: opened)))
          (g := writePart (h.writeValue limit ((v, m) :: opened'))) (l := h.parts v)
          (fun part _ => writePart_shift fun w _ => ih (by simp [hopen]) w) (n + 1) (m + 1)
        simp only
        omega
      · obtain ⟨number, hnumber⟩ := Option.ne_none_iff_exists'.1 hnone
        obtain ⟨number', hnumber'⟩ := Option.ne_none_iff_exists'.1
          (show opened'.lookup v ≠ none by
            rwa [Ne, lookup_eq_none_iff, ← hopen, ← lookup_eq_none_iff])
        rw [writeValue_opened hv hnumber, writeValue_opened hv hnumber']
        exact Nat.add_comm n m
    · rw [writeValue_leaf hv, writeValue_leaf hv]
      exact Nat.add_comm n m

/-! ## Texts without numbers of their own -/

/-- A step that writing takes: from a container that is not open to something it holds. -/
def Leads (h : Heap) (opened : List Value) (v w : Value) : Prop := v ∉ opened ∧ h.Holds v w

/-- Writing a value comes back to a container that it has opened itself. -/
def ReachesCycle (h : Heap) (opened : List Value) (v : Value) : Prop :=
  ∃ w, ReflTransGen (h.Leads opened) v w ∧ TransGen (h.Leads opened) w w

/-- A step with more containers open is a step with fewer. -/
theorem Leads.of_cons {opened : List Value} {u v w : Value} (hvw : h.Leads (u :: opened) v w) :
    h.Leads opened v w :=
  ⟨fun hv => hvw.1 (List.mem_cons_of_mem u hv), hvw.2⟩

/-- A cycle that is reached in one step is reached. -/
theorem ReachesCycle.of_step {opened : List Value} {v w : Value} (hvw : h.Leads opened v w)
    (hw : h.ReachesCycle (v :: opened) w) : h.ReachesCycle opened v := by
  obtain ⟨x, hwx, hxx⟩ := hw
  exact ⟨x, .head hvw (ReflTransGen.mono (fun _ _ => Leads.of_cons) _ _ hwx),
    TransGen.mono (fun _ _ => Leads.of_cons) _ _ hxx⟩

/-- A part is written the same whatever the next number is if its possibilities are. -/
theorem writePart_fst_eq {f g : Nat → Value → String × Nat} {part : String × Reference}
    (hvalue : ∀ v ∈ part.2, ∀ n m, (f n v).1 = (g m v).1) (n m : Nat) :
    (writePart f n part).1 = (writePart g m part).1 := by
  simp only [writePart, writeReference, writeParts_fst_eq hvalue n m]

/-- A value that leads around no cycle of its own is written the same whatever the next number is:
all numbers in its text are those of containers that were open before. -/
theorem writeValue_free (limit : Nat) {opened opened' : Open} {v : Value}
    (hopen : opened.map Prod.fst = opened'.map Prod.fst)
    (hnumbers : ∀ w, ReflTransGen (h.Leads (opened.map Prod.fst)) v w →
      opened.lookup w = opened'.lookup w)
    (hcycle : ¬ h.ReachesCycle (opened.map Prod.fst) v) (n m : Nat) :
    (h.writeValue limit opened n v).1 = (h.writeValue limit opened' m v).1 := by
  induction limit generalizing opened opened' v n m with
  | zero => rfl
  | succ limit ih =>
    by_cases hv : v.isContainer = true
    · rcases hlookup : opened.lookup v with _ | number
      · rw [writeValue_container hv hlookup,
          writeValue_container hv (by rw [← hnumbers v .refl, hlookup])]
        refine congrArg (h.wrap v) (writeParts_fst_eq
          (fun part hpart => writePart_fst_eq fun w hw => ?_) (n + 1) (m + 1))
        have hstep : h.Leads (opened.map Prod.fst) v w :=
          ⟨lookup_eq_none_iff.1 hlookup, part, hpart, hw⟩
        refine ih (by simp [hopen]) (fun x hx => ?_)
          (fun hw => hcycle (ReachesCycle.of_step hstep hw))
        -- `v` itself is the only container whose number differs, and it is not met again
        have hx' : ReflTransGen (h.Leads (opened.map Prod.fst)) w x :=
          ReflTransGen.mono (fun _ _ => Leads.of_cons) _ _ hx
        have hne : x ≠ v := by
          rintro rfl
          exact hcycle ⟨x, .refl, .head' hstep hx'⟩
        rw [List.lookup_cons, List.lookup_cons, beq_eq_false_iff_ne.2 hne]
        exact hnumbers x (.head hstep hx')
      · rw [writeValue_opened hv hlookup,
          writeValue_opened hv (by rw [← hnumbers v .refl, hlookup])]
    · rw [writeValue_leaf hv, writeValue_leaf hv]

/-! ## Exchanging neighbours -/

section Exchange

variable {α : Type} {f : Nat → α → String × Nat}

/-- The order in which parts are written does not show if of any two the text of one does not depend
on the next number or the other takes none. -/
theorem writeParts_perm {l m : List α} (hlm : l.Perm m) (hl : l.Nodup)
    (hshift : ∀ a ∈ l, ∀ n k, (f n a).2 + k = (f k a).2 + n)
    (hfree : ∀ a ∈ l, ∀ b ∈ l, a ≠ b → (∀ n k, (f n a).1 = (f k a).1) ∨ ∀ n, (f n b).2 = n)
    (n : Nat) :
    (writeParts f n l).1.Perm (writeParts f n m).1 ∧
      (writeParts f n l).2 = (writeParts f n m).2 := by
  induction hlm generalizing n with
  | nil => exact ⟨.refl _, rfl⟩
  | @cons a l m hlm ih =>
    have ih := ih (List.nodup_cons.1 hl).2 (fun b hb => hshift b (List.mem_cons_of_mem a hb))
      (fun b hb c hc => hfree b (List.mem_cons_of_mem a hb) c (List.mem_cons_of_mem a hc)) (f n a).2
    exact ⟨ih.1.cons _, ih.2⟩
  | swap a b l =>
    have hne : a ≠ b := fun hab => (List.nodup_cons.1 hl).1 (hab ▸ List.mem_cons_self)
    have ha : a ∈ b :: a :: l := List.mem_cons_of_mem b List.mem_cons_self
    have hb : b ∈ b :: a :: l := List.mem_cons_self
    -- a text is the same behind its neighbour as it is without it
    have htext : ∀ {a b}, (∀ n k, (f n a).1 = (f k a).1) ∨ (∀ n, (f n b).2 = n) →
        (f (f n b).2 a).1 = (f n a).1 := by
      rintro a b (hfree | hstill)
      · exact hfree _ _
      · rw [hstill]
    have hnext : (f (f n b).2 a).2 = (f (f n a).2 b).2 := by
      have := hshift a ha (f n b).2 n
      have := hshift b hb (f n a).2 n
      omega
    simp only [writeParts_cons, hnext, htext (hfree a ha b hb hne),
      htext (hfree b hb a ha hne.symm)]
    exact ⟨.swap _ _ _, trivial⟩
  | @trans l k m hlk _ ih₁ ih₂ =>
    have h₁ := ih₁ hl hshift hfree n
    have h₂ := ih₂ (hlk.nodup_iff.1 hl) (fun a ha => hshift a (hlk.mem_iff.2 ha))
      (fun a ha b hb => hfree a (hlk.mem_iff.2 ha) b (hlk.mem_iff.2 hb)) n
    exact ⟨h₁.1.trans h₂.1, h₁.2.trans h₂.2⟩

end Exchange

/-! ## Steady references -/

/-- Of two containers among the possibilities that are still to be opened, neither leads around a
cycle of its own. -/
def Settled (h : Heap) (opened : List Value) (r : Reference) : Prop :=
  ∀ v ∈ r, ∀ w ∈ r, v ≠ w → v.isContainer = true → w.isContainer = true → v ∉ opened →
    w ∉ opened → ¬ h.ReachesCycle opened v

/-- Writing goes from a reference to a part of a possibility, which is open from then on. -/
def Enters (h : Heap) (p q : List Value × Reference) : Prop :=
  ∃ v ∈ p.2, v ∉ p.1 ∧ q.1 = v :: p.1 ∧ ∃ label, (label, q.2) ∈ h.parts v

/-- All references that writing comes to are settled. -/
def Steady (h : Heap) (opened : List Value) (r : Reference) : Prop :=
  ∀ p, ReflTransGen h.Enters (opened, r) p → h.Settled p.1 p.2

/-- A steady reference is settled. -/
theorem Steady.settled {opened : List Value} {r : Reference} (hr : h.Steady opened r) :
    h.Settled opened r := hr (opened, r) .refl

/-- The parts of a possibility of a steady reference are steady once it is open. -/
theorem Steady.part {opened : List Value} {r : Reference} {v : Value} {part : String × Reference}
    (hr : h.Steady opened r) (hv : v ∈ r) (hopen : v ∉ opened) (hpart : part ∈ h.parts v) :
    h.Steady (v :: opened) part.2 :=
  fun p hp => hr p (.head ⟨v, hv, hopen, rfl, part.1, hpart⟩ hp)

/-- The order in which the possibilities of a settled reference are written does not show. -/
theorem writeParts_settled {opened : Open} {r : Reference}
    (hr : h.Settled (opened.map Prod.fst) r) {l : List Value} (hl : r.values.Perm l)
    (limit n : Nat) :
    (writeParts (h.writeValue limit opened) n r.values).1.Perm
        (writeParts (h.writeValue limit opened) n l).1 ∧
      (writeParts (h.writeValue limit opened) n r.values).2 =
        (writeParts (h.writeValue limit opened) n l).2 := by
  refine writeParts_perm hl r.nodup (fun v _ n k => writeValue_shift limit rfl v n k)
    (fun v hv w hw hne => ?_) n
  cases limit with
  | zero => exact .inl fun _ _ => rfl
  | succ limit =>
    -- a value that is not opened takes no number and has none of its own
    have hstill : ∀ u, ¬ (u.isContainer = true ∧ u ∉ opened.map Prod.fst) →
        ∃ text, ∀ n, h.writeValue (limit + 1) opened n u = (text, n) := by
      intro u hu
      by_cases hcontainer : u.isContainer = true
      · have hmem : opened.lookup u ≠ none := fun hnone =>
          hu ⟨hcontainer, lookup_eq_none_iff.1 hnone⟩
        obtain ⟨number, hnumber⟩ := Option.ne_none_iff_exists'.1 hmem
        exact ⟨_, writeValue_opened hcontainer hnumber limit⟩
      · exact ⟨_, writeValue_leaf hcontainer limit opened⟩
    by_cases hw' : w.isContainer = true ∧ w ∉ opened.map Prod.fst
    · by_cases hv' : v.isContainer = true ∧ v ∉ opened.map Prod.fst
      · exact .inl fun n k => writeValue_free _ rfl (fun _ _ => rfl)
          (hr v hv w hw hne hv'.1 hw'.1 hv'.2 hw'.2) n k
      · obtain ⟨text, htext⟩ := hstill v hv'
        exact .inl fun n k => by rw [htext n, htext k]
    · obtain ⟨text, htext⟩ := hstill w hw'
      exact .inr fun n => by rw [htext n]

/-! ## Renaming one by one -/

section Renaming

variable {R : Value → Value → Prop} {r s : Reference}

/-- References that match one by one are the same list up to its order. -/
theorem exists_forall₂_of_matches (hR : Relator.BiUnique R) (hrs : r.Matches R s) :
    ∃ l, r.values.Perm l ∧ List.Forall₂ R l s.values := by
  obtain ⟨l, hlr, hl⟩ : ∃ l, (∀ v ∈ l, v ∈ r) ∧ List.Forall₂ R l s.values := by
    have hs : ∀ w ∈ s.values, ∃ v ∈ r, R v w := hrs.2
    generalize s.values = ws at hs
    induction ws with
    | nil => exact ⟨[], by simp, .nil⟩
    | cons w ws ih =>
      obtain ⟨v, hv, hvw⟩ := hs w List.mem_cons_self
      obtain ⟨l, hlr, hl⟩ := ih fun u hu => hs u (List.mem_cons_of_mem w hu)
      exact ⟨v :: l, by simpa [hv] using hlr, .cons hvw hl⟩
  refine ⟨l, (List.perm_ext_iff_of_nodup r.nodup
    ((List.rel_nodup hR hl).2 s.nodup)).2 fun v => ⟨fun hv => ?_, hlr v⟩, hl⟩
  obtain ⟨w, hw, hvw⟩ := hrs.1 v hv
  exact (List.rel_mem hR hvw hl).2 hw

/-- Containers opened under related names have the same numbers. -/
theorem lookup_eq_of_related (hR : Relator.BiUnique R) {opened opened' : Open}
    (hopen : List.Forall₂ (fun p q => R p.1 q.1 ∧ p.2 = q.2) opened opened') {v w : Value}
    (hvw : R v w) : opened.lookup v = opened'.lookup w := by
  induction hopen with
  | nil => rfl
  | @cons p q _ _ hpq _ ih =>
    obtain ⟨hpq, hnumber⟩ := hpq
    rw [List.lookup_cons, List.lookup_cons, ih, hnumber,
      show (v == p.1) = (w == q.1) from beq_eq_beq.2
        ⟨fun hv => hR.2 (hv ▸ hvw) hpq, fun hw => hR.1 (hw ▸ hvw) hpq⟩]

/-- A settled reference is written as one it matches if their possibilities are. -/
theorem writeReference_matched (hR : Relator.BiUnique R) (hrs : r.Matches R s) {limit : Nat}
    (opened opened' : Open) (hr : h.Settled (opened.map Prod.fst) r)
    (hvalue : ∀ v ∈ r, ∀ w, R v w → ∀ n,
      h.writeValue limit opened n v = h'.writeValue limit opened' n w) (n : Nat) :
    writeReference (h.writeValue limit opened) n r =
      writeReference (h'.writeValue limit opened') n s := by
  obtain ⟨l, hperm, hl⟩ := exists_forall₂_of_matches hR hrs
  obtain ⟨htexts, hnext⟩ := writeParts_settled hr hperm limit n
  have hcongr : writeParts (h.writeValue limit opened) n l =
      writeParts (h'.writeValue limit opened') n s.values :=
    writeParts_congr (((List.forall₂_and_left _ _).2 ⟨fun v hv => hperm.mem_iff.2 hv, hl⟩).imp
      fun v w hvw => hvalue v hvw.1 w hvw.2) n
  rw [hcongr] at htexts hnext
  simp only [writeReference, hnext, sortedOnce_eq_iff.2 fun t => htexts.mem_iff]

/-- Related values are written the same if what they hold is steady. -/
theorem writeValue_matched (hR : Relator.BiUnique R) (hsim : h.IsBisimulation h' R)
    (limit : Nat) {opened opened' : Open}
    (hopen : List.Forall₂ (fun p q => R p.1 q.1 ∧ p.2 = q.2) opened opened') {v w : Value}
    (hvw : R v w) (hv : v ∉ opened.map Prod.fst →
      ∀ part ∈ h.parts v, h.Steady (v :: opened.map Prod.fst) part.2) (n : Nat) :
    h.writeValue limit opened n v = h'.writeValue limit opened' n w := by
  induction limit generalizing opened opened' v w n with
  | zero => rfl
  | succ limit ih =>
    have halike := hsim v w hvw
    by_cases hcontainer : v.isContainer = true
    · have hcontainer' : w.isContainer = true := halike.isContainer_eq ▸ hcontainer
      have hlookup := lookup_eq_of_related hR hopen hvw
      rcases hopened : opened.lookup v with _ | number
      · rw [writeValue_container hcontainer hopened,
          writeValue_container hcontainer' (hlookup ▸ hopened), halike.wrap_eq]
        have hsteady := hv (lookup_eq_none_iff.1 hopened)
        have hparts : List.Forall₂ (fun p q => ∀ m,
            writePart (h.writeValue limit ((v, n) :: opened)) m p =
              writePart (h'.writeValue limit ((w, n) :: opened')) m q)
            (h.parts v) (h'.parts w) := by
          refine ((List.forall₂_and_left _ _).2 ⟨hsteady, halike.parts_matches⟩).imp ?_
          rintro p q ⟨hp, hlabel, hpq⟩ m
          have hopen' : List.Forall₂ (fun p q => R p.1 q.1 ∧ p.2 = q.2)
              ((v, n) :: opened) ((w, n) :: opened') := .cons ⟨hvw, rfl⟩ hopen
          have hvalue : ∀ x ∈ p.2, ∀ y, R x y → ∀ m,
              h.writeValue limit ((v, n) :: opened) m x =
                h'.writeValue limit ((w, n) :: opened') m y := fun x hx y hxy =>
            ih hopen' hxy fun hnot part hpart => hp.part hx hnot hpart
          rw [writePart, writePart, hlabel,
            writeReference_matched hR hpq _ _ (Steady.settled hp) hvalue m]
        rw [writeParts_congr hparts]
      · rw [writeValue_opened hcontainer hopened,
          writeValue_opened hcontainer' (hlookup ▸ hopened)]
    · rw [writeValue_leaf hcontainer,
        writeValue_leaf (by rwa [← halike.isContainer_eq]), halike.leafText_eq]

/-- The same possibilities in another order. -/
abbrev Reordered (r s : Reference) : Prop := r.values.Perm s.values

/-- Heaps in which names and possibilities were inserted in another order. -/
theorem isBisimulation_of_reordered
    (hobjects : ∀ id, (h.object id).keys.Perm (h'.object id).keys ∧
      (∀ name, Option.Rel Reordered ((h.object id).slot? name) ((h'.object id).slot? name)) ∧
      Option.Rel Reordered (h.object id).wildcard (h'.object id).wildcard)
    (harrays : ∀ id, Reordered (h.array id).elements (h'.array id).elements ∧
      (h.array id).named = (h'.array id).named)
    (hfunctions : ∀ id, h.functionText id = h'.functionText id) :
    h.IsBisimulation h' (· = ·) := by
  have hmatches : Reordered = Reference.Matches (· = ·) := by
    funext r s
    exact propext Reference.matches_eq_iff.symm
  rw [hmatches] at hobjects
  simp only [hmatches] at harrays
  rintro v _ rfl
  cases v with
  | object id => exact hobjects id
  | array id => exact harrays id
  | function id => exact hfunctions id
  | _ => rfl

/-- Steady references are written the same whatever the order of names and possibilities is, and
whatever the containers are called. -/
theorem text_eq_of_steady (hR : Relator.BiUnique R) (hsim : h.IsBisimulation h' R)
    (hrs : r.Matches R s) (hr : h.Steady [] r) :
    h.text r = h'.text s ∧ h.fingerprint r = h'.fingerprint s ∧ (h = h' → h.equal r s = true) := by
  have htext : h.text r = h'.text s := congrArg Prod.fst
    (writeReference_matched hR hrs [] [] hr.settled
      (fun v hv w hvw => writeValue_matched hR hsim nestingLimit .nil hvw
        fun hnot part hpart => hr.part hv hnot hpart) 0)
  have hfingerprint : h.fingerprint r = h'.fingerprint s := by
    rw [fingerprint, fingerprint, htext]
  exact ⟨htext, hfingerprint, by rintro rfl; simp [equal, hfingerprint]⟩

end Renaming

/-! ## Children that know their parent -/

/-- An array of two objects that hold the array. -/
def family (children : Reference) : Heap :=
  ⟨#[⟨[("up", .single (.array 0))], none⟩, ⟨[("up", .ofList [.array 0, .primitive .null])], none⟩],
    #[⟨children, false⟩], #[], #[]⟩

section Family

variable {children : Reference}

/-- Each child holds no container but its parent. -/
theorem eq_of_family_object {id : Nat} {w : Value} (hw : (family children).Holds (.object id) w)
    (hcontainer : w.isContainer = true) : w = .array 0 := by
  obtain ⟨part, hpart, hw⟩ := hw
  match id with
  | 0 =>
    have hpart : part = (Text.quote "up" ++ ":", .single (.array 0)) := by
      simpa [parts, family, object, ObjectCell.keys, ObjectCell.slot?] using hpart
    rw [hpart] at hw
    exact Reference.mem_single.1 hw
  | 1 =>
    have hpart : part = (Text.quote "up" ++ ":", .ofList [.array 0, .primitive .null]) := by
      simpa [parts, family, object, ObjectCell.keys, ObjectCell.slot?] using hpart
    rw [hpart, Reference.mem_ofList] at hw
    obtain rfl | hw := List.mem_cons.1 hw
    · rfl
    · rw [List.mem_singleton.1 hw] at hcontainer
      cases hcontainer
  | id + 2 => simp [parts, family, object, ObjectCell.empty, ObjectCell.keys] at hpart

/-- The only way on from a child leads back to the parent. -/
theorem not_reachesCycle_family {v : Value} :
    ¬ (family children).ReachesCycle [.array 0] v := by
  rintro ⟨w, -, hcycle⟩
  obtain ⟨x, ⟨hopen, hwx⟩, hxw⟩ := TransGen.head'_iff.1 hcycle
  have hw : ∃ id, w = .object id := by
    cases w with
    | object id => exact ⟨id, rfl⟩
    | array id =>
      obtain ⟨part, hpart, hx⟩ := hwx
      obtain rfl : part = ("", ((family children).array id).elements) := by
        simpa [parts] using hpart
      have hid : id ≠ 0 := fun hid => hopen (by simp [hid])
      have : ((family children).array id).elements = .empty := by
        simp [family, array, hid]
      rw [this] at hx
      exact absurd hx (Reference.not_mem_empty x)
    | _ => exact absurd (isContainer_of_holds _ hwx) (by simp [Value.isContainer])
  obtain ⟨id, rfl⟩ := hw
  have hx : ∀ y, ¬ (family children).Leads [.array 0] x y := fun y hy =>
    hy.1 (by simp [eq_of_family_object hwx (isContainer_of_holds _ hy.2)])
  obtain rfl | ⟨y, hy, -⟩ := ReflTransGen.cases_head hxw
  · cases eq_of_family_object hwx rfl
  · exact hx y hy

/-- The parent of any children is steady. -/
theorem steady_family (hchildren : ∀ v ∈ children, ∃ id, v = .object id) :
    (family children).Steady [] (.single (.array 0)) := by
  -- writing comes from the parent to its children, and from there to the parent again
  have hplaces : ∀ p, ReflTransGen (family children).Enters ([], .single (.array 0)) p →
      p = ([], .single (.array 0)) ∨ p = ([.array 0], children) ∨
        (.array 0 ∈ p.1 ∧ ∀ v ∈ p.2, v.isContainer = true → v = .array 0) := by
    intro p hp
    induction hp with
    | refl => exact .inl rfl
    | @tail p q _ hpq ih =>
      obtain ⟨v, hv, hopen, hq, label, hpart⟩ := hpq
      obtain rfl | rfl | ⟨hparent, hp⟩ := ih
      · obtain rfl := Reference.mem_single.1 hv
        have hchildren : (label, q.2) = ("", children) := List.mem_singleton.1 hpart
        exact .inr (.inl (Prod.ext hq (Prod.ext_iff.1 hchildren).2))
      · obtain ⟨id, rfl⟩ := hchildren v hv
        exact .inr (.inr ⟨by simp [hq], fun w hw => eq_of_family_object ⟨_, hpart, hw⟩⟩)
      · have hcontainer : v.isContainer = true := by
          cases v <;> first | rfl | cases hpart
        exact absurd (hp v hv hcontainer ▸ hparent) hopen
  intro p hp v hv w hw hne hvc hwc hvo hwo
  obtain rfl | rfl | ⟨-, hp⟩ := hplaces p hp
  · exact absurd ((Reference.mem_single.1 hv).trans (Reference.mem_single.1 hw).symm) hne
  · exact not_reachesCycle_family
  · exact absurd ((hp v hv hvc).trans (hp w hw hwc).symm) hne

end Family

/-- The children are written in either order. -/
theorem text_eq_of_steady_family :
    (family (.ofList [.object 0, .object 1])).text (.single (.array 0)) =
      (family (.ofList [.object 1, .object 0])).text (.single (.array 0)) := by
  have hsame : ∀ o : Option Reference, Option.Rel Reordered o o := fun o => by
    cases o with
    | none => exact .none
    | some r => exact .some (.refl _)
  have hsim : (family (.ofList [.object 0, .object 1])).IsBisimulation
      (family (.ofList [.object 1, .object 0])) (· = ·) := by
    refine isBisimulation_of_reordered (fun id => ⟨.refl _, fun name => hsame _, hsame _⟩)
      (fun id => ?_) fun id => rfl
    cases id with
    | zero => exact ⟨.swap _ _ _, rfl⟩
    | succ id => exact ⟨.refl _, rfl⟩
  have hsteady : (family (.ofList [.object 0, .object 1])).Steady [] (.single (.array 0)) := by
    refine steady_family fun v hv => ?_
    simp only [Reference.mem_ofList, List.mem_cons, List.not_mem_nil, or_false] at hv
    obtain rfl | rfl := hv <;> exact ⟨_, rfl⟩
  exact (text_eq_of_steady ⟨fun _ _ _ h h' => h.trans h'.symm, fun _ _ _ h h' => h.symm.trans h'⟩
    hsim (Reference.matches_eq_iff.2 (.refl _)) hsteady).1

end FrozenGlobals.Heap
