import FrozenGlobals.Proofs.Discipline.Agree

/-!
# Flattened arrays

`flat` opens the arrays that wait in a queue, and queues the arrays among their elements. The queue
may hold an array many times, but an array is opened once, so the number of arrays that were not
opened yet falls, however the heap is shared and whatever cycles it has.

`Heap.Opened` is what the loop keeps true: opened arrays have passed on their elements, and the
arrays among these were opened or wait. Where nothing waits any more, whatever is nested in an
opened array was opened, too. `Evaluator.flat_exact` says what that makes of a call: one new array,
which holds what the arrays hold that are reached from the receiver, and a heap that is otherwise as
it was.
-/

namespace FrozenGlobals

open Run Relation

namespace Heap

variable {h : Heap} {unseen : List Nat} {queue rest : List Value} {out : Reference}
    {id : Nat} {v : Value}

/-- An array is among the elements of another one. -/
def Nests (h : Heap) (a b : Nat) : Prop := .array b ∈ (h.array a).elements

/-! ## What the loop keeps true -/

/-- Arrays that were opened have passed on their elements. The arrays among these were opened, or
they wait. -/
structure Opened (h : Heap) (unseen : List Nat) (queue : List Value) (out : Reference) : Prop where
  nodup : unseen.Nodup
  passed : ∀ a ∉ unseen, ∀ v ∈ (h.array a).elements, v ∈ out
  waits : ∀ a ∉ unseen, ∀ b, h.Nests a b → b ∉ unseen ∨ .array b ∈ queue

namespace Opened

/-- In the beginning, the arrays that are not there count as opened. They hold nothing. -/
theorem start (h : Heap) (queue : List Value) :
    h.Opened (List.range h.arrays.size) queue .empty := by
  have hnone : ∀ a ∉ List.range h.arrays.size, ∀ v, v ∉ (h.array a).elements := by
    intro a ha v hv
    rw [List.mem_range, Nat.not_lt] at ha
    rw [array, Array.getElem?_eq_none ha] at hv
    exact Reference.not_mem_empty v hv
  exact ⟨List.nodup_range, fun a ha v hv => absurd hv (hnone a ha v),
    fun a ha b hb => absurd hb (hnone a ha _)⟩

/-- An array that waits is opened. -/
theorem opening (ho : h.Opened unseen (.array id :: rest) out) :
    h.Opened (unseen.erase id) (rest ++ (h.array id).elements.arrays.values)
      (out.union (h.array id).elements) := by
  have hsplit : ∀ {a}, a ∉ unseen.erase id → a ∉ unseen ∨ a = id := by
    intro a ha
    by_cases hid : a = id
    · exact .inr hid
    · exact .inl fun hmem => ha ((List.mem_erase_of_ne hid).2 hmem)
  refine ⟨ho.nodup.erase _, fun a ha v hv => ?_, fun a ha b hb => ?_⟩
  · rcases hsplit ha with ha | rfl
    · exact Reference.mem_union.2 (.inl (ho.passed a ha v hv))
    · exact Reference.mem_union.2 (.inr hv)
  · rcases hsplit ha with ha | rfl
    · rcases ho.waits a ha b hb with hb | hb
      · exact .inl fun hmem => hb (List.mem_of_mem_erase hmem)
      · rcases List.mem_cons.1 hb with heq | hb
        · -- Only now was the array opened that the earlier one waits for.
          cases heq
          exact .inl (List.Nodup.not_mem_erase ho.nodup)
        · exact .inr (List.mem_append_left _ hb)
    · exact .inr (List.mem_append_right _ (Reference.mem_arrays.2 ⟨hb, _, rfl⟩))

/-- What is no array, or was opened before, is dropped. -/
theorem skip (ho : h.Opened unseen (v :: rest) out) (hv : ∀ a, v = .array a → a ∉ unseen) :
    h.Opened unseen rest out := by
  refine ⟨ho.nodup, ho.passed, fun a ha b hb => ?_⟩
  rcases ho.waits a ha b hb with hb | hb
  · exact .inl hb
  · rcases List.mem_cons.1 hb with rfl | hb
    · exact .inl (hv b rfl)
    · exact .inr hb

/-- Where nothing waits, what is nested in an opened array has passed on its elements. -/
theorem reached (ho : h.Opened unseen [] out) {a b : Nat} (ha : a ∉ unseen)
    (hab : ReflTransGen h.Nests a b) (hv : v ∈ (h.array b).elements) : v ∈ out := by
  have hb : b ∉ unseen := by
    clear hv
    induction hab with
    | refl => exact ha
    | tail _ hbc ih =>
      rcases ho.waits _ ih _ hbc with hc | hc
      · exact hc
      · cases hc
  exact ho.passed b hb v hv

end Opened

/-! ## The whole loop -/

/-- Everything that the arrays in the queue and the opened ones reach is collected. -/
theorem mem_flatten_of_reached (ho : h.Opened unseen queue out) {a b : Nat}
    (ha : a ∉ unseen ∨ .array a ∈ queue) (hab : ReflTransGen h.Nests a b)
    (hv : v ∈ (h.array b).elements) : v ∈ h.flatten unseen queue out := by
  induction unseen, queue, out using Heap.flatten.induct h with
  | case1 unseen out =>
    rw [flatten]
    rcases ha with ha | ha
    · exact ho.reached ha hab hv
    · cases ha
  | case2 unseen out id rest hmem elements ih =>
    rw [flatten, dif_pos hmem]
    refine ih ho.opening ?_
    by_cases hid : a = id
    · subst hid
      exact .inl (List.Nodup.not_mem_erase ho.nodup)
    · rcases ha with ha | ha
      · exact .inl fun h => ha (List.mem_of_mem_erase h)
      · rcases List.mem_cons.1 ha with heq | ha
        · exact absurd (Value.array.inj heq) hid
        · exact .inr (List.mem_append_left _ ha)
  | case3 unseen out id rest hmem ih =>
    rw [flatten, dif_neg hmem]
    refine ih (ho.skip fun a ha => by cases ha; exact hmem) ?_
    rcases ha with ha | ha
    · exact .inl ha
    · rcases List.mem_cons.1 ha with heq | ha
      · cases heq
        exact .inl hmem
      · exact .inr ha
  | case4 unseen out v rest hnone ih =>
    rw [flatten]
    · refine ih (ho.skip fun a ha => (hnone a ha).elim) ?_
      rcases ha with ha | ha
      · exact .inl ha
      · rcases List.mem_cons.1 ha with heq | ha
        · exact (hnone a heq.symm).elim
        · exact .inr ha
    · exact hnone

/-- Nothing else is collected. -/
theorem reached_of_mem_flatten (hv : v ∈ h.flatten unseen queue out) :
    v ∈ out ∨ ∃ a b, .array a ∈ queue ∧ ReflTransGen h.Nests a b ∧ v ∈ (h.array b).elements := by
  induction unseen, queue, out using Heap.flatten.induct h with
  | case1 unseen out =>
    rw [flatten] at hv
    exact .inl hv
  | case2 unseen out id rest hmem elements ih =>
    rw [flatten, dif_pos hmem] at hv
    rcases ih hv with hout | ⟨a, b, ha, hab, hb⟩
    · rcases Reference.mem_union.1 hout with hout | helem
      · exact .inl hout
      · exact .inr ⟨id, id, List.mem_cons_self .., .refl, helem⟩
    · rcases List.mem_append.1 ha with ha | ha
      · exact .inr ⟨a, b, List.mem_cons_of_mem _ ha, hab, hb⟩
      · -- The array was queued when the head was opened, so it is nested in the head.
        have hnests : h.Nests id a := (Reference.mem_arrays.1 ha).1
        exact .inr ⟨id, b, List.mem_cons_self .., .head hnests hab, hb⟩
  | case3 unseen out id rest hmem ih =>
    rw [flatten, dif_neg hmem] at hv
    rcases ih hv with hout | ⟨a, b, ha, hab⟩
    · exact .inl hout
    · exact .inr ⟨a, b, List.mem_cons_of_mem _ ha, hab⟩
  | case4 unseen out v rest hnone ih =>
    rw [flatten] at hv
    · rcases ih hv with hout | ⟨a, b, ha, hab⟩
      · exact .inl hout
      · exact .inr ⟨a, b, List.mem_cons_of_mem _ ha, hab⟩
    · exact hnone

/-- Flattening all arrays of a heap collects what the arrays hold that are reached from the
queue. -/
theorem mem_flatten_iff (h : Heap) (queue : List Value) (v : Value) :
    v ∈ h.flatten (List.range h.arrays.size) queue .empty ↔
      ∃ a b, .array a ∈ queue ∧ ReflTransGen h.Nests a b ∧ v ∈ (h.array b).elements := by
  constructor
  · intro hv
    exact (reached_of_mem_flatten hv).resolve_left (Reference.not_mem_empty v)
  · rintro ⟨a, b, ha, hab, hv⟩
    exact mem_flatten_of_reached (.start h queue) (.inr ha) hab hv

end Heap

/-! ## The method -/

namespace Evaluator

/-- A call of `flat` ends, whatever its receiver and whatever the heap. It returns one array that
was not there before. The array holds what the arrays hold that are reached from the receiver
along elements, and nothing else; everything but the new array and the log is as it was before the
call. -/
theorem flat_exact (E : Evaluator) (setup : Setup) (c : CallSite) (s : State) :
    ∃ (elements : Reference) (log : Array Log.Entry),
      E.callBuiltin .arrayFlat c setup s = .ok (.single (.array s.heap.arrays.size))
        { s with heap := { s.heap with arrays := s.heap.arrays.push ⟨elements, false⟩ }, log } ∧
      ∀ v, v ∈ elements ↔ ∃ o ∈ c.receiver, ∃ a b, .array a ∈ o.now s ∧
        ReflTransGen s.heap.Nests a b ∧ v ∈ (s.heap.array b).elements := by
  obtain ⟨log, hlog⟩ := log_ok setup .debug
    (fun _ => ("Calling built-in",
      [("builtin", .text Builtin.arrayFlat.render), ("args", .ofNat c.args.length)])) s
  let s' := { s with log }
  have hqueue : ∀ a, .array a ∈ (c.arraysNow s').values ↔ ∃ o ∈ c.receiver, .array a ∈ o.now s := by
    intro a
    unfold CallSite.arraysNow
    cases c.receiver with
    | none =>
      simp only [Option.mem_def, reduceCtorEq, false_and, exists_false, iff_false]
      exact Reference.not_mem_empty _
    | some o =>
      simp only [Option.mem_def, Option.some.injEq, exists_eq_left']
      exact Reference.mem_arrays.trans (and_iff_left ⟨a, rfl⟩)
  refine ⟨s.heap.flatten (List.range s.heap.arrays.size) (c.arraysNow s').values .empty,
    log, ?_, ?_⟩
  · calc E.callBuiltin .arrayFlat c setup s
      _ = flat c setup s' := bind_of_ok hlog
      _ = arrayOf (s'.heap.flatten (List.range s'.heap.arrays.size) (c.arraysNow s').values .empty)
            setup s' := bind_of_ok (receiverArrays_eq ..)
  · intro v
    rw [Heap.mem_flatten_iff]
    constructor
    · rintro ⟨a, b, ha, hab⟩
      obtain ⟨o, ho, hoa⟩ := (hqueue a).1 ha
      exact ⟨o, ho, a, b, hoa, hab⟩
    · rintro ⟨o, ho, a, b, hoa, hab⟩
      exact ⟨a, b, (hqueue a).2 ⟨o, ho, hoa⟩, hab⟩

end Evaluator

end FrozenGlobals
