import FrozenGlobals.Proofs.Coupling.Notes
import FrozenGlobals.Proofs.WeakUpdates

/-!
# Folded tails and built-in functions

The arguments behind a spread fold into one reference, the tail, that is passed several times.
Built-in functions read a few arguments by their positions, and collect or write all that are
passed; and to collect or to write the tail again changes nothing. So they cannot tell how often it
is passed, if it is passed `spreadSlots` times at least: `Setup.invoke_foldedTail`.

Most models write what the tail stands for as it is. `Object.assign` writes what the tail holds,
which the write before may have changed, for the target may be among the possibilities of the tail.
But what is read anew was read by the write before (`Heap.setKey_getKey_setKey_getKey`).
-/

namespace FrozenGlobals

open Run Evaluator

/-! ## Calls that built-in functions cannot tell apart -/

/-- A computation that changes nothing when it is done once more. -/
def Run.Idempotent (x : Run Unit) : Prop := (do x; x) = x

/-- Calls that differ in how often something is passed at the end, behind the positions that are
read. -/
structure CallSite.Alike (c c' : CallSite) : Prop where
  site : c'.site = c.site
  receiver : c'.receiver = c.receiver
  args : ∀ i < spreadSlots, c'.args[i]? = c.args[i]?
  collects : ∀ k < spreadSlots, derefAll (c'.args.drop k) = derefAll (c.args.drop k)
  writes : ∀ k < spreadSlots, ∀ f : Operand → Run Unit, (∀ a, (f a).Idempotent) →
    (c'.args.drop k).forM f = (c.args.drop k).forM f

/-- A list without its first members, with copies of something at its end. -/
theorem drop_append_replicate {α : Type} (xs : List α) (x : α) (k n : Nat) :
    (xs ++ List.replicate n x).drop k = xs.drop k ++ List.replicate (n - (k - xs.length)) x := by
  rw [List.drop_append, List.drop_replicate]

/-- Collecting something once more changes nothing. -/
theorem derefAll_append_replicate (os : List Operand) (t : Reference) {n : Nat} (hn : 0 < n) :
    derefAll (os ++ List.replicate n (.known t)) = derefAll (os ++ [.known t]) := by
  have hrepeat : ∀ (n : Nat) (r : Reference),
      (List.replicate n t).foldl .union (r.union t) = r.union t := by
    intro n r
    induction n with
    | zero => rfl
    | succ n ih =>
      rw [List.replicate_succ, List.foldl_cons,
        Reference.union_of_subset fun x hx => Reference.mem_union.2 (.inr hx), ih]
  obtain ⟨n, rfl⟩ := Nat.exists_eq_add_of_lt hn
  funext setup s
  rw [show derefAll _ setup s = _ from bind_of_ok (mapM_deref _ s),
    show derefAll _ setup s = _ from bind_of_ok (mapM_deref _ s)]
  let now : Operand → Reference := (·.now s)
  have hunion : Reference.unionAll ((os ++ List.replicate (0 + n + 1) (Operand.known t)).map now) =
      Reference.unionAll ((os ++ [Operand.known t]).map now) := by
    rw [Reference.unionAll, Reference.unionAll, List.map_append, List.map_append, List.foldl_append,
      List.foldl_append, List.map_replicate, List.replicate_succ, List.foldl_cons]
    exact hrepeat ..
  exact congrArg (EStateM.Result.ok · s) hunion

/-- Doing something idempotent once more changes nothing. -/
theorem forM_append_replicate {f : Operand → Run Unit} {o : Operand} (hf : (f o).Idempotent)
    (os : List Operand) {n : Nat} (hn : 0 < n) :
    (os ++ List.replicate n o).forM f = (os ++ [o]).forM f := by
  have hrepeat : ∀ n, (List.replicate (n + 1) o).forM f = [o].forM f := by
    intro n
    induction n with
    | zero => rfl
    | succ n ih =>
      rw [List.replicate_succ, List.forM_eq_forM, List.forM_cons, ← List.forM_eq_forM, ih]
      simpa [List.forM_eq_forM] using (show (do f o; f o) = f o from hf)
  obtain ⟨n, rfl⟩ := Nat.exists_eq_add_of_lt hn
  simp only [List.forM_eq_forM, List.forM_append] at hrepeat ⊢
  rw [hrepeat]

/-- A call with a tail that is passed many times. -/
def CallSite.foldedTail (site : Site) (receiver : Option Operand) (args : List Operand)
    (tail : Reference) (n : Nat) : CallSite :=
  ⟨site, receiver, args ++ List.replicate n (.known tail)⟩

/-- Calls with a folded tail are alike once the positions that are read are filled. -/
theorem CallSite.alike_foldedTail (site : Site) (receiver : Option Operand) (args : List Operand)
    (tail : Reference) {n : Nat} (hn : spreadSlots ≤ n) :
    (foldedTail site receiver args tail spreadSlots).Alike
      (foldedTail site receiver args tail n) where
  site := rfl
  receiver := rfl
  args i hi := by
    unfold foldedTail
    rcases Nat.lt_or_ge i args.length with hlt | hge
    · rw [List.getElem?_append_left hlt, List.getElem?_append_left hlt]
    · rw [List.getElem?_append_right hge, List.getElem?_append_right hge, List.getElem?_replicate,
        List.getElem?_replicate, if_pos (by omega), if_pos (by omega)]
  collects k hk := by
    unfold foldedTail
    rw [drop_append_replicate, drop_append_replicate, derefAll_append_replicate _ _ (by omega),
      derefAll_append_replicate _ _ (by omega)]
  writes k hk f hf := by
    unfold foldedTail
    rw [drop_append_replicate, drop_append_replicate, forM_append_replicate (hf _) _ (by omega),
      forM_append_replicate (hf _) _ (by omega)]

/-! ## Repeated writes -/

/-- A computation that applies an idempotent change is idempotent. -/
theorem Run.idempotent_of_step {x : Run Unit} {f : State → State}
    (hx : ∀ setup s, x setup s = .ok () (f s)) (hf : ∀ s, f (f s) = f s) : x.Idempotent := by
  funext setup s
  rw [bind_of_ok (hx setup s), hx, hx, hf]

/-- Writing an argument again changes nothing. -/
theorem idempotent_setKey (r : Reference) (k : Key) (a : Operand) :
    Run.Idempotent (do setKey r k (← deref a)) := by
  refine idempotent_of_step (f := fun s => { s with heap := s.heap.setKey r k (a.now s) })
    (fun setup s => ?_) fun s => ?_
  · rw [bind_of_ok (deref_eq setup a s)]
    rfl
  · have hnow : a.now { s with heap := s.heap.setKey r k (a.now s) } = a.now s := by
      cases a <;> rfl
    dsimp only
    rw [hnow, Heap.setKey_setKey_of_subset _ _ _ fun _ hx => hx]

/-- What is read again after it was written adds nothing, whatever holds what. -/
theorem Heap.setKey_getKey_setKey_getKey (h : Heap) (r t : Reference) :
    let h' := h.setKey r .any (h.getKey t .any)
    h'.setKey r .any (h'.getKey t .any) = h' := by
  refine setKey_setKey_of_subset _ _ _ fun x hx => ?_
  obtain ⟨w, hw, hx⟩ := mem_getKey.1 hx
  rcases mem_getKeyOf_of_mem_setKey hx with hx | ⟨-, hx | hx⟩
  · exact mem_getKey.2 ⟨w, hw, hx⟩
  · exact mem_getKey.2 ⟨w, hw, hx⟩
  · exact hx

/-- Assigning what an argument holds again changes nothing. -/
theorem idempotent_setKey_elements (r : Reference) (a : Operand) :
    Run.Idempotent (do setKey r .any (← elements (← deref a))) := by
  refine idempotent_of_step
    (f := fun s => { s with heap := s.heap.setKey r .any (s.heap.getKey (a.now s) .any) })
    (fun setup s => ?_) fun s => ?_
  · rw [bind_of_ok (deref_eq setup a s)]
    rfl
  · have hnow : a.now { s with heap := s.heap.setKey r .any (s.heap.getKey (a.now s) .any) } =
        a.now s := by
      cases a <;> rfl
    dsimp only
    rw [hnow, Heap.setKey_getKey_setKey_getKey]

/-! ## Models -/

namespace CallSite.Alike

variable {c c' : CallSite} (h : c.Alike c') (E : Evaluator)
include h

/-- The arrays of the receiver are the same. -/
theorem receiverArrays : receiverArrays c' = receiverArrays c := by
  unfold Evaluator.receiverArrays
  rw [h.receiver]

/-- The arguments at the positions that are read are the same. -/
theorem argument {i : Nat} (hi : i < spreadSlots) : argument c' i = argument c i := by
  unfold Evaluator.argument CallSite.arg
  rw [h.args i hi]

/-- The same arrays are checked. -/
theorem arrayTarget : arrayTarget c' = arrayTarget c := by
  unfold Evaluator.arrayTarget
  rw [h.receiverArrays, h.site]

/-- The same first argument is checked. -/
theorem objectTarget : objectTarget c' = objectTarget c := by
  unfold Evaluator.objectTarget
  rw [h.argument (by decide), h.site]

/-- The same callback is called back. -/
theorem callback {i : Nat} (hi : i < spreadSlots) (args : List Reference) :
    E.callback c' i args = E.callback c i args := by
  unfold Evaluator.callback CallSite.callback
  rw [h.args i hi, h.site]

/-- The same callback is called back with elements. -/
theorem elementCallback : E.elementCallback c' = E.elementCallback c := by
  unfold Evaluator.elementCallback
  simp only [h.receiverArrays, h.callback E (show 0 < spreadSlots by decide)]

/-- The same elements are inserted. -/
theorem insertElements : insertElements c' = insertElements c := by
  unfold Evaluator.insertElements
  rw [h.arrayTarget]
  refine bind_congr fun arrays => ?_
  have hwrites := h.writes 0 (by decide) _ fun a => idempotent_setKey arrays .any a
  rw [List.drop_zero, List.drop_zero] at hwrites
  rw [hwrites]

/-- The same elements are inserted and removed. -/
theorem splice : splice c' = splice c := by
  unfold Evaluator.splice
  rw [h.arrayTarget]
  refine bind_congr fun arrays => bind_congr fun items => bind_congr fun removed => ?_
  rw [h.writes 2 (by decide) _ fun a => idempotent_setKey arrays .any a]

/-- The same sources are assigned. -/
theorem objectAssign : objectAssign c' = objectAssign c := by
  unfold Evaluator.objectAssign
  rw [h.objectTarget]
  refine bind_congr fun target => ?_
  rw [h.writes 1 (by decide) _ fun a => idempotent_setKey_elements target a]

/-- The same elements and arguments are put into a new array. -/
theorem copyWith {k : Nat} (hk : k < spreadSlots) :
    copyWith c' (c'.args.drop k) = copyWith c (c.args.drop k) := by
  unfold Evaluator.copyWith
  rw [h.receiverArrays, h.collects k hk]

/-- The same source and callback make a new array. -/
theorem arrayFrom : E.arrayFrom c' = E.arrayFrom c := by
  unfold Evaluator.arrayFrom
  have hlength : c'.args.length < 2 ↔ c.args.length < 2 := by
    rw [Nat.lt_succ_iff, Nat.lt_succ_iff, ← List.getElem?_eq_none_iff,
      ← List.getElem?_eq_none_iff, h.args 1 (by decide)]
  simp only [h.argument (show 0 < spreadSlots by decide),
    h.callback E (show 1 < spreadSlots by decide),
    hlength]

/-- The same callback and initial value reduce the elements. -/
theorem reduce : E.reduce c' = E.reduce c := by
  unfold Evaluator.reduce
  simp only [h.receiverArrays, h.args 1 (by decide), h.callback E (show 0 < spreadSlots by decide)]

/-- All arguments together are the same reference. -/
theorem collectsAll : derefAll c'.args = derefAll c.args := by
  simpa using h.collects 0 (by decide)

/-- The second argument is the same. -/
theorem second : (c'.args.drop 1).take 1 = (c.args.drop 1).take 1 := by
  rw [List.take_one, List.take_one, List.head?_drop, List.head?_drop, h.args 1 (by decide)]

/-- Built-in functions do the same in calls that they cannot tell apart: they change the state
alike, and call back with the same arguments. -/
theorem model (b : Builtin) : E.model b c' = E.model b c := by
  have hfirst : Evaluator.argument c' 0 = Evaluator.argument c 0 := h.argument (by decide)
  have hcallback : ∀ args, E.callback c' 0 args = E.callback c 0 args := h.callback E (by decide)
  cases b with
  | arrayPush | arrayUnshift => exact h.insertElements
  | arraySplice => exact h.splice
  | arrayReduce | arrayReduceRight => exact h.reduce E
  | arrayToSpliced => exact h.copyWith (by decide)
  | arrayFrom => exact h.arrayFrom E
  | objectAssign => exact h.objectAssign
  | arrayPop | arrayShift => simp only [Evaluator.model, removeElement, h.arrayTarget]
  | arrayFill => simp only [Evaluator.model, fill, h.arrayTarget, hfirst]
  | arraySort => simp only [Evaluator.model, sort, h.arrayTarget, hcallback]
  | arrayToSorted => simp only [Evaluator.model, toSorted, h.receiverArrays, hcallback]
  | arrayFlatMap => simp only [Evaluator.model, flatMap, h.elementCallback E]
  | arrayConcat => simp only [Evaluator.model, concat, h.receiverArrays, h.collectsAll]
  | arrayFlat => simp only [Evaluator.model, flat, h.receiverArrays]
  | arrayWith => simp only [Evaluator.model, Evaluator.copyWith, h.receiverArrays, h.second]
  | objectDefineProperty =>
    simp only [Evaluator.model, defineProperty, h.objectTarget,
      h.argument (show 2 < spreadSlots by decide)]
  | objectDefineProperties =>
    simp only [Evaluator.model, defineProperties, h.objectTarget,
      h.argument (show 1 < spreadSlots by decide)]
  | objectGroupBy =>
    simp only [Evaluator.model, groupBy, hfirst, h.callback E (show 1 < spreadSlots by decide)]
  | objectCreate => simp only [Evaluator.model, createObject, hfirst, h.args 1 (by decide)]
  | _ =>
    simp only [Evaluator.model, h.receiverArrays, h.arrayTarget, h.objectTarget, hfirst,
      h.elementCallback E, h.collectsAll, h.site]

/-- Global constructors do the same in calls that they cannot tell apart. -/
theorem callIntrinsic (i : Intrinsic) : callIntrinsic i c' = callIntrinsic i c := by
  cases i with
  | object =>
    simp only [Evaluator.callIntrinsic, List.head?_eq_getElem?, h.args 0 (by decide)]
  | _ => simp only [Evaluator.callIntrinsic, h.collectsAll, h.site]

end CallSite.Alike

/-! ## Calls -/

/-- Runs that end with the same failure, or with the same result in states that differ in their logs
only. -/
def Run.EqualButLog {α : Type} :
    EStateM.Result Failure State α → EStateM.Result Failure State α → Prop
  | .ok a s, .ok b t => b = a ∧ t = { s with log := t.log }
  | .error e _, .error f _ => f = e
  | _, _ => False

namespace Setup

variable {setup : Setup}

/-- The same report keeps reports the same. -/
theorem report_same {ds ds' : Array Diagnostic} (d : Diagnostic) (h : ds' = ds) :
    ds'.push d = ds.push d := by
  rw [h]

/-- The same warning keeps warnings the same. -/
theorem warn_same (setup : Setup) {ws ws' : Array String} (message : String) (h : ws' = ws) :
    (if setup.options.warnings then ws'.push message else ws') =
      if setup.options.warnings then ws.push message else ws := by
  rw [h]

/-- Two analyses have noted the same. -/
def noted (setup : Setup) : Notes setup setup where
  diagnostics ds ds' := ds' = ds
  warnings ws ws' := ws' = ws
  report := @report_same
  warn := @warn_same setup

/-- States that have noted the same and match in everything else differ in their logs only. -/
theorem eq_of_states {s t : State} (h : setup.noted.matching.coupling.states () s t) :
    t = { s with log := t.log } := by
  obtain ⟨⟨hheap, hprovenance, hknown, hthrown, hdiagnostics, hwarnings⟩, hparallel⟩ := h
  obtain ⟨hrequests, hdepth, hcalls, hactive, hreentries, hbudget, hceiling, hunit, hanchors⟩ :=
    hparallel
  cases s
  cases t
  simp only [State.content] at *
  subst_vars
  rfl

/-- What is logged has no influence on what a built-in function does. -/
theorem equalButLog_model (k : Nat) (b : Builtin) (c : CallSite) {s t : State}
    (hst : t = { s with log := t.log }) :
    EqualButLog ((ofFuel k).model b c setup s) ((ofFuel k).model b c setup t) := by
  have hlaws : setup.noted.matching.coupling.Laws :=
    (Notes.lawful ⟨rfl, rfl, rfl, rfl, rfl, rfl⟩).laws
  have hE := Evaluator.Couples.ofFuel hlaws (fun _ => trivial) (fun _ => trivial) k
  have hoperands : ∀ o, setup.noted.matching.coupling.Operands () o o := fun o =>
    Notes.operands_iff.2 rfl
  have hsites : setup.noted.matching.coupling.Sites () c c :=
    ⟨rfl, rel_self hoperands _, List.forall₂_same.2 fun o _ => hoperands o⟩
  have hstates : setup.noted.matching.coupling.states () s t := by
    rw [hst]
    exact ⟨⟨rfl, rfl, rfl, rfl, rfl, rfl⟩, { State.Parallel.rfl with }⟩
  have hends := (Evaluator.Couples.model hlaws hsites hE b).run () trivial s t hstates rfl
  revert hends
  cases (ofFuel k).model b c setup s with
  | ok a s' =>
    cases (ofFuel k).model b c setup t with
    | ok a' t' =>
      rintro ⟨_, _, hstates, -, href⟩
      exact ⟨Notes.same.refs_iff.1 href, eq_of_states hstates⟩
    | error f t' => exact id
  | error e s' => cases (ofFuel k).model b c setup t <;> exact id

/-- The call of a built-in function logs how many arguments there are before it does anything
else. -/
theorem equalButLog_callBuiltin (k : Nat) (b : Builtin) {c c' : CallSite} (h : c.Alike c')
    (s : State) :
    EqualButLog ((ofFuel k).callBuiltin b c setup s) ((ofFuel k).callBuiltin b c' setup s) := by
  have hlogged : ∀ n m : Nat, EqualButLog
      ((do
        log .debug fun _ => ("Calling built-in", [("builtin", .text b.render), ("args", .ofNat n)])
        (ofFuel k).model b c) setup s)
      ((do
        log .debug fun _ => ("Calling built-in", [("builtin", .text b.render), ("args", .ofNat m)])
        (ofFuel k).model b c) setup s) := by
    intro n m
    obtain ⟨entries, heq⟩ := log_ok setup .debug
      (fun _ => ("Calling built-in", [("builtin", .text b.render), ("args", .ofNat n)])) s
    obtain ⟨entries', heq'⟩ := log_ok setup .debug
      (fun _ => ("Calling built-in", [("builtin", .text b.render), ("args", .ofNat m)])) s
    rw [bind_of_ok heq, bind_of_ok heq']
    exact equalButLog_model k b c rfl
  unfold callBuiltin
  rw [h.model (ofFuel k)]
  cases b with
  | unknown code => exact equalButLog_model k (.unknown code) c rfl
  | _ => exact hlogged c.args.length c'.args.length

variable (setup) (s : State) (site : Site) (receiver : Option Operand) (args : List Operand)
  (tail : Reference) {n : Nat}

/-- Built-in functions cannot tell how often a folded tail is passed, if it is passed `spreadSlots`
times at least. Their models do exactly the same, with any evaluator for what they call back: the
same values are called with the same arguments from the same states, and the heap, the diagnostics
and the result are the same. A call differs in its entry in the log, which counts the arguments, and
otherwise it ends with the same failure or with the same result in the same state. -/
theorem invoke_foldedTail (hn : spreadSlots ≤ n) :
    let few := CallSite.foldedTail site receiver args tail spreadSlots
    let many := CallSite.foldedTail site receiver args tail n
    (∀ (E : Evaluator) b, E.model b many = E.model b few) ∧
    (∀ i, callIntrinsic i many = callIntrinsic i few) ∧
    ∀ k v, v.isNative →
      EqualButLog ((ofFuel k).invoke v few setup s) ((ofFuel k).invoke v many setup s) := by
  intro few many
  have halike : few.Alike many := CallSite.alike_foldedTail site receiver args tail hn
  refine ⟨fun E => halike.model E, halike.callIntrinsic, fun k v hv => ?_⟩
  cases k with
  | zero => exact rfl
  | succ k =>
    cases v with
    | builtin b => exact equalButLog_callBuiltin k b halike s
    | intrinsic i =>
      show EqualButLog (callIntrinsic i few setup s) (callIntrinsic i many setup s)
      rw [halike.callIntrinsic]
      cases callIntrinsic i few setup s with
      | ok a t => exact ⟨rfl, rfl⟩
      | error e t => exact rfl
    | _ => cases hv

/-- An object that holds itself is assigned to itself, six times instead of four. -/
theorem invoke_foldedTail_selfHolding :
    let tail : Reference := .single (.object 0)
    let s : State :=
      { State.start with heap := { Heap.empty with objects := #[⟨[("self", tail)], none⟩] } }
    let few := CallSite.foldedTail ⟨.call, ⟨0, 20⟩⟩ none [] tail spreadSlots
    let many := CallSite.foldedTail ⟨.call, ⟨0, 20⟩⟩ none [] tail 6
    spreadSlots ≤ 6 ∧ (ofFuel 0).model .objectAssign many = (ofFuel 0).model .objectAssign few ∧
      EqualButLog ((ofFuel 1).invoke (.builtin .objectAssign) few default s)
        ((ofFuel 1).invoke (.builtin .objectAssign) many default s) := by
  intro tail s few many
  have hn : spreadSlots ≤ 6 := by decide
  obtain ⟨hmodel, -, hinvoke⟩ := invoke_foldedTail default s ⟨.call, ⟨0, 20⟩⟩ none [] tail hn
  exact ⟨hn, hmodel _ _, hinvoke 1 _ rfl⟩

end Setup

end FrozenGlobals
