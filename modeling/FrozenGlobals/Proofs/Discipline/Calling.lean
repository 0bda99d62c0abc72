import FrozenGlobals.Proofs.Discipline.Writing

/-!
# Agreement of native methods

Native methods agree if the evaluators they call back do.

They call back without counting the call, and may be passed to each other. What they pass on shrinks
in a way of its own: only a call that was read from a receiver passes elements on, a callback has no
receiver, and without one nothing but the initial value of a reduction is passed on, in one place
further left. `CallSite.rank` says how far that can go, and it falls from a native call to those it
makes.
-/

namespace FrozenGlobals

open Run Discipline
open Script (Span Node Expr Pattern Stmt)

/-! ## Ranks of calls -/

/-- Nothing but primitives, which cannot be called. -/
def Operand.Inert : Operand → Prop
  | .known r => ∀ v ∈ r.values, v.kind = .primitive
  | .thrown => False

instance : DecidablePred Operand.Inert
  | .known r => inferInstanceAs (Decidable (∀ v ∈ r.values, v.kind = .primitive))
  | .thrown => inferInstanceAs (Decidable False)

/-- An operand without possibilities calls nothing. -/
theorem Operand.inert_empty : (Operand.known .empty).Inert := nofun

/-- A primitive that nothing is known of calls nothing. -/
theorem Operand.inert_anyPrimitive : (Operand.known .anyPrimitive).Inert := by decide

namespace CallSite

/-- How many native calls in a row can follow from a call before functions of scripts are called. -/
def rank (c : CallSite) : Nat :=
  if c.receiver.isSome then 3
  else if ¬ (c.arg 1).Inert then 2
  else if ¬ (c.arg 0).Inert then 1
  else 0

variable {c : CallSite}

/-- Ranks are small: at most three native calls follow one another. -/
theorem rank_le (c : CallSite) : c.rank ≤ 3 := by
  unfold rank
  split
  · omega
  · split
    · omega
    · split <;> omega

/-- Only a call that was read from a receiver has the highest rank. -/
theorem rank_of_receiver {o : Operand} (h : c.receiver = some o) : c.rank = 3 := by
  simp [rank, h]

/-- A call whose second argument may call something ranks above those that pass one argument on. -/
theorem two_le_rank (h : ¬ (c.arg 1).Inert) : 2 ≤ c.rank := by
  unfold rank
  rw [if_pos h]
  split <;> omega

/-- A call whose first argument may call something does not have the lowest rank. -/
theorem one_le_rank (h : ¬ (c.arg 0).Inert) : 1 ≤ c.rank := by
  unfold rank
  rw [if_pos h]
  split
  · omega
  · split <;> omega

/-- A callback has no receiver, and so ranks below every call with one. -/
theorem rank_callback_le_two (c : CallSite) (args : List Operand) : (c.callback args).rank ≤ 2 := by
  unfold rank
  rw [if_neg (by simp [callback])]
  split
  · omega
  · split <;> omega

/-- A callback with a second argument that calls nothing ranks lower. -/
theorem rank_callback_le_one (c : CallSite) (args : List Operand)
    (h : ((c.callback args).arg 1).Inert) : (c.callback args).rank ≤ 1 := by
  unfold rank
  rw [if_neg (by simp [callback]), if_neg (not_not.2 h)]
  split <;> omega

/-- A callback with arguments that call nothing has the lowest rank. -/
theorem rank_callback_eq_zero (c : CallSite) (args : List Operand)
    (h₀ : ((c.callback args).arg 0).Inert) (h₁ : ((c.callback args).arg 1).Inert) :
    (c.callback args).rank = 0 := by
  unfold rank
  rw [if_neg (by simp [callback]), if_neg (not_not.2 h₁), if_neg (not_not.2 h₀)]

end CallSite

/-- A native call may make the calls that native calls make, which stand where it stands. -/
def Licence.Passes (L : Licence) (p : Position) (c : CallSite) : Prop :=
  ∀ v c', c'.site = c.site → c'.rank < c.rank ∨ v.kind = .primitive → L.call p v c'

namespace Evaluator.Agrees

variable {setup : Setup} {D : Discipline setup} {L : Licence} {E E' : Evaluator} {p : Position}
  {stack : Stack}

/-! ## Parts of native calls -/

section
variable {c : CallSite}

/-- The arrays a method works on are read alike; without a receiver there are none. -/
theorem receiverArrays (c : CallSite) :
    D.Keeps p (Evaluator.receiverArrays c) fun r => c.receiver = none → r = .empty := by
  unfold Evaluator.receiverArrays
  cases c.receiver with
  | none => exact .pure fun _ => rfl
  | some o => exact (Agree.deref o).bind fun _ _ => .pure nofun

/-- Elements are read alike; the empty reference has none. -/
theorem elements (r : Reference) :
    D.Keeps p (Evaluator.elements r) fun r' => r = .empty → r' = .empty := .getKey r .any

/-- An argument is read alike. -/
theorem argument (c : CallSite) (i : Nat) :
    D.Keeps p (Evaluator.argument c i) fun _ => True := (Agree.deref _).imp fun _ _ => trivial

/-- The check of the arrays reports alike; without a receiver there are none. -/
theorem arrayTarget (hplace : D.place p.unit c.site.span) :
    D.Keeps p (Evaluator.arrayTarget c) fun r => c.receiver = none → r = .empty :=
  (receiverArrays c).bind fun _ hr => (Agree.checkGlobal _ _ hplace).seq (.pure hr)

/-- The check of the first argument reports alike. -/
theorem objectTarget (hplace : D.place p.unit c.site.span) :
    D.Keeps p (Evaluator.objectTarget c) fun _ => True :=
  (argument c 0).bind fun _ _ => (Agree.checkGlobal _ _ hplace).seq (.pure trivial)

/-- A new array of given elements is made alike. -/
theorem arrayOf (r : Reference) : D.Keeps p (Evaluator.arrayOf r) fun _ => True :=
  (Agree.newArray r).bind fun _ _ => .pure trivial

/-- A new object of given contents is made alike. -/
theorem objectOf (r : Reference) : D.Keeps p (Evaluator.objectOf r) fun _ => True :=
  (Agree.newObject _).bind fun _ _ => .pure trivial

/-- A property descriptor is made alike. -/
theorem descriptor (r : Reference) : D.Keeps p (Evaluator.descriptor r) fun _ => True :=
  .newObject _

/-- The elements of what the method was read from. -/
theorem ownElements {f : Reference → Run Reference}
    (hf : ∀ r, D.Keeps p (f r) fun _ => True) :
    D.Keeps p (do f (← Evaluator.elements (← Evaluator.receiverArrays c))) fun _ => True :=
  (receiverArrays c).bind fun r _ => (elements r).bind fun r _ => hf r

/-- The elements of the first argument. -/
theorem argumentElements {f : Reference → Run Reference}
    (hf : ∀ r, D.Keeps p (f r) fun _ => True) :
    D.Keeps p (do f (← Evaluator.elements (← Evaluator.argument c 0))) fun _ => True :=
  (argument c 0).bind fun r _ => (elements r).bind fun r _ => hf r

/-- Pairs of a key and a value are made alike. -/
theorem pairsOf (r : Reference) : D.Keeps p (do
    Evaluator.arrayOf (← Evaluator.arrayOf (Reference.anyPrimitive.union r))) fun _ => True :=
  (arrayOf _).bind fun r _ => arrayOf r

/-! ## Methods that do not call back -/

/-- Methods that insert elements check and write alike. -/
theorem insertElements (hplace : D.place p.unit c.site.span) :
    D.Keeps p (Evaluator.insertElements c) fun _ => True := by
  refine (arrayTarget hplace).bind fun arrays _ => ?_
  refine Agree.seq (Q := fun _ => True) (.forM fun a _ => ?_) (.pure trivial)
  exact (Agree.deref a).bind fun _ _ => .setKey ..

/-- Methods that remove an element check and read alike. -/
theorem removeElement (hplace : D.place p.unit c.site.span) :
    D.Keeps p (Evaluator.removeElement c) fun _ => True :=
  (arrayTarget hplace).bind fun r _ => (elements r).bind fun _ _ => .pure trivial

/-- `splice` checks, makes its array and writes alike. -/
theorem splice (hplace : D.place p.unit c.site.span) :
    D.Keeps p (Evaluator.splice c) fun _ => True := by
  refine (arrayTarget hplace).bind fun arrays _ => (elements arrays).bind fun r _ => ?_
  refine (arrayOf r).bind fun removed _ => ?_
  refine Agree.seq (Q := fun _ => True) (.forM fun a _ => ?_) (.pure trivial)
  exact (Agree.deref a).bind fun _ _ => .setKey ..

/-- `fill` checks and writes alike. -/
theorem fill (hplace : D.place p.unit c.site.span) :
    D.Keeps p (Evaluator.fill c) fun _ => True :=
  (arrayTarget hplace).bind fun _ _ => (argument c 0).bind fun _ _ =>
    (Agree.setKey ..).seq (.pure trivial)

/-- `concat` makes its array alike. -/
theorem concat (c : CallSite) : D.Keeps p (Evaluator.concat c) fun _ => True :=
  (receiverArrays c).bind fun r _ => (elements r).bind fun _ _ =>
    .get fun _ _ _ => (Agree.derefAll _).bind fun _ _ => arrayOf _

/-- `flat` makes its array alike. -/
theorem flat (c : CallSite) : D.Keeps p (Evaluator.flat c) fun _ => True :=
  (receiverArrays c).bind fun _ _ => .get fun _ _ _ => arrayOf _

/-- A new array of elements and some of the arguments is made alike. -/
theorem copyWith (c : CallSite) (args : List Operand) :
    D.Keeps p (Evaluator.copyWith c args) fun _ => True :=
  (receiverArrays c).bind fun r _ => (elements r).bind fun _ _ =>
    (Agree.derefAll args).bind fun _ _ => arrayOf _

/-- `Object.assign` checks and writes alike. -/
theorem objectAssign (hplace : D.place p.unit c.site.span) :
    D.Keeps p (Evaluator.objectAssign c) fun _ => True := by
  refine (objectTarget hplace).bind fun target _ => ?_
  refine Agree.seq (Q := fun _ => True) (.forM fun a _ => ?_) (.pure trivial)
  exact (Agree.deref a).bind fun r _ => (elements r).bind fun _ _ => .setKey ..

/-- `Object.defineProperty` checks and writes alike. -/
theorem defineProperty (hplace : D.place p.unit c.site.span) :
    D.Keeps p (Evaluator.defineProperty c) fun _ => True :=
  (objectTarget hplace).bind fun _ _ => (argument c 2).bind fun _ _ =>
    (Agree.getKey ..).bind fun _ _ => (Agree.setKey ..).seq (.pure trivial)

/-- `Object.defineProperties` checks and writes alike. -/
theorem defineProperties (hplace : D.place p.unit c.site.span) :
    D.Keeps p (Evaluator.defineProperties c) fun _ => True :=
  (objectTarget hplace).bind fun _ _ => (argument c 1).bind fun r _ => (elements r).bind fun _ _ =>
    (Agree.getKey ..).bind fun _ _ => (Agree.setKey ..).seq (.pure trivial)

/-- `Object.create` makes its object alike. -/
theorem createObject (c : CallSite) : D.Keeps p (Evaluator.createObject c) fun _ => True := by
  unfold Evaluator.createObject
  refine (argument c 0).bind fun r _ => (elements r).bind fun inherited _ => ?_
  cases c.args[1]? with
  | none => exact objectOf _
  | some a =>
    refine (Agree.deref a).bind fun r _ => (elements r).bind fun _ _ => ?_
    exact (Agree.getKey ..).bind fun _ _ => objectOf _

/-- Global constructors and functions are called alike. -/
theorem callIntrinsic (i : Intrinsic) (hplace : D.place p.unit c.site.span) :
    D.Keeps p (Evaluator.callIntrinsic i c) fun _ => True := by
  unfold Evaluator.callIntrinsic
  cases i with
  | eval | function => exact (Agree.report _ hplace).seq (.pure trivial)
  | array => exact (Agree.derefAll _).bind fun r _ => arrayOf r
  | object =>
    refine (Agree.newObject _).bind fun fresh _ => ?_
    cases c.args.head? with
    | none => exact .pure trivial
    | some a => exact (Agree.deref a).bind fun _ _ => .pure trivial
  | unknown name => exact .pure trivial

end

/-! ## Methods that call back -/

section
variable (hE : Agrees D L E E')
include hE

/-- The possibilities of a callee are called alike, if each of the calls is licensed. -/
theorem invokeAll {callee : Reference} {c : CallSite} (h : ∀ v ∈ callee.values, L.call p v c) :
    D.Agree p (E.invokeAll callee c) (E'.invokeAll callee c) fun _ => True :=
  .foldlM fun v hv _ => (hE.invoke (h v hv)).bind fun _ _ => .pure trivial

variable {c : CallSite} (hc : L.Passes p c)
include hc

/-- A callback is not called, or the call ranks below. -/
theorem callback {i : Nat} {args : List Reference}
    (h : (c.arg i).Inert ∨ (c.callback (args.map .known)).rank < c.rank) :
    D.Agree p (E.callback c i args) (E'.callback c i args) fun _ => True := by
  unfold Evaluator.callback
  cases hfn : c.args[i]? with
  | none => exact .pure trivial
  | some fn =>
    have harg : c.arg i = fn := by simp [CallSite.arg, hfn]
    refine (Agree.deref fn).bind fun r hr => hE.invokeAll fun v hv => hc v _ rfl ?_
    rw [harg] at h
    rcases h with h | h
    · cases fn with
      | known r' =>
        rw [hr r' rfl] at hv
        exact .inr (h v hv)
      | thrown => exact h.elim
    · exact .inl h

/-- A callback that is given elements of what the method was read from. -/
theorem callbackOwn {first second : Reference} {rest : List Reference}
    (h₀ : c.receiver = none → (Operand.known first).Inert)
    (h₁ : c.receiver = none → (Operand.known second).Inert) :
    D.Agree p (E.callback c 0 (first :: second :: rest))
      (E'.callback c 0 (first :: second :: rest)) fun _ => True := by
  refine hE.callback hc ?_
  cases hr : c.receiver with
  | some o =>
    refine .inr (Nat.lt_of_le_of_lt (c.rank_callback_le_two _) ?_)
    rw [CallSite.rank_of_receiver hr]
    omega
  | none =>
    refine or_iff_not_imp_left.2 fun hi => ?_
    rw [c.rank_callback_eq_zero ((first :: second :: rest).map .known) (h₀ hr) (h₁ hr)]
    exact CallSite.one_le_rank hi

/-- A callback in second place that is given elements of the first argument. -/
theorem callbackSecond (items : Reference) :
    D.Agree p (E.callback c 1 [items, .anyPrimitive]) (E'.callback c 1 [items, .anyPrimitive])
      fun _ => True := by
  refine hE.callback hc (or_iff_not_imp_left.2 fun hi => ?_)
  have := CallSite.two_le_rank hi
  have := c.rank_callback_le_one ([items, .anyPrimitive].map .known) Operand.inert_anyPrimitive
  omega

/-- A callback on elements is called alike. -/
theorem elementCallback :
    D.Agree p (E.elementCallback c) (E'.elementCallback c) fun _ => True := by
  unfold Evaluator.elementCallback
  refine (receiverArrays c).bind fun arrays ha => (elements arrays).bind fun items hi => ?_
  refine (hE.callbackOwn hc (fun hr => ?_) fun _ => Operand.inert_anyPrimitive).bind
    fun _ _ => .pure trivial
  rw [hi (ha hr)]
  exact Operand.inert_empty

/-- `sort` checks and calls back alike. -/
theorem sort (hplace : D.place p.unit c.site.span) :
    D.Agree p (E.sort c) (E'.sort c) fun _ => True := by
  unfold Evaluator.sort
  refine (arrayTarget hplace).bind fun arrays ha => (elements arrays).bind fun items hi => ?_
  have hinert : c.receiver = none → (Operand.known items).Inert := fun hr =>
    hi (ha hr) ▸ Operand.inert_empty
  exact (hE.callbackOwn hc hinert hinert).seq (.pure trivial)

/-- `toSorted` calls back alike. -/
theorem toSorted : D.Agree p (E.toSorted c) (E'.toSorted c) fun _ => True := by
  unfold Evaluator.toSorted
  refine (receiverArrays c).bind fun arrays ha => (elements arrays).bind fun items hi => ?_
  have hinert : c.receiver = none → (Operand.known items).Inert := fun hr =>
    hi (ha hr) ▸ Operand.inert_empty
  exact (hE.callbackOwn hc hinert hinert).seq (arrayOf items)

/-- `flatMap` calls back alike. -/
theorem flatMap : D.Agree p (E.flatMap c) (E'.flatMap c) fun _ => True := by
  unfold Evaluator.flatMap
  refine (hE.elementCallback hc).bind fun results _ => ?_
  exact (elements _).bind fun _ _ => arrayOf _

/-- The initial value of a reduction is passed on as the first argument, the second being empty
unless there is a receiver. -/
theorem reduce : D.Agree p (E.reduce c) (E'.reduce c) fun _ => True := by
  unfold Evaluator.reduce
  refine (receiverArrays c).bind fun arrays ha => (elements arrays).bind fun items hi => ?_
  have hitems : c.receiver = none → items = .empty := fun hr => hi (ha hr)
  have hend : ∀ start : Reference, (c.receiver = none → (c.arg 1).Inert →
        (Operand.known start).Inert) →
      D.Agree p (do
        let results ← E.callback c 0 [start, items, .anyPrimitive, arrays]
        return results.union start)
      (do
        let results ← E'.callback c 0 [start, items, .anyPrimitive, arrays]
        return results.union start) fun _ => True := by
    intro start hstart
    have hempty : c.receiver = none → (Operand.known items).Inert := fun hr =>
      hitems hr ▸ Operand.inert_empty
    by_cases hinert : c.receiver = none → (c.arg 1).Inert
    · exact (hE.callbackOwn hc (fun hr => hstart hr (hinert hr)) hempty).bind
        fun _ _ => .pure trivial
    · obtain ⟨hr, hone⟩ := Classical.not_imp.1 hinert
      have htwo := CallSite.two_le_rank hone
      have hle := c.rank_callback_le_one ([start, items, .anyPrimitive, arrays].map .known)
        (hempty hr)
      exact (hE.callback hc (.inr (by omega))).bind fun _ _ => .pure trivial
  cases h : c.args[1]? with
  | none => exact hend items fun hr _ => hitems hr ▸ Operand.inert_empty
  | some a =>
    have harg : c.arg 1 = a := by simp [CallSite.arg, h]
    refine (Agree.deref a).bind fun r hr => hend (items.union r) fun hnone hinert => ?_
    rw [harg] at hinert
    cases a with
    | thrown => exact hinert.elim
    | known r' =>
      rw [hr r' rfl, hitems hnone]
      intro v hv
      rcases Reference.mem_union.1 hv with hv | hv
      · exact absurd hv (Reference.not_mem_empty v)
      · exact hinert v hv

/-- `Array.from` calls back alike. -/
theorem arrayFrom : D.Agree p (E.arrayFrom c) (E'.arrayFrom c) fun _ => True := by
  unfold Evaluator.arrayFrom
  refine (argument c 0).bind fun r _ => (elements r).bind fun items _ => ?_
  split
  · exact arrayOf items
  · exact (hE.callbackSecond hc items).bind fun r _ => arrayOf r

/-- `Object.groupBy` calls back alike. -/
theorem groupBy : D.Agree p (E.groupBy c) (E'.groupBy c) fun _ => True := by
  unfold Evaluator.groupBy
  refine (argument c 0).bind fun r _ => (elements r).bind fun items _ => ?_
  exact (hE.callbackSecond hc items).seq ((arrayOf items).bind fun r _ => objectOf r)

/-- The model of every built-in agrees, if the calls it passes on are licensed. -/
theorem model (b : Builtin) (hplace : D.place p.unit c.site.span) :
    D.Agree p (E.model b c) (E'.model b c) fun _ => True := by
  have hmap : ∀ f : Reference × Reference → Run Reference, (∀ r, D.Keeps p (f r) fun _ => True) →
      D.Agree p (do f (← E.elementCallback c)) (do f (← E'.elementCallback c)) fun _ => True :=
    fun f hf => (hE.elementCallback hc).bind fun r _ => hf r
  cases b with
  | arrayPush | arrayUnshift => exact insertElements hplace
  | arrayPop | arrayShift => exact removeElement hplace
  | arraySplice => exact splice hplace
  | arraySort => exact hE.sort hc hplace
  | arrayReverse | arrayCopyWithin => exact (arrayTarget hplace).imp fun _ _ => trivial
  | arrayFill => exact fill hplace
  | arrayMap => exact hmap _ fun r => arrayOf r.2
  | arrayFilter => exact hmap _ fun r => arrayOf r.1
  | arrayForEach | arrayFind | arrayFindLast | arrayFindIndex | arrayFindLastIndex | arrayEvery
  | arraySome => exact hmap _ fun _ => .pure trivial
  | arrayFlatMap => exact hE.flatMap hc
  | arrayReduce | arrayReduceRight => exact hE.reduce hc
  | arraySlice | arrayToReversed | arrayValues => exact ownElements arrayOf
  | arrayConcat => exact concat c
  | arrayFlat => exact flat c
  | arrayToSorted => exact hE.toSorted hc
  | arrayToSpliced => exact copyWith c _
  | arrayWith => exact copyWith c _
  | arrayAt => exact ownElements fun _ => .pure trivial
  | arrayIndexOf | arrayLastIndexOf | arrayJoin | arrayToString | arrayToLocaleString
  | arrayIncludes | arrayIsArray | objectHasOwn | objectIs | objectIsExtensible | objectIsFrozen
  | objectIsSealed => exact .pure trivial
  | arrayEntries => exact ownElements pairsOf
  | arrayKeys | objectKeys | objectGetOwnPropertyNames | objectGetOwnPropertySymbols =>
    exact arrayOf _
  | arrayOf => exact (Agree.derefAll _).bind fun r _ => arrayOf r
  | arrayFrom => exact hE.arrayFrom hc
  | objectAssign => exact objectAssign hplace
  | objectDefineProperty => exact defineProperty hplace
  | objectDefineProperties => exact defineProperties hplace
  | objectFreeze | objectSeal | objectPreventExtensions | objectSetPrototypeOf =>
    exact objectTarget hplace
  | objectValues => exact argumentElements arrayOf
  | objectEntries => exact argumentElements pairsOf
  | objectFromEntries =>
    exact argumentElements fun r => (elements r).bind fun r _ => objectOf r
  | objectGroupBy => exact hE.groupBy hc
  | objectGetOwnPropertyDescriptor =>
    exact argumentElements fun r => (descriptor r).bind fun _ _ => .pure trivial
  | objectGetOwnPropertyDescriptors =>
    exact argumentElements fun r => (descriptor r).bind fun _ _ => objectOf _
  | objectCreate => exact createObject c
  | objectGetPrototypeOf => exact (Agree.report _ hplace).seq (.pure trivial)
  | unknown name => exact Agree.seq .warn (.pure trivial)

/-- A call of a built-in agrees, with the entry of the log before it. -/
theorem callBuiltin (b : Builtin) (hplace : D.place p.unit c.site.span) :
    D.Agree p (E.callBuiltin b c) (E'.callBuiltin b c) fun _ => True := by
  unfold Evaluator.callBuiltin
  split
  · exact hE.model hc _ hplace
  · exact Agree.log.seq (hE.model hc _ hplace)

end

end Evaluator.Agrees

end FrozenGlobals
