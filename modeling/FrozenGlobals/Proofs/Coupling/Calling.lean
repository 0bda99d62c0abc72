import FrozenGlobals.Proofs.Coupling.Writing

/-!
# Coupled native methods

Native methods correspond if the evaluators they call back do.
-/

namespace FrozenGlobals

open Run
open Script (Span Node Expr Pattern Stmt)

namespace Coupling.Sites

variable {A B : Setup} {C : Coupling A B} {w : C.Stage} {c c' : CallSite}

/-- Arguments correspond position by position. -/
theorem argument? (h : C.Sites w c c') (i : Nat) :
    Option.Rel (C.Operands w) c.args[i]? c'.args[i]? := by
  have hargs := h.args
  revert hargs
  generalize c.args = xs
  generalize c'.args = ys
  intro hargs
  induction hargs generalizing i with
  | nil => exact .none
  | cons ho _ ih =>
    cases i with
    | zero => exact .some ho
    | succ i => exact ih i

/-- The arguments at an index correspond, also beyond the last ones. -/
theorem arg (hC : C.Laws) (h : C.Sites w c c') (i : Nat) : C.Operands w (c.arg i) (c'.arg i) := by
  unfold CallSite.arg
  have h := h.argument? i
  revert h
  generalize c.args[i]? = o
  generalize c'.args[i]? = o'
  rintro (ho | _)
  · exact ho
  · exact .primitive hC .undefined

/-- A call at the same place that passes values on. -/
theorem callback (h : C.Sites w c c') {rs rs' : List Reference}
    (hrs : List.Forall₂ (C.ref w) rs rs') :
    C.Sites w (c.callback (rs.map .known)) (c'.callback (rs'.map .known)) where
  site := h.site
  receiver := .none
  args := by
    show List.Forall₂ (C.Operands w) (rs.map .known) (rs'.map .known)
    rw [List.forall₂_map_left_iff, List.forall₂_map_right_iff]
    exact hrs.imp fun _ _ => .known

end Coupling.Sites

namespace Evaluator.Couples

open Coupling

variable {A B : Setup} {C : Coupling A B} {E E' : Evaluator} {u : Nat} {w : C.Stage}
  {c c' : CallSite}

section
variable (hC : C.Laws)
include hC

/-! ## Parts of native calls -/

/-- References that correspond have elements that correspond. -/
theorem elements {r r' : Reference} (h : C.ref w r r') :
    C.Couples u w (Evaluator.elements r) (Evaluator.elements r') C.ref := hC.getKey .any h

/-- New arrays of elements that correspond do so too. -/
theorem arrayOf {r r' : Reference} (h : C.ref w r r') :
    C.Couples u w (Evaluator.arrayOf r) (Evaluator.arrayOf r') C.ref :=
  (hC.newArray h).bind fun _ _ _ _ hv => .pure fun _ hle => hC.ref_single (hC.value_le hle hv)

/-- New objects that hold references that correspond do so too. -/
theorem objectOf {r r' : Reference} (h : C.ref w r r') :
    C.Couples u w (Evaluator.objectOf r) (Evaluator.objectOf r') C.ref :=
  (hC.newObject (hC.cell_wildcard h)).bind fun _ _ _ _ hv =>
    .pure fun _ hle => hC.ref_single (hC.value_le hle hv)

/-- Property descriptors for references that correspond do so too. -/
theorem descriptor {r r' : Reference} (h : C.ref w r r') :
    C.Couples u w (Evaluator.descriptor r) (Evaluator.descriptor r') C.value :=
  hC.newObject (hC.cell_set _ hC.cell_empty h)

variable (hc : C.Sites w c c')
include hc

/-- The arrays that methods were read from correspond. -/
theorem receiverArrays :
    C.Couples u w (Evaluator.receiverArrays c) (Evaluator.receiverArrays c') C.ref := by
  unfold Evaluator.receiverArrays
  have hr := hc.receiver
  revert hr
  generalize c.receiver = o
  generalize c'.receiver = o'
  rintro (ho | _)
  · exact (deref hC ho).bind fun _ _ _ _ hr => .pure fun _ hle => hC.ref_arrays (hC.ref_le hle hr)
  · exact .pure fun _ _ => hC.ref_empty

/-- The arguments stand for references that correspond. -/
theorem argument (i : Nat) :
    C.Couples u w (Evaluator.argument c i) (Evaluator.argument c' i) C.ref :=
  deref hC (hc.arg hC i)

/-- Mutating methods of arrays check arrays that correspond. -/
theorem arrayTarget :
    C.Couples u w (Evaluator.arrayTarget c) (Evaluator.arrayTarget c') C.ref := by
  unfold Evaluator.arrayTarget
  rw [hc.site]
  refine (receiverArrays hC hc).bind fun _ r r' _ hr => ?_
  exact (hC.checkGlobal _ .arrayMethod hr).seq (.pure fun _ hle => hC.ref_le hle hr)

/-- Mutating functions check first arguments that correspond. -/
theorem objectTarget :
    C.Couples u w (Evaluator.objectTarget c) (Evaluator.objectTarget c') C.ref := by
  unfold Evaluator.objectTarget
  rw [hc.site]
  refine (argument hC hc 0).bind fun _ r r' _ hr => ?_
  exact (hC.checkGlobal _ .objectMethod hr).seq (.pure fun _ hle => hC.ref_le hle hr)

/-- The elements of what the method was read from. -/
theorem ownElements :
    C.Couples u w (do Evaluator.elements (← Evaluator.receiverArrays c))
      (do Evaluator.elements (← Evaluator.receiverArrays c')) C.ref :=
  (receiverArrays hC hc).bind fun _ _ _ _ hr => elements hC hr

/-- The elements of an argument. -/
theorem argumentElements (i : Nat) :
    C.Couples u w (do Evaluator.elements (← Evaluator.argument c i))
      (do Evaluator.elements (← Evaluator.argument c' i)) C.ref :=
  (argument hC hc i).bind fun _ _ _ _ hr => elements hC hr

omit hc in
/-- New arrays of pairs correspond. -/
theorem pairsOf {r r' : Reference} (h : C.ref w r r') :
    C.Couples u w (do Evaluator.arrayOf (← Evaluator.arrayOf (Reference.anyPrimitive.union r)))
      (do Evaluator.arrayOf (← Evaluator.arrayOf (Reference.anyPrimitive.union r'))) C.ref :=
  (arrayOf hC (hC.ref_union (hC.ref_primitive .any) h)).bind fun _ _ _ _ hr => arrayOf hC hr

omit hc in
/-- Writes what several operands stand for. -/
theorem setAll {r r' : Reference} (hr : C.ref w r r') {os os' : List Operand}
    (hos : List.Forall₂ (C.Operands w) os os') :
    C.Couples u w (os.forM fun a => do setKey r .any (← Run.deref a))
      (os'.forM fun a => do setKey r' .any (← Run.deref a)) fun _ _ _ => True :=
  .forM hos fun _ _ _ hle _ ho => (deref hC (ho.mono hC hle)).bind fun _ _ _ hle₂ hv =>
    hC.setKey .any (hC.ref_le (C.trans hle hle₂) hr) hv

/-! ## Methods that do not call back -/

/-- `push` and `unshift` write arguments that correspond. -/
theorem insertElements :
    C.Couples u w (Evaluator.insertElements c) (Evaluator.insertElements c') C.ref := by
  refine (arrayTarget hC hc).bind fun w₁ r r' hle hr => ?_
  exact (setAll hC hr (hc.mono hC hle).args).seq (.pure fun _ _ => hC.ref_primitive .any)

/-- `pop` and `shift` yield elements that correspond. -/
theorem removeElement :
    C.Couples u w (Evaluator.removeElement c) (Evaluator.removeElement c') C.ref := by
  refine (arrayTarget hC hc).bind fun _ _ _ _ hr => (elements hC hr).bind fun _ _ _ _ he => ?_
  exact .pure fun _ hle => hC.ref_union (hC.ref_le hle he) (hC.ref_primitive .undefined)

/-- `splice` yields and writes elements that correspond. -/
theorem splice : C.Couples u w (Evaluator.splice c) (Evaluator.splice c') C.ref := by
  refine (arrayTarget hC hc).bind fun w₁ r r' hle hr => ?_
  refine (elements hC hr).bind fun w₂ q q' hle₂ hq => ?_
  refine (arrayOf hC hq).bind fun w₃ removed removed' hle₃ hremoved => ?_
  have hle₃' := C.trans hle₂ hle₃
  refine (setAll hC (hC.ref_le hle₃' hr) ?_).seq (.pure fun _ hle₄ => hC.ref_le hle₄ hremoved)
  exact List.forall₂_drop 2 (hc.mono hC (C.trans hle hle₃')).args

/-- `fill` writes first arguments that correspond. -/
theorem fill : C.Couples u w (Evaluator.fill c) (Evaluator.fill c') C.ref := by
  refine (arrayTarget hC hc).bind fun w₁ r r' hle hr => ?_
  refine (argument hC (hc.mono hC hle) 0).bind fun w₂ v v' hle₂ hv => ?_
  have hr := hC.ref_le hle₂ hr
  exact (hC.setKey .any hr hv).seq (.pure fun _ hle₃ => hC.ref_le hle₃ hr)

/-- New arrays of elements and some of the arguments correspond. -/
theorem copyWith {os os' : List Operand} (hos : List.Forall₂ (C.Operands w) os os') :
    C.Couples u w (Evaluator.copyWith c os) (Evaluator.copyWith c' os') C.ref := by
  refine (receiverArrays hC hc).bind fun w₁ r r' hle hr => ?_
  refine (elements hC hr).bind fun w₂ q q' hle₂ hq => ?_
  refine (derefAll hC (hos.imp fun _ _ => .mono hC (C.trans hle hle₂))).bind
    fun w₃ p p' hle₃ hp => ?_
  exact arrayOf hC (hC.ref_union (hC.ref_le hle₃ hq) hp)

/-- `Object.assign` writes what sources that correspond hold. -/
theorem objectAssign :
    C.Couples u w (Evaluator.objectAssign c) (Evaluator.objectAssign c') C.ref := by
  refine (objectTarget hC hc).bind fun w₁ r r' hle hr => ?_
  refine Coupling.Couples.seq (Q := fun _ _ _ => True) ?_ (.pure fun _ hle₂ => hC.ref_le hle₂ hr)
  refine .forM (List.forall₂_drop 1 (hc.mono hC hle).args) fun w₂ o o' hle₂ _ ho => ?_
  refine (deref hC (ho.mono hC hle₂)).bind fun w₃ q q' hle₃ hq => ?_
  refine (elements hC hq).bind fun w₄ v v' hle₄ hv => ?_
  exact hC.setKey .any (hC.ref_le (C.trans hle₂ (C.trans hle₃ hle₄)) hr) hv

/-- `Object.defineProperty` writes what descriptors that correspond hold. -/
theorem defineProperty :
    C.Couples u w (Evaluator.defineProperty c) (Evaluator.defineProperty c') C.ref := by
  refine (objectTarget hC hc).bind fun w₁ r r' hle hr => ?_
  refine (argument hC (hc.mono hC hle) 2).bind fun w₂ d d' hle₂ hd => ?_
  refine (hC.getKey (.name "value") hd).bind fun w₃ v v' hle₃ hv => ?_
  have hr := hC.ref_le (C.trans hle₂ hle₃) hr
  exact (hC.setKey .any hr hv).seq (.pure fun _ hle₄ => hC.ref_le hle₄ hr)

/-- `Object.defineProperties` writes what descriptors that correspond hold. -/
theorem defineProperties :
    C.Couples u w (Evaluator.defineProperties c) (Evaluator.defineProperties c') C.ref := by
  refine (objectTarget hC hc).bind fun w₁ r r' hle hr => ?_
  refine (argument hC (hc.mono hC hle) 1).bind fun w₂ d d' hle₂ hd => ?_
  refine (elements hC hd).bind fun w₃ e e' hle₃ he => ?_
  refine (hC.getKey (.name "value") he).bind fun w₄ v v' hle₄ hv => ?_
  have hr := hC.ref_le (C.trans hle₂ (C.trans hle₃ hle₄)) hr
  exact (hC.setKey .any hr hv).seq (.pure fun _ hle₅ => hC.ref_le hle₅ hr)

/-- `Object.create` makes objects that correspond. -/
theorem createObject :
    C.Couples u w (Evaluator.createObject c) (Evaluator.createObject c') C.ref := by
  unfold Evaluator.createObject
  refine (argument hC hc 0).bind fun w₁ r r' hle hr => ?_
  refine (elements hC hr).bind fun w₂ inherited inherited' hle₂ hi => ?_
  have h := (hc.mono hC (C.trans hle hle₂)).argument? 1
  revert h
  generalize c.args[1]? = o
  generalize c'.args[1]? = o'
  rintro (ho | _)
  · refine (deref hC ho).bind fun w₃ d d' hle₃ hd => (elements hC hd).bind fun w₄ e e' hle₄ he => ?_
    refine (hC.getKey (.name "value") he).bind fun w₅ own own' hle₅ hown => ?_
    exact objectOf hC (hC.ref_union (hC.ref_le (C.trans hle₃ (C.trans hle₄ hle₅)) hi) hown)
  · simp only [pure_bind]
    exact objectOf hC (hC.ref_union hi hC.ref_empty)

/-- A global constructor. -/
theorem callIntrinsic (i : Intrinsic) :
    C.Couples u w (Evaluator.callIntrinsic i c) (Evaluator.callIntrinsic i c') C.ref := by
  cases i with
  | eval =>
    unfold Evaluator.callIntrinsic
    rw [hc.site]
    exact (hC.report _ _).seq (.pure fun _ _ => hC.ref_empty)
  | function =>
    unfold Evaluator.callIntrinsic
    rw [hc.site]
    exact (hC.report _ _).seq (.pure fun _ _ => hC.ref_empty)
  | array => exact (derefAll hC hc.args).bind fun _ _ _ _ hr => arrayOf hC hr
  | object =>
    unfold Evaluator.callIntrinsic
    refine (hC.newObject hC.cell_empty).bind fun w₁ v v' hle hv => ?_
    have h := (hc.mono hC hle).args
    revert h
    generalize c.args = xs
    generalize c'.args = ys
    intro h
    cases h with
    | nil =>
      exact .pure fun w₂ hle₂ => hC.ref_union (hC.ref_single (hC.value_le hle₂ hv))
        (hC.ref_containers hC.ref_empty)
    | cons ho _ =>
      refine (deref hC ho).bind fun w₂ r r' hle₂ hr => .pure fun w₃ hle₃ => ?_
      exact hC.ref_union (hC.ref_single (hC.value_le (C.trans hle₂ hle₃) hv))
        (hC.ref_containers (hC.ref_le hle₃ hr))
  | unknown code => exact .pure fun _ _ => hC.ref_empty

/-! ## Methods that call back -/

variable (hE : E.Couples C E')
include hE

/-- Callbacks that correspond are called with references that do. -/
theorem callback (i : Nat) {rs rs' : List Reference} (hrs : List.Forall₂ (C.ref w) rs rs') :
    C.Couples u w (E.callback c i rs) (E'.callback c' i rs') C.ref := by
  unfold Evaluator.callback
  have h := hc.argument? i
  revert h
  generalize c.args[i]? = o
  generalize c'.args[i]? = o'
  rintro (ho | _)
  · refine (deref hC ho).bind fun w₁ f f' hle hf => ?_
    exact hC.invokeAll hE hf ((hc.mono hC hle).callback (hrs.imp fun _ _ => hC.ref_le hle))
  · exact .pure fun _ _ => hC.ref_empty

/-- Callbacks are given elements that correspond, and what they return corresponds. -/
theorem elementCallback :
    C.Couples u w (E.elementCallback c) (E'.elementCallback c') fun w p p' =>
      C.ref w p.1 p'.1 ∧ C.ref w p.2 p'.2 := by
  refine (receiverArrays hC hc).bind fun w₁ r r' hle hr => ?_
  refine (elements hC hr).bind fun w₂ e e' hle₂ he => ?_
  refine (callback hC (hc.mono hC (C.trans hle hle₂)) hE 0
    (.cons he (.cons (hC.ref_primitive .any) (.cons (hC.ref_le hle₂ hr) .nil)))).bind
    fun w₃ q q' hle₃ hq => ?_
  exact .pure fun w₄ hle₄ => ⟨hC.ref_le (C.trans hle₃ hle₄) he, hC.ref_le hle₄ hq⟩

/-- `sort` checks and calls back alike. -/
theorem sort : C.Couples u w (E.sort c) (E'.sort c') C.ref := by
  refine (arrayTarget hC hc).bind fun w₁ r r' hle hr => ?_
  refine (elements hC hr).bind fun w₂ e e' hle₂ he => ?_
  refine (callback hC (hc.mono hC (C.trans hle hle₂)) hE 0 (.cons he (.cons he .nil))).seq ?_
  exact .pure fun w₃ hle₃ => hC.ref_le (C.trans hle₂ hle₃) hr

/-- `flatMap` collects results that correspond. -/
theorem flatMap : C.Couples u w (E.flatMap c) (E'.flatMap c') C.ref := by
  refine (elementCallback hC hc hE).bind fun w₁ p p' hle hp => ?_
  refine (elements hC (hC.ref_arrays hp.2)).bind fun w₂ e e' hle₂ he => ?_
  exact arrayOf hC (hC.ref_union (hC.ref_le hle₂ hp.2) he)

/-- `reduce` calls back with references that correspond. -/
theorem reduce : C.Couples u w (E.reduce c) (E'.reduce c') C.ref := by
  unfold Evaluator.reduce
  refine (receiverArrays hC hc).bind fun w₁ r r' hle hr => ?_
  refine (elements hC hr).bind fun w₂ e e' hle₂ he => ?_
  have hend : ∀ {w₃ start start'}, C.le w₂ w₃ → C.ref w₃ start start' → C.Couples u w₃
      (do
        let results ← E.callback c 0 [start, e, .anyPrimitive, r]
        return results.union start)
      (do
        let results ← E'.callback c' 0 [start', e', .anyPrimitive, r']
        return results.union start') C.ref := by
    intro w₃ start start' hle₃ hs
    refine (callback hC (hc.mono hC (C.trans hle (C.trans hle₂ hle₃))) hE 0 (.cons hs
      (.cons (hC.ref_le hle₃ he) (.cons (hC.ref_primitive .any)
        (.cons (hC.ref_le (C.trans hle₂ hle₃) hr) .nil))))).bind fun w₄ q q' hle₄ hq => ?_
    exact .pure fun w₅ hle₅ =>
      hC.ref_union (hC.ref_le hle₅ hq) (hC.ref_le (C.trans hle₄ hle₅) hs)
  have h := (hc.mono hC (C.trans hle hle₂)).argument? 1
  revert h
  generalize c.args[1]? = o
  generalize c'.args[1]? = o'
  rintro (ho | _)
  · simp only [pure_bind]
    exact (deref hC ho).bind fun w₃ s s' hle₃ hs =>
      hend hle₃ (hC.ref_union (hC.ref_le hle₃ he) hs)
  · simp only [pure_bind]
    exact hend (C.refl _) he

/-- `toSorted` calls back alike and makes arrays that correspond. -/
theorem toSorted : C.Couples u w (E.toSorted c) (E'.toSorted c') C.ref := by
  refine (receiverArrays hC hc).bind fun w₁ r r' hle hr => ?_
  refine (elements hC hr).bind fun w₂ e e' hle₂ he => ?_
  refine (callback hC (hc.mono hC (C.trans hle hle₂)) hE 0 (.cons he (.cons he .nil))).seq ?_
  exact arrayOf hC he

/-- `Array.from` calls back alike and makes arrays that correspond. -/
theorem arrayFrom : C.Couples u w (E.arrayFrom c) (E'.arrayFrom c') C.ref := by
  unfold Evaluator.arrayFrom
  rw [← hc.args.length_eq]
  refine (argument hC hc 0).bind fun w₁ r r' hle hr => ?_
  refine (elements hC hr).bind fun w₂ e e' hle₂ he => ?_
  split
  · exact arrayOf hC he
  · refine (callback hC (hc.mono hC (C.trans hle hle₂)) hE 1
      (.cons he (.cons (hC.ref_primitive .any) .nil))).bind fun _ _ _ _ hq => arrayOf hC hq

/-- `Object.groupBy` calls back alike and makes objects that correspond. -/
theorem groupBy : C.Couples u w (E.groupBy c) (E'.groupBy c') C.ref := by
  refine (argument hC hc 0).bind fun w₁ r r' hle hr => ?_
  refine (elements hC hr).bind fun w₂ e e' hle₂ he => ?_
  refine (callback hC (hc.mono hC (C.trans hle hle₂)) hE 1
    (.cons he (.cons (hC.ref_primitive .any) .nil))).seq ?_
  exact (arrayOf hC he).bind fun _ _ _ _ hq => objectOf hC hq

/-! ## Dispatch -/

/-- The models of every built-in correspond. -/
theorem model (b : Builtin) : C.Couples u w (E.model b c) (E'.model b c') C.ref := by
  have hown {f f' : Reference → Run Reference}
      (hf : ∀ {w₁ r r'}, C.ref w₁ r r' → C.Couples u w₁ (f r) (f' r') C.ref) :
      C.Couples u w (do f (← Evaluator.elements (← Evaluator.receiverArrays c)))
        (do f' (← Evaluator.elements (← Evaluator.receiverArrays c'))) C.ref :=
    (receiverArrays hC hc).bind fun _ _ _ _ hr => (elements hC hr).bind fun _ _ _ _ he => hf he
  have hfirst {f f' : Reference → Run Reference}
      (hf : ∀ {w₁ r r'}, C.ref w₁ r r' → C.Couples u w₁ (f r) (f' r') C.ref) :
      C.Couples u w (do f (← Evaluator.elements (← Evaluator.argument c 0)))
        (do f' (← Evaluator.elements (← Evaluator.argument c' 0))) C.ref :=
    (argument hC hc 0).bind fun _ _ _ _ hr => (elements hC hr).bind fun _ _ _ _ he => hf he
  have hback {f f' : Reference × Reference → Run Reference}
      (hf : ∀ {w₁ p p'}, C.ref w₁ p.1 p'.1 ∧ C.ref w₁ p.2 p'.2 →
        C.Couples u w₁ (f p) (f' p') C.ref) :
      C.Couples u w (do f (← E.elementCallback c)) (do f' (← E'.elementCallback c')) C.ref :=
    (elementCallback hC hc hE).bind fun _ _ _ _ hp => hf hp
  have hpure {r : Reference} (hr : ∀ {w₁}, C.ref w₁ r r) :
      C.Couples u w (return r) (return r) C.ref := .pure fun _ _ => hr
  cases b with
  | arrayPush | arrayUnshift => exact insertElements hC hc
  | arrayPop | arrayShift => exact removeElement hC hc
  | arraySplice => exact splice hC hc
  | arraySort => exact sort hC hc hE
  | arrayReverse | arrayCopyWithin => exact arrayTarget hC hc
  | arrayFill => exact fill hC hc
  | arrayMap => exact hback fun hp => arrayOf hC hp.2
  | arrayFilter => exact hback fun hp => arrayOf hC hp.1
  | arrayForEach => exact hback fun _ => .pure fun _ _ => hC.ref_empty
  | arrayFind | arrayFindLast => exact hback fun hp => .pure fun _ hle => hC.ref_le hle hp.1
  | arrayFindIndex | arrayFindLastIndex =>
    exact hback fun _ => .pure fun _ _ =>
      hC.ref_union (hC.ref_primitive .undefined) (hC.ref_primitive .any)
  | arrayEvery | arraySome => exact hback fun _ => .pure fun _ _ => hC.ref_boolean
  | arrayFlatMap => exact flatMap hC hc hE
  | arrayReduce | arrayReduceRight => exact reduce hC hc hE
  | arraySlice | arrayToReversed | arrayValues => exact hown fun he => arrayOf hC he
  | arrayConcat => exact hC.concat hc
  | arrayFlat => exact hC.flat hc
  | arrayToSorted => exact toSorted hC hc hE
  | arrayToSpliced => exact copyWith hC hc (List.forall₂_drop 2 hc.args)
  | arrayWith => exact copyWith hC hc (List.forall₂_take 1 (List.forall₂_drop 1 hc.args))
  | arrayAt =>
    exact hown fun he => .pure fun _ hle =>
      hC.ref_union (hC.ref_le hle he) (hC.ref_primitive .undefined)
  | arrayIndexOf | arrayLastIndexOf | arrayJoin | arrayToString | arrayToLocaleString =>
    exact hpure (hC.ref_primitive .any)
  | arrayIncludes | arrayIsArray | objectHasOwn | objectIs | objectIsExtensible | objectIsFrozen
  | objectIsSealed => exact hpure hC.ref_boolean
  | arrayEntries => exact hown fun he => pairsOf hC he
  | arrayKeys | objectKeys | objectGetOwnPropertyNames | objectGetOwnPropertySymbols =>
    exact arrayOf hC (hC.ref_primitive .any)
  | arrayOf => exact (derefAll hC hc.args).bind fun _ _ _ _ hr => arrayOf hC hr
  | arrayFrom => exact arrayFrom hC hc hE
  | objectAssign => exact objectAssign hC hc
  | objectDefineProperty => exact defineProperty hC hc
  | objectDefineProperties => exact defineProperties hC hc
  | objectFreeze | objectSeal | objectPreventExtensions | objectSetPrototypeOf =>
    exact objectTarget hC hc
  | objectValues => exact hfirst fun he => arrayOf hC he
  | objectEntries => exact hfirst fun he => pairsOf hC he
  | objectFromEntries =>
    exact hfirst fun he => (elements hC he).bind fun _ _ _ _ hq => objectOf hC hq
  | objectGroupBy => exact groupBy hC hc hE
  | objectGetOwnPropertyDescriptor =>
    exact hfirst fun he => (descriptor hC he).bind fun _ _ _ _ hv => .pure fun _ hle =>
      hC.ref_insert (hC.ref_primitive .undefined) (hC.value_le hle hv)
  | objectGetOwnPropertyDescriptors =>
    exact hfirst fun he => (descriptor hC he).bind fun _ _ _ _ hv => objectOf hC (hC.ref_single hv)
  | objectCreate => exact createObject hC hc
  | objectGetPrototypeOf =>
    unfold Evaluator.model
    rw [hc.site]
    exact (hC.report _ _).seq (.pure fun _ _ => hC.ref_empty)
  | unknown code =>
    unfold Evaluator.model
    rw [hc.site]
    exact (hC.warn _).seq (.pure fun _ _ => hC.ref_empty)

/-- Calls of every built-in correspond, with their entries in the log. -/
theorem callBuiltin (b : Builtin) :
    C.Couples u w (E.callBuiltin b c) (E'.callBuiltin b c') C.ref := by
  have h := model (u := u) hC hc hE b
  cases b with
  | unknown code => exact h
  | _ => exact (hC.log ..).seq h

end

end Evaluator.Couples

end FrozenGlobals
