import FrozenGlobals.Analysis
import FrozenGlobals.Proofs.Analysis.Calling

/-!
# Traces of evaluations

Every step of the evaluation is traced if the evaluator one level below is, and so every evaluator
is (`Evaluator.isTraced_ofFuel`), by induction on its levels. `Setup.runs_of_ends` says it of whole
analyses: whatever the program, the globals, the options and the callbacks, and however the analysis
ends, its final state is reached by a run from the empty world.
-/

namespace FrozenGlobals

open Run World

namespace Evaluator.IsTraced

section
variable {setup : Setup} (hg : setup.graph.Grounded) {E : Evaluator} (hE : E.IsTraced setup)
  {w : World} {stack : Stack}
include hg

/-! ## Functions -/

/-- Whether a call is followed is decided without touching the heap. -/
theorem admits (fn : Closure) (site : Site) :
    Traced setup w (Evaluator.admits fn site) fun _ _ => True := by
  have hwarn : ∀ (w' : World) (warned : Bool) (f : State → State) (message : String),
      (∀ s : State, s.Checks [] (f s)) → Traced setup w' (do
        unless warned do
          modify f
          warn message
        return false) fun _ _ => True := by
    intro w' warned f message hf
    cases warned with
    | true => exact .pure fun _ => trivial
    | false =>
      exact (Traced.bookkeeping (hf _)).seq hg fun _ _ _ =>
        (Traced.warn hg).seq hg fun _ _ _ => .pure fun _ => trivial
  unfold Evaluator.admits
  rw [traced_read_bind, traced_get_bind]
  dsimp only
  split <;> split
  case isTrue.isTrue =>
    exact Traced.log.seq hg fun _ _ _ => hwarn _ _ _ _ fun s => ⟨rfl, rfl, rfl, rfl, by simp⟩
  case isFalse.isTrue => exact .throw_bind
  -- below the ceiling it depends on how often the function was entered again
  all_goals
    split
    · exact .pure fun _ => trivial
    · split
      · exact hwarn _ _ _ _ fun s => ⟨rfl, rfl, rfl, rfl, by simp⟩
      · exact .pure fun _ => trivial

include hE

/-- Parameters are bound in the frame made for them, defaults evaluated in the order of the
parameters. -/
theorem bindItems {frame : Nat} {rest : Stack} (items : List Script.Binding) :
    ∀ {w : World} {args : List Operand}, w.Scope (frame :: rest) → (∀ o ∈ args, w.Has o) →
      Traced setup w (E.bindItems frame (frame :: rest) items args) fun w' left =>
        ∀ o ∈ left, w'.Has o := by
  induction items with
  | nil => exact fun _ ha => .pure fun _ => ha
  | cons b items ih =>
    intro w args hs ha
    have hrest : ∀ w', w.Le w' → Traced setup w' (E.bindItems frame (frame :: rest) items
        (args.drop 1)) fun w' left => ∀ o ∈ left, w'.Has o := fun w' hle =>
      ih (hs.mono hle) fun o ho => (ha o (List.mem_of_mem_drop ho)).mono hle
    have hname : ∀ (w' : World) (value : Operand) (id : Script.Identifier), w.Le w' →
        w'.Has value → Traced setup w' (do
          define frame id.name value
          E.bindItems frame (frame :: rest) items (args.drop 1))
          fun w' left => ∀ o ∈ left, w'.Has o := by
      intro w' value id hle hv
      obtain ⟨_, _, heq, hf⟩ := (hs.mono hle).cons
      cases heq
      exact (Traced.define hf hv).seq hg fun _ hle' _ => hrest _ (hle.trans hle')
    have hpattern : ∀ (w' : World) (value : Operand) (target : Script.Pattern), w.Le w' →
        w'.Has value → Traced setup w' (do
          unsupported .paramBinding target.kind target.span
          E.bind .lexical target value (frame :: rest)
          E.bindItems frame (frame :: rest) items (args.drop 1))
          fun w' left => ∀ o ∈ left, w'.Has o := by
      intro w' value target hle hv
      refine (Traced.unsupported hg).seq hg fun w₁ hle₁ _ => ?_
      refine (hE.bind (hs.mono (hle.trans hle₁)) (hv.mono hle₁)).seq hg fun w₂ hle₂ _ => ?_
      exact hrest _ ((hle.trans hle₁).trans hle₂)
    have hpassed : w.Has (args.head?.getD (.known .undefined)) := by
      cases args with
      | nil => exact HasRef.undefined
      | cons o args => exact ha o (by simp)
    unfold Evaluator.bindItems
    dsimp only
    split
    · rw [traced_pure_bind]
      split
      · exact hname w _ _ (.refl w) hpassed
      · exact hpattern w _ _ (.refl w) hpassed
    · refine (hE.resolve hs).bind hg fun w' o hle hok ho => ?_
      rw [traced_deref_bind, traced_deref_bind, traced_pure_bind]
      have hboth := HasRef.union (hok.now (hpassed.mono hle)) (hok.now ho)
      split
      · exact hname w' _ _ hle hboth
      · exact hpattern w' _ _ hle hboth

/-- Binding parameters makes a frame of a program, in which the body can be run. -/
theorem bindParams (self : Nat) {fn : Closure} (hs : w.Scope fn.scope) (code : Code)
    {args : List Operand} (ha : ∀ o ∈ args, w.Has o) :
    Traced setup w (E.bindParams (.function self) fn code args) Scope := by
  unfold Evaluator.bindParams
  refine (Traced.newFrame fun _ _ hb => (List.not_mem_nil hb).elim).bind hg
    fun w₁ frame hle₁ _ hf => ?_
  have hscope : w₁.Scope (frame :: fn.scope) := (hs.mono hle₁).outer.push hf
  have hdefine : ∀ {w' : World} {name : String} {r : Reference}, w₁.Le w' → w'.HasRef r →
      Traced setup w' (define frame name (.known r)) fun _ _ => True := by
    intro w' name r hle hr
    obtain ⟨_, _, heq, hnot⟩ := (hscope.mono hle).cons
    cases heq
    exact .define hnot hr
  have hcollect : ∀ {w' : World} (name : String) {os : List Operand}, w₁.Le w' →
      (∀ o ∈ os, w'.Has o) → Traced setup w'
        (do define frame name (.known (← Evaluator.arrayOf (← derefAll os)))) fun _ _ => True := by
    intro w' name os hle hos
    refine .ok fun hw => ?_
    rw [traced_derefAll_bind]
    exact (Traced.arrayOf hg fun _ => hw.unionAll_now hos).bind hg fun _ _ hle' _ hr =>
      hdefine (hle.trans hle') hr
  have hargs : ∀ w', w₁.Le w' → Traced setup w'
      (do define frame "arguments" (.known (← Evaluator.arrayOf (← derefAll args))))
      fun _ _ => True := fun w' hle => hcollect _ hle fun o ho => (ha o ho).mono (hle₁.trans hle)
  -- what is left to do once the parameters with a place of their own are bound
  suffices hall : ∀ rest : List Operand → Run Stack,
      (∀ w₂ left, w₁.Le w₂ → (∀ o ∈ left, w₂.Has o) → Traced setup w₂ (rest left) Scope) →
      Traced setup w₁ (do
        unless code.literal.isArrow do
          unless fn.name.isEmpty do define frame fn.name (.known (.single (.function self)))
          define frame "arguments" (.known (← Evaluator.arrayOf (← derefAll args)))
        let left ← E.bindItems frame (frame :: fn.scope) code.literal.params.items args
        rest left) Scope by
    refine hall _ fun w₂ left hle₂ hleft => ?_
    have hend : ∀ w₃, w₂.Le w₃ → Traced setup w₃ (Pure.pure (frame :: fn.scope)) Scope :=
      fun w₃ hle₃ => .pure fun _ => hscope.mono (hle₂.trans hle₃)
    split
    · exact hend _ (.refl _)
    · next id _ =>
      have := (hcollect id.name hle₂ hleft).seq hg fun w₃ hle₃ _ => hend w₃ hle₃
      simpa only [bind_assoc] using this
    · exact (Traced.unsupported hg).seq hg fun w₃ hle₃ _ => hend w₃ hle₃
  intro rest hrest
  have hitems : ∀ w', w₁.Le w' → Traced setup w'
      (E.bindItems frame (frame :: fn.scope) code.literal.params.items args >>= rest) Scope :=
    fun w' hle => (hE.bindItems hg _ (hscope.mono hle) fun o ho =>
      (ha o ho).mono (hle₁.trans hle)).bind hg fun w₂ left hle₂ _ hleft =>
        hrest w₂ left (hle.trans hle₂) hleft
  dsimp only
  by_cases harrow : code.literal.isArrow = true
  · rw [if_pos harrow]
    exact hitems _ (.refl _)
  · rw [if_neg harrow]
    by_cases hname : fn.name.isEmpty = true
    · rw [if_pos hname]
      have := (hargs _ (.refl _)).seq hg fun w' hle _ => hitems w' hle
      simp only [bind_assoc] at this
      exact this
    · rw [if_neg hname]
      refine (hdefine (.refl _) (HasRef.single exists_function)).seq hg fun w₂ hle₂ _ => ?_
      have := (hargs w₂ hle₂).seq hg fun w' hle _ => hitems w' (hle₂.trans hle)
      simp only [bind_assoc] at this
      exact this

/-- The body of a function is traced in the frame of its call. -/
theorem runBody (hs : w.Scope stack) (code : Code) :
    Traced setup w (E.runBody code stack) HasRef := by
  unfold Evaluator.runBody
  split
  · exact hE.walkBlock hg hs false _
  · exact hE.value hg hs _

/-- A call of a function is traced, whether it is followed or skipped. -/
theorem callFunction (id : Nat) {c : CallSite} (hc : w.HasCall c) :
    Traced setup w (E.callFunction id c) HasRef := by
  unfold Evaluator.callFunction
  refine Traced.checkCanceled.seq hg fun w₁ h₁ hok => ?_
  rw [traced_get_bind]
  split
  · exact .pure fun _ => .empty
  · next fn hfn =>
    refine (admits hg fn c.site).bind hg fun w₂ b h₂ _ _ => ?_
    split
    · rw [traced_mapM_deref_bind, traced_read_bind]
      refine Traced.log.seq hg fun w₃ h₃ _ => ?_
      split
      · exact .pure fun _ => .empty
      · next code _ =>
        rw [traced_get_bind]
        have hrun : Traced setup w₃ (counted fn.key (inUnit code.unit do
            E.runBody code (← E.bindParams (.function id) fn code c.args))) HasRef := by
          refine .counted hg (fun hle h => h.mono hle) fun w₄ h₄ _ => ?_
          refine .inUnit hg (fun hle h => h.mono hle) fun w₅ h₅ _ => ?_
          have hle := (((h₁.trans h₂).trans h₃).trans h₄).trans h₅
          have hscope := (hok.closures id fn hfn).mono (((h₂.trans h₃).trans h₄).trans h₅)
          exact (hE.bindParams hg id hscope code fun o ho => (hc.2 o ho).mono hle).bind hg
            fun _ _ _ _ hs => hE.runBody hg hs code
        split
        · exact hrun
        · exact hrun
    · exact .pure fun _ => .empty

/-- A call of any value is traced. -/
theorem invokeStep (v : Value) {c : CallSite} (hc : w.HasCall c) :
    Traced setup w (E.invokeStep v c) HasRef := by
  unfold Evaluator.invokeStep
  split
  · exact .callIntrinsic hg hc _
  · exact hE.callBuiltin hg hc _
  · exact hE.callFunction hg _ hc
  · exact .pure fun _ => .empty

/-! ## External code -/

/-- External code runs on a frame of globals of its own. -/
theorem runImplementation {c : CallSite} (hc : w.HasCall c) (index : Nat) (impl : Implementation) :
    Traced setup w (E.runImplementation c index impl) HasRef := by
  unfold Evaluator.runImplementation
  split
  · exact .throw
  · refine Traced.newGlobals.bind hg fun w₁ frame h₁ _ hf => ?_
    refine (hE.runProgram hg hf _).bind hg fun w₂ r h₂ _ _ => ?_
    exact hE.invokeAll hg (hc.callback.mono (h₁.trans h₂)) r

/-- The implementations found for a path are traced, one after another. -/
theorem followCallbacks (resolver : Resolver) (path : Path) {c : CallSite} (hc : w.HasCall c) :
    Traced setup w (E.followCallbacks resolver path c) HasRef := by
  unfold Evaluator.followCallbacks
  refine .within ?_
  refine (Traced.bookkeeping ⟨rfl, rfl, rfl, rfl, by simp⟩).seq hg fun w₁ h₁ _ => ?_
  split
  · exact .throw
  · exact .pure fun _ => .empty
  · refine Traced.log.seq hg fun w₂ h₂ _ => ?_
    show Traced setup w₂ (get >>= fun s => _) _
    rw [traced_get_bind]
    refine .anchored hg (fun hle h => h.mono hle) fun w₃ h₃ _ => ?_
    refine .foldlM hg HasRef.empty fun p _ w₄ h₄ _ r hr => ?_
    have hle := ((h₁.trans h₂).trans h₃).trans h₄
    exact (hE.runImplementation hg (hc.mono hle) _ _).bind hg fun _ _ hle' _ hs' =>
      .pure fun _ => .union (hr.mono hle') hs'

/-! ## Call expressions -/

/-- The callee and its receiver exist, as does the key it was read with. -/
theorem calleeOf (hs : w.Scope stack) (callee : Script.Expr) :
    Traced setup w (E.calleeOf callee stack) fun w' p =>
      w'.Has p.1 ∧ ∀ q, p.2 = some q → w'.Has q.1 := by
  unfold Evaluator.calleeOf
  have hmember : ∀ member : Script.Expr, Traced setup w (do
      let p ← E.memberTarget member stack
      return (← E.readMember p.1 p.2 (.ofExpr member), some p))
      fun w' p => w'.Has p.1 ∧ ∀ q, p.2 = some q → w'.Has q.1 := by
    intro member
    refine (hE.memberTarget hg hs member).bind hg fun w₁ p _ _ hp => ?_
    refine (hE.readMember hg hp p.2 _).bind hg fun w₂ o hle _ ho => .pure fun _ => ⟨ho, ?_⟩
    intro q hq
    cases hq
    exact hp.mono hle
  split
  · exact hmember _
  · exact hmember _
  · exact (hE.resolve hs).bind hg fun _ _ _ _ ho => .pure fun _ => ⟨ho, fun _ h => by cases h⟩

/-- Arguments exist, those after a spread folded into one. -/
theorem arguments {callee : Operand} : ∀ (args : List Script.Expr) (tail : Option Reference)
    {w : World}, w.Scope stack → (∀ r, tail = some r → w.HasRef r) →
    Traced setup w (E.arguments callee stack args tail) fun w' os => ∀ o ∈ os, w'.Has o := by
  intro args tail
  fun_induction Evaluator.arguments E callee stack args tail with
  | case1 => exact fun _ _ => .pure fun _ o ho => by cases ho
  | case2 tail =>
    intro w _ ht
    refine .pure fun _ o ho => ?_
    rw [List.eq_of_mem_replicate ho]
    exact ht tail rfl
  | case3 inner rest tail ih =>
    intro w hs ht
    refine (hE.resolve hs).bind hg fun w₁ source h₁ _ _ => ?_
    rw [traced_deref_bind]
    have hrest : ∀ w₂, w₁.Le w₂ → w₂.Ok setup → Traced setup w₂ (do
        let items ← Evaluator.elements (← deref source)
        E.arguments callee stack rest (some ((tail.getD .empty).union items)))
        fun w' os => ∀ o ∈ os, w'.Has o := by
      intro w₂ h₂ hok
      rw [traced_deref_bind, traced_elements_bind]
      refine ih _ (hs.mono (h₁.trans h₂)) fun r hr => ?_
      cases hr
      refine .union ?_ (hok.getKey _ .any)
      cases tail with
      | none => exact .empty
      | some r => exact (ht r rfl).mono (h₁.trans h₂)
    split
    · exact .ok fun hok => hrest _ (.refl _) hok
    · exact (Traced.unsupported hg).seq hg hrest
  | case4 e rest hne ih =>
    intro w hs ht
    refine (hE.resolve hs).bind hg fun w₁ o h₁ _ ho => ?_
    refine (ih (hs.mono h₁) nofun).bind hg fun w₂ os h₂ _ hos => .pure fun _ o' ho' => ?_
    rcases List.mem_cons.1 ho' with rfl | ho'
    · exact ho.mono h₂
    · exact hos o' ho'
  | case5 e rest tail hne ih =>
    intro w hs ht
    refine (hE.value hg hs e).bind hg fun w₁ r h₁ _ hr => ?_
    refine ih r (hs.mono h₁) fun r' hr' => ?_
    cases hr'
    exact .union ((ht tail rfl).mono h₁) hr

/-- A call expression is traced: callee, arguments, calls, then external code. -/
theorem call (hs : w.Scope stack) (span : Script.Span) (callee : Script.Expr)
    (args : List Script.Expr) : Traced setup w (E.call span callee args stack) Has := by
  unfold Evaluator.call
  refine (hE.calleeOf hg hs callee).bind hg fun w₁ p h₁ _ hp => ?_
  refine (hE.arguments hg args none (hs.mono h₁) nofun).bind hg fun w₂ os h₂ _ hos => ?_
  rw [traced_deref_bind]
  have hc : w₂.HasCall ⟨⟨.call, span⟩, p.2.map (·.1), os⟩ := by
    refine ⟨fun o ho => ?_, hos⟩
    obtain ⟨q, hq, rfl⟩ := Option.map_eq_some_iff.1 ho
    exact (hp.2 q hq).mono h₂
  refine (hE.invokeAll hg hc _).bind hg fun w₃ r h₃ _ hr => ?_
  rw [traced_read_bind]
  split
  · rw [traced_deref_bind]
    split
    · exact .pure fun _ => hr
    · rw [traced_get_bind, traced_deref_bind]
      split
      · exact .pure fun _ => hr
      · exact (hE.followCallbacks hg _ _ (hc.mono h₃)).bind hg fun _ _ hle _ hr' =>
          .pure fun _ => HasRef.union (hr.mono hle) hr'
  · exact .pure fun _ => hr

/-- What a constructor returns exists. -/
theorem constructWith {c : CallSite} (hc : w.HasCall c) (v : Value) :
    Traced setup w (E.constructWith c v) fun w' o => ∀ r, o = some r → w'.HasRef r := by
  unfold Evaluator.constructWith
  split
  · refine (hE.invoke hc).bind hg fun _ r _ _ hr => .pure fun _ r' h => ?_
    cases h
    exact hr
  · refine (hE.invoke hc).bind hg fun w₁ r _ _ hr => ?_
    have hempty : w₁.Ok setup → ∀ v, ObjectCell.empty.Holds v → w₁.state.heap.Exists v := by
      rintro _ v (⟨e, he, _⟩ | ⟨r, hr, _⟩)
      · cases he
      · cases hr
    refine (Traced.newObject hempty).bind hg fun _ v hle _ hv => .pure fun _ r' h => ?_
    cases h
    exact .insert (hr.mono hle) hv
  · exact .pure fun _ _ h => by cases h

/-- A `new` expression is traced. -/
theorem construct (hs : w.Scope stack) (span : Script.Span) (callee : Script.Expr)
    (args : List Script.Expr) : Traced setup w (E.construct span callee args stack) Has := by
  unfold Evaluator.construct
  refine (hE.resolve hs).bind hg fun w₁ o h₁ _ _ => ?_
  refine (hE.arguments hg args none (hs.mono h₁) nofun).bind hg fun w₂ os _ _ hos => ?_
  rw [traced_deref_bind]
  have hc : w₂.HasCall ⟨⟨.construct, span⟩, none, os⟩ := ⟨fun _ h => (by cases h), hos⟩
  refine (Traced.mapM hg (fun hle h r hr => (h r hr).mono hle) fun v _ w' hle _ =>
    hE.constructWith hg (hc.mono hle) v).bind hg fun w₃ results _ _ hres => ?_
  have hend : ∀ w', w₃.Le w' → Traced setup w'
      (Pure.pure (.known (.unionAll (results.filterMap id))) : Run Operand) Has := by
    intro w' hle
    refine .pure fun _ => HasRef.unionAll fun r hr => ?_
    obtain ⟨o, ho, rfl⟩ := List.mem_filterMap.1 hr
    exact (hres _ ho r rfl).mono hle
  split
  · exact hend _ (.refl _)
  · exact (Traced.warn hg).seq hg fun w' hle _ => hend w' hle

/-! ## Expressions -/

/-- An item of an array literal exists, be it spread or not. -/
theorem arrayItem (hs : w.Scope stack) (item : Option Script.Expr) :
    Traced setup w (E.arrayItem stack item) HasRef := by
  unfold Evaluator.arrayItem
  split
  · exact .pure fun _ => .empty
  · exact (hE.value hg hs _).bind hg fun w' r _ hok _ =>
      (Traced.pure (a := w'.state.heap.getKey r.arrays .any) fun _ => hok.getKey _ .any)
  · exact hE.value hg hs _

/-- An array literal makes an array of what exists. -/
theorem arrayLiteral (hs : w.Scope stack) (items : List (Option Script.Expr)) :
    Traced setup w (E.arrayLiteral items stack) Has := by
  unfold Evaluator.arrayLiteral
  refine (Traced.mapM hg (fun hle h => h.mono hle) fun item _ w' hle _ =>
    hE.arrayItem hg (hs.mono hle) item).bind hg fun w' rs _ _ hrs => ?_
  exact (Traced.arrayOf hg fun _ => HasRef.unionAll hrs).bind hg fun _ _ _ _ h => .pure fun _ => h

omit hE in
/-- Marking functions as accessors is bookkeeping. -/
theorem markAccessors (a : Accessor) (r : Reference) :
    Traced setup w (Evaluator.markAccessors a r) fun _ _ => True := by
  refine Traced.forM hg fun v _ w' _ _ => ?_
  cases v with
  | function id =>
    exact .of_step (w'.withHeap (w'.state.heap.markAccessor id a)) rfl (fun _ => .accessor)
      fun _ => trivial
  | _ => exact .pure fun _ => trivial

/-- Everything an object under construction holds exists. -/
def HasCell (w : World) (o : ObjectCell) : Prop := ∀ v, o.Holds v → w.state.heap.Exists v

omit hg hE in
/-- What an object under construction holds exists in later worlds. -/
theorem HasCell.mono {w' : World} {o : ObjectCell} (ho : HasCell w o) (h : w.Le w') :
    HasCell w' o := fun v hv => h.exists (ho v hv)

omit hg hE in
/-- A slot may be set to what exists. -/
theorem HasCell.set {o : ObjectCell} (ho : HasCell w o) {k : Key} {r : Reference}
    (hr : w.HasRef r) : HasCell w (o.set k r) := fun v hv =>
  (ObjectCell.holds_set.1 hv).elim (ho v) (hr v)

omit hg hE in
/-- An empty object holds nothing that could be missing. -/
theorem HasCell.empty : HasCell w .empty := by
  rintro v (⟨e, he, _⟩ | ⟨r, hr, _⟩)
  · cases he
  · cases hr

omit hg hE in
/-- Spreading copies what exists. -/
theorem HasCell.spreadInto (hw : w.Ok setup) {source : Reference} {o : ObjectCell}
    (ho : HasCell w o) : HasCell w (w.state.heap.spreadInto o source) := by
  unfold Heap.spreadInto
  have hslots : ∀ (slots : List (String × Reference)) (o : ObjectCell), HasCell w o →
      (∀ e ∈ slots, w.HasRef e.2) →
      HasCell w (slots.foldl (fun o e => o.set (.name e.1) e.2) o) := by
    intro slots
    induction slots with
    | nil => exact fun o ho _ => ho
    | cons e slots ih =>
      exact fun o ho he => ih _ (ho.set (he e (by simp))) fun e' he' =>
        he e' (List.mem_cons_of_mem _ he')
  have hholds : ∀ id v, (w.state.heap.object id).Holds v → w.state.heap.Exists v := fun id v hv =>
    hw.exists_of_mem_getKeyOf (k := .any) (u := .object id) (ObjectCell.mem_get_any.2 hv)
  generalize source.values = vs
  induction vs generalizing o with
  | nil => exact ho
  | cons v vs ih =>
    refine ih ?_
    cases v with
    | object id =>
      have hcopied := hslots (w.state.heap.object id).slots o ho fun e he v hv =>
        hholds id v (.inl ⟨e, he, hv⟩)
      simp only
      split
      · next r hr => exact hcopied.set fun v hv => hholds id v (.inr ⟨r, hr, hv⟩)
      · exact hcopied
    | array id => exact ho.set (hw.elements id)
    | _ => exact ho

/-- A property adds what exists to an object under construction. -/
theorem addProperty (hs : w.Scope stack) {o : ObjectCell} (ho : HasCell w o)
    (property : Script.Property) : Traced setup w (E.addProperty stack o property) HasCell := by
  refine .ok fun hw => ?_
  unfold Evaluator.addProperty
  split
  · rw [traced_lookup_bind, traced_deref_bind]
    exact .pure fun _ => ho.set (hw.now (hw.meaning ..))
  · refine (hE.propertyKey hg hs _ _).bind hg fun w₁ k h₁ _ _ => ?_
    refine (hE.value hg (hs.mono h₁) _).bind hg fun w₂ r h₂ _ hr => ?_
    have hend : ∀ w₃, w₂.Le w₃ → Traced setup w₃ (Pure.pure (o.set k r) : Run ObjectCell) HasCell :=
      fun w₃ h₃ => .pure fun _ => (ho.mono ((h₁.trans h₂).trans h₃)).set (hr.mono h₃)
    split
    · exact (markAccessors hg _ _).seq hg fun w₃ h₃ _ => hend w₃ h₃
    · exact hend _ (.refl _)
  · refine (hE.value hg hs _).bind hg fun w₁ r h₁ hok _ => ?_
    rw [traced_get_bind]
    exact .pure fun _ => (ho.mono h₁).spreadInto hok

/-- An object literal makes an object of what exists. -/
theorem objectLiteral (hs : w.Scope stack) (properties : List Script.Property) :
    Traced setup w (E.objectLiteral properties stack) Has := by
  unfold Evaluator.objectLiteral
  refine (Traced.foldlM hg HasCell.empty fun p _ w' hle _ o ho =>
    hE.addProperty hg (hs.mono hle) ho p).bind hg fun w' o _ _ ho => ?_
  exact (Traced.newObject fun _ => ho).bind hg fun _ _ _ _ hv => .pure fun _ => HasRef.single hv

omit hE in
/-- Expressions whose value is not tracked yield nothing but a warning. -/
theorem untracked (e : Script.Expr) : Traced setup w (Evaluator.untracked e) Has :=
  (Traced.warn hg).seq hg fun _ _ _ => .pure fun _ => HasRef.empty

omit hg hE in
/-- The result of a binary operator exists if its operands do. -/
theorem binaryResult (op : Script.BinaryOp) {left right : Reference} (hl : w.HasRef left)
    (hr : w.HasRef right) : w.HasRef (Evaluator.binaryResult op left right) := by
  unfold Evaluator.binaryResult
  split
  · exact .union hl hr
  · split
    · exact .boolean
    · exact .anyPrimitive

/-- Expressions are traced, form by form. -/
theorem resolveStep (hs : w.Scope stack) (e : Script.Expr) :
    Traced setup w (E.resolveStep e stack) Has := by
  have huntracked : ∀ w' : World, Traced setup w' (Evaluator.untracked e) Has := fun _ =>
    untracked hg e
  cases e with
  | identifier id =>
    refine .ok fun hw => ?_
    have : Traced setup w (lookup id.name stack >>= Pure.pure) Has := by
      rw [traced_lookup_bind]
      exact .pure fun _ => hw.meaning ..
    rwa [bind_pure] at this
  | string _ _ | boolean _ _ | null _ => exact .pure fun _ => HasRef.ofPrimitive
  | number _ value =>
    cases value with
    | some value => exact .pure fun _ => HasRef.ofPrimitive
    | none => exact .pure fun _ => HasRef.anyPrimitive
  | regExp _ => exact .pure fun _ => HasRef.anyPrimitive
  | template span tag parts =>
    refine (Traced.forM hg fun part _ w' hle _ => hE.visit hg (hs.mono hle) part).seq hg
      fun w₁ h₁ _ => ?_
    cases tag with
    | none => exact .pure fun _ => HasRef.anyPrimitive
    | some tag =>
      exact (hE.visit hg (hs.mono h₁) tag).seq hg fun _ _ _ =>
        (Traced.warn hg).seq hg fun _ _ _ => .pure fun _ => HasRef.empty
  | array _ items => exact hE.arrayLiteral hg hs items
  | object _ properties => exact hE.objectLiteral hg hs properties
  | function fn =>
    exact (Traced.newFunction hs).bind hg fun _ _ _ _ hv => .pure fun _ => HasRef.single hv
  | classLiteral cls => exact (hE.visit? hg hs _).seq hg fun w' _ _ => huntracked w'
  | call span callee args => exact hE.call hg hs span callee args
  | construct span callee args => exact hE.construct hg hs span callee args
  | dot _ _ _ | bracket _ _ _ =>
    exact (hE.memberTarget hg hs _).bind hg fun _ p _ _ hp => hE.readMember hg hp p.2 _
  | privateDot _ object _ =>
    exact (hE.visit hg hs object).seq hg fun _ _ _ => .pure fun _ => HasRef.empty
  | assign span op target value => exact hE.assign hg hs span op target value
  | unary span op operand =>
    by_cases hop : op = .delete
    · subst hop
      exact hE.deleteProperty hg hs span operand
    · have heq : E.resolveStep (.unary span op operand) stack = (do
          E.visit operand stack
          return .known .anyPrimitive) := by
        cases op with
        | delete => exact absurd rfl hop
        | _ => rfl
      rw [heq]
      exact (hE.visit hg hs operand).seq hg fun _ _ _ => .pure fun _ => HasRef.anyPrimitive
  | update span operand => exact hE.update hg hs span operand
  | binary _ op left right =>
    refine (hE.resolve hs).bind hg fun w₁ l h₁ _ hl => ?_
    refine (hE.resolve (hs.mono h₁)).bind hg fun w₂ r h₂ hok hr => ?_
    rw [traced_deref_bind, traced_deref_bind]
    exact .pure fun _ => binaryResult op (hok.now (hl.mono h₂)) (hok.now hr)
  | conditional _ test yes no =>
    refine (hE.visit hg hs test).seq hg fun w₁ h₁ _ => ?_
    refine (hE.resolve (hs.mono h₁)).bind hg fun w₂ l h₂ _ hl => ?_
    refine (hE.resolve ((hs.mono h₁).mono h₂)).bind hg fun w₃ r h₃ hok hr => ?_
    rw [traced_deref_bind, traced_deref_bind]
    exact .pure fun _ => HasRef.union (hok.now (hl.mono h₃)) (hok.now hr)
  | sequence _ items =>
    exact .foldlM hg HasRef.undefined fun item _ w' hle _ _ _ => hE.resolve (hs.mono hle)
  | optional inner | optionalChain inner | spread inner => exact hE.resolve hs
  | yield _ argument => exact (hE.visit? hg hs argument).seq hg fun w' _ _ => huntracked w'
  | await _ argument => exact (hE.visit hg hs argument).seq hg fun w' _ _ => huntracked w'
  | privateName _ _ | thisValue _ | superValue _ | newTarget _ => exact huntracked w

/-! ## Statements -/

/-- A declarator binds its target to what exists. -/
theorem declare (hs : w.Scope stack) (how : Install) (b : Script.Binding) :
    Traced setup w (E.declare how stack b) fun _ _ => True :=
  (hE.resolve? hs b.init).bind hg fun _ _ hle _ ho => hE.bind (hs.mono hle) ho

/-- A declaration is traced, declarator by declarator. -/
theorem declareAll (hs : w.Scope stack) (how : Install) (bindings : List Script.Binding) :
    Traced setup w (bindings.forM (E.declare how stack)) fun _ _ => True :=
  .forM hg fun b _ _ hle _ => hE.declare hg (hs.mono hle) how b

/-- The head of a `for` loop is traced. -/
theorem forInit (hs : w.Scope stack) (init : Option Script.ForInit) :
    Traced setup w (E.forInit init stack) fun _ _ => True := by
  unfold Evaluator.forInit
  split
  · exact .pure fun _ => trivial
  · exact hE.visit hg hs _
  · exact hE.declareAll hg hs _ _
  · exact hE.declareAll hg hs _ _

/-- The target of a loop over a collection is traced. -/
theorem forTarget (hs : w.Scope stack) (target : Script.ForTarget) {value : Operand}
    (hv : w.Has value) (site : Site) :
    Traced setup w (E.forTarget target value site stack) fun _ _ => True := by
  unfold Evaluator.forTarget
  split
  · exact hE.bind hs hv
  · exact hE.bind hs hv
  · exact hE.assignTo hg hs _ hv site
  · exact .unsupported hg

/-- The clauses of a `switch` are traced, in order. -/
theorem walkCases (hs : w.Scope stack) (fold : Bool) (cases : List Script.Case) :
    Traced setup w (E.walkCases fold cases stack) HasRef := by
  refine Traced.foldlM hg HasRef.empty fun c _ w₁ h₁ _ r hr => ?_
  obtain ⟨start, test, body⟩ := c
  refine (hE.visit? hg (hs.mono h₁) test).seq hg fun w₂ h₂ _ => ?_
  exact (hE.walkAll hg ((hs.mono h₁).mono h₂) fold body).bind hg fun _ _ h₃ _ hr' =>
    .pure fun _ => .union (hr.mono (h₂.trans h₃)) hr'

/-- The parameter of a `catch` clause is bound in a frame of its own. -/
theorem walkCatch (hs : w.Scope stack) (fold : Bool) (handler : Option Script.Catch) :
    Traced setup w (E.walkCatch fold handler stack) HasRef := by
  unfold Evaluator.walkCatch
  split
  · exact .pure fun _ => .empty
  · refine (Traced.pushFrame hg hs.outer).bind hg fun w₁ stack' _ _ hs' => ?_
    split
    · exact hE.walkBlock hg hs' fold _
    · exact (hE.bind (o := .thrown) hs' trivial).seq hg fun _ hle _ =>
        hE.walkBlock hg (hs'.mono hle) fold _

/-! ### Forms of statements -/

omit hg hE in
/-- Statements that return nothing. -/
theorem nothing (w : World) : Traced setup w (Pure.pure .empty : Run Reference) HasRef :=
  .pure fun _ => .empty

omit hE in
/-- A class declaration binds its name, which is no binding of the globals, to nothing. -/
theorem walkDeclareClass (hs : w.Scope stack) (fold : Bool) (cls : Script.Class) :
    Traced setup w (E.walkStep fold (.declareClass cls) stack) HasRef := by
  have hwarn : ∀ w' : World, Traced setup w' (do
      warn ("class body at " ++ (Script.Stmt.declareClass cls).span.render
        ++ " is not analyzed")
      return Reference.empty) HasRef := fun w' =>
    (Traced.warn hg).seq hg fun w'' _ _ => nothing w''
  unfold Evaluator.walkStep
  dsimp only
  split
  · exact hwarn w
  · obtain ⟨f, rest, rfl, hf⟩ := hs.cons
    show Traced setup w (Pure.pure f >>= _) _
    rw [traced_pure_bind]
    exact (Traced.define hf HasRef.empty).seq hg fun w' _ _ => hwarn w'

/-- A `throw` statement adds to what was thrown anywhere. -/
theorem walkThrow (hs : w.Scope stack) (fold : Bool) (span : Script.Span) (argument : Script.Expr) :
    Traced setup w (E.walkStep fold (.throwWith span argument) stack) HasRef := by
  refine (hE.value hg hs argument).bind hg fun w' r _ _ hr => ?_
  have hthrow : Traced setup w'
      (modify fun s => { s with thrown := s.thrown.union r } : Run Unit) fun _ _ => True :=
    .of_step ⟨{ w'.state with thrown := w'.state.thrown.union r }, w'.globals⟩ rfl
      (fun _ => .throws hr) fun _ => trivial
  exact hthrow.seq hg fun w'' _ _ => nothing w''

/-- Both branches of a conditional statement are run. -/
theorem walkIfElse (hs : w.Scope stack) (fold : Bool) (span : Script.Span) (test : Script.Expr)
    (yes : Script.Stmt) (no : Option Script.Stmt) :
    Traced setup w (E.walkStep fold (.ifElse span test yes no) stack) HasRef := by
  refine (hE.visit hg hs test).seq hg fun w₁ h₁ _ => ?_
  refine (hE.walk (hs.mono h₁)).bind hg fun w₂ r h₂ _ hr => ?_
  cases no with
  | none => exact .pure fun _ => hr
  | some no =>
    exact (hE.walk ((hs.mono h₁).mono h₂)).bind hg fun _ _ h₃ _ hr' =>
      .pure fun _ => .union (hr.mono h₃) hr'

/-- A `for` loop is run in a frame of its own. -/
theorem walkForLoop (hs : w.Scope stack) (fold : Bool) (span : Script.Span)
    (init : Option Script.ForInit) (test update : Option Script.Expr) (body : Script.Stmt) :
    Traced setup w (E.walkStep fold (.forLoop span init test update body) stack) HasRef := by
  refine (Traced.pushFrame hg hs.outer).bind hg fun w₁ stack' _ _ hs' => ?_
  refine (hE.forInit hg hs' init).seq hg fun w₂ h₂ _ => ?_
  refine (hE.visit? hg (hs'.mono h₂) test).seq hg fun w₃ h₃ _ => ?_
  have hs₃ := (hs'.mono h₂).mono h₃
  refine (hE.walk hs₃).bind hg fun w₄ r h₄ _ hr => ?_
  exact (hE.visit? hg (hs₃.mono h₄) update).seq hg fun _ h₅ _ => .pure fun _ => hr.mono h₅

/-- A loop over a collection binds its variable to what it goes through. -/
theorem walkForEach (hs : w.Scope stack) (fold : Bool) (span : Script.Span)
    (kind : Script.LoopKind) (target : Script.ForTarget) (source : Script.Expr)
    (body : Script.Stmt) :
    Traced setup w (E.walkStep fold (.forEach span kind target source body) stack) HasRef := by
  refine (Traced.pushFrame hg hs.outer).bind hg fun w₁ stack' _ _ hs' => ?_
  refine (hE.value hg hs' source).bind hg fun w₂ r h₂ hok _ => ?_
  have hs₂ := hs'.mono h₂
  cases kind with
  | forOf =>
    show Traced setup w₂ (getKey r .any >>= _) _
    rw [traced_getKey_bind]
    exact (hE.forTarget hg hs₂ target (hok.getKey r .any) _).seq hg fun _ h₃ _ =>
      hE.walk (hs₂.mono h₃)
  | forIn =>
    show Traced setup w₂ (Pure.pure Reference.anyPrimitive >>= _) _
    rw [traced_pure_bind]
    exact (hE.forTarget hg hs₂ target HasRef.anyPrimitive _).seq hg fun _ h₃ _ =>
      hE.walk (hs₂.mono h₃)

/-- A `switch` opens a scope after its subject was evaluated. -/
theorem walkSwitch (hs : w.Scope stack) (fold : Bool) (span : Script.Span)
    (subject : Script.Expr) (cases : List Script.Case) :
    Traced setup w (E.walkStep fold (.switchOn span subject cases) stack) HasRef := by
  refine (hE.visit hg hs subject).seq hg fun w₁ h₁ _ => ?_
  refine (Traced.template _).bind hg fun w₂ t h₂ _ _ => ?_
  exact (Traced.instantiate hg t ((hs.mono h₁).mono h₂).outer).bind hg fun _ _ _ _ hs' =>
    hE.walkCases hg hs' fold cases

/-- The block, the handler and the finalizer of a `try` statement are all run. -/
theorem walkTry (hs : w.Scope stack) (fold : Bool) (span : Script.Span) (body : Script.Block)
    (handler : Option Script.Catch) (finalizer : Option Script.Block) :
    Traced setup w (E.walkStep fold (.tryCatch span body handler finalizer) stack) HasRef := by
  refine (hE.walkBlock hg hs fold body).bind hg fun w₁ r h₁ _ hr => ?_
  refine (hE.walkCatch hg (hs.mono h₁) fold handler).bind hg fun w₂ r' h₂ _ hr' => ?_
  have hboth := HasRef.union (hr.mono h₂) hr'
  cases finalizer with
  | none => exact .pure fun _ => hboth
  | some b =>
    exact (hE.walkBlock hg ((hs.mono h₁).mono h₂) fold b).bind hg fun _ _ h₃ _ hr'' =>
      .pure fun _ => .union (hboth.mono h₃) hr''

/-- Statements are traced, form by form. -/
theorem walkStep (hs : w.Scope stack) (fold : Bool) (s : Script.Stmt) :
    Traced setup w (E.walkStep fold s stack) HasRef := by
  cases s with
  | block b => exact hE.walkBlock hg hs fold b
  | expression e =>
    refine (hE.value hg hs e).bind hg fun _ _ _ _ hr => .pure fun _ => ?_
    split
    · exact hr
    · exact .empty
  | declareVar _ bindings | declareLexical _ bindings =>
    exact (hE.declareAll hg hs _ bindings).seq hg fun w' _ _ => nothing w'
  | declareFunction _ | jump _ | empty _ | debugger _ => exact nothing w
  | declareClass cls => exact walkDeclareClass hg hs fold cls
  | returnWith _ argument =>
    refine (hE.resolve? hs argument).bind hg fun w' o _ hok ho => ?_
    have : Traced setup w' (deref o >>= Pure.pure) HasRef := by
      rw [traced_deref_bind]
      exact .pure fun _ => hok.now ho
    rwa [bind_pure] at this
  | throwWith span argument => exact hE.walkThrow hg hs fold span argument
  | ifElse span test yes no => exact hE.walkIfElse hg hs fold span test yes no
  | forLoop span init test update body =>
    exact hE.walkForLoop hg hs fold span init test update body
  | forEach span kind target source body =>
    exact hE.walkForEach hg hs fold span kind target source body
  | whileLoop _ test body =>
    exact (hE.visit hg hs test).seq hg fun _ h₁ _ => hE.walk (hs.mono h₁)
  | doWhile _ body test =>
    refine (hE.walk hs).bind hg fun w₁ r h₁ _ hr => ?_
    exact (hE.visit hg (hs.mono h₁) test).seq hg fun _ h₂ _ => .pure fun _ => hr.mono h₂
  | switchOn span subject cases => exact hE.walkSwitch hg hs fold span subject cases
  | tryCatch span body handler finalizer =>
    exact hE.walkTry hg hs fold span body handler finalizer
  | labelled _ _ body => exact hE.walk hs
  | withObject span object body =>
    refine (hE.visit hg hs object).seq hg fun w₁ h₁ _ => ?_
    exact (Traced.warn hg).seq hg fun _ h₂ _ => hE.walk ((hs.mono h₁).mono h₂)

end

end Evaluator.IsTraced

/-! ## Whole analyses -/

section
variable {setup : Setup} (hg : setup.graph.Grounded)
include hg

/-- Every evaluator is traced. The induction is on its levels: a step calls back the evaluator one
level below. -/
theorem Evaluator.isTraced_ofFuel (fuel : Nat) : (Evaluator.ofFuel fuel).IsTraced setup := by
  induction fuel with
  | zero => exact ⟨fun _ => .throw, fun _ _ => .throw, fun _ => .throw, fun _ => .throw⟩
  | succ fuel ih =>
    exact ⟨fun hs => ih.resolveStep hg hs _, fun hs ho => ih.bindStep hg hs _ _ ho,
      fun hs => ih.walkStep hg hs _ _, fun hc => ih.invokeStep hg _ hc⟩

namespace Setup

/-- The evaluation of a program against its globals is traced from the start. -/
theorem traced_evaluation (globals : Host.Datum) :
    Traced setup .start (setup.evaluation globals) fun _ _ => True := by
  have hE := Evaluator.isTraced_ofFuel hg setup.fuel
  have hrun : Traced setup .start (do
      let frame ← newGlobals globals
      return (⟨frame, ← setup.evaluator.runProgram 0 [frame]⟩ : Evaluation)) fun _ _ => True :=
    Traced.newGlobals.bind hg fun _ _ _ _ hf =>
      (hE.runProgram hg hf 0).bind hg fun _ _ _ _ _ => .pure fun _ => trivial
  unfold Setup.evaluation
  split
  · exact .throw_bind
  · exact hrun

/-- The report on a program is traced from the start. -/
theorem traced_report (globals : Host.Datum) :
    Traced setup .start (setup.report globals) fun _ _ => True := by
  have hE := Evaluator.isTraced_ofFuel hg setup.fuel
  unfold Setup.report
  split
  · exact .throw
  · refine Traced.newGlobals.bind hg fun w₁ frame _ _ hf => ?_
    refine Traced.log.seq hg fun w₂ h₂ _ => ?_
    refine (hE.runProgram hg (h₂.globals _ hf) 0).seq hg fun w₃ _ _ => ?_
    rw [traced_get_bind]
    exact Traced.log.seq hg fun _ _ _ => .pure fun _ => trivial

omit hg in
/-- The states in which analyses of a program against its globals end: with its value or its report,
or with a failure. -/
def Ends (setup : Setup) (globals : Host.Datum) (s : State) : Prop :=
  s = (setup.evaluate globals).2 ∨ s = (setup.analyze globals).2

omit hg in
/-- The state in which a traced computation ends is reached by a run. -/
theorem runs_of_traced {α : Type} {w : World} {x : Run α} {s : State}
    (hx : Traced setup w x fun _ _ => True) (hw : w.Ok setup)
    (hs : (∃ a, x setup w.state = .ok a s) ∨ ∃ e, x setup w.state = .error e s) :
    ∃ es w', Runs setup w es w' ∧ w'.state = s := by
  obtain ⟨es, w', hr, hres⟩ := hx hw
  refine ⟨es, w', hr, ?_⟩
  rcases hs with ⟨a, heq⟩ | ⟨e, heq⟩
  · rw [heq] at hres
    exact hres.1
  · rw [heq] at hres
    exact hres.1

omit hg in
/-- How a computation ends, as its outcome tells. -/
theorem ends_of_outcome {α : Type} {x : Run α} {s : State} (h : s = (x.outcome setup).2) :
    (∃ a, x setup .start = .ok a s) ∨ ∃ e, x setup .start = .error e s := by
  subst h
  unfold Run.outcome
  cases x setup .start with
  | ok a t => exact .inl ⟨a, rfl⟩
  | error e t => exact .inr ⟨e, rfl⟩

omit hg in
/-- Globals that are valid are converted at the start. -/
theorem newGlobals_of_ok {globals : Host.Datum} {entries : List (String × Host.Datum)} {id : Nat}
    {c : Host.Conversion} (hr : setup.graph.globals globals = .ok entries)
    (hc : Host.Conversion.frame setup.graph .empty entries = (id, c)) :
    newGlobals globals setup .start = .ok id (State.start.withConversion c) := by
  unfold newGlobals
  rw [read_bind, hr]
  show EStateM.Result.ok (Host.Conversion.frame setup.graph .empty entries).1
    (State.start.withConversion (Host.Conversion.frame setup.graph .empty entries).2) = _
  rw [hc]

/-- An analysis begins with the conversion of its globals, and goes on from there. -/
theorem runs_after_globals (hp : setup.programs.size ≠ 0) {globals : Host.Datum}
    {entries : List (String × Host.Datum)} {id : Nat} {c : Host.Conversion}
    (hr : setup.graph.globals globals = .ok entries)
    (hc : Host.Conversion.frame setup.graph .empty entries = (id, c)) {s : State}
    (h : setup.Ends globals s) :
    ∃ es w, Runs setup ⟨State.start.withConversion c, [id]⟩ es w ∧ w.state = s := by
  have hE := Evaluator.isTraced_ofFuel hg setup.fuel
  have hnew := newGlobals_of_ok hr hc
  have hstep : Step setup .start (.convert ⟨.start, State.start.withConversion c, id⟩)
      ⟨State.start.withConversion c, [id]⟩ := .convert (w := .start) hr hc
  have hok := hstep.ok hg (.start setup)
  have hid : id ∈ (World.mk (State.start.withConversion c) [id]).globals :=
    List.mem_singleton_self _
  rcases h with h | h
  · obtain ⟨rest, heq, hrest⟩ : ∃ rest : Run Evaluation,
        setup.evaluation globals setup .start = rest setup (State.start.withConversion c) ∧
        Traced setup ⟨State.start.withConversion c, [id]⟩ rest fun _ _ => True := by
      unfold Setup.evaluation
      rw [if_neg (by simpa [Array.isEmpty] using hp)]
      refine ⟨_, bind_of_ok hnew, ?_⟩
      exact (hE.runProgram hg hid 0).bind hg fun _ _ _ _ _ => .pure fun _ => trivial
    have hends := ends_of_outcome h
    rw [heq] at hends
    exact runs_of_traced hrest hok hends
  · obtain ⟨rest, heq, hrest⟩ : ∃ rest : Run Report,
        setup.report globals setup .start = rest setup (State.start.withConversion c) ∧
        Traced setup ⟨State.start.withConversion c, [id]⟩ rest fun _ _ => True := by
      have hmain : setup.programs[0]? = some (setup.programs[0]) := by
        simp
      unfold Setup.report
      rw [hmain]
      refine ⟨_, bind_of_ok hnew, ?_⟩
      refine Traced.log.seq hg fun w₂ h₂ _ => ?_
      refine (hE.runProgram hg (h₂.globals _ hid) 0).seq hg fun w₃ _ _ => ?_
      rw [traced_get_bind]
      exact Traced.log.seq hg fun _ _ _ => .pure fun _ => trivial
    have hends := ends_of_outcome h
    rw [heq] at hends
    exact runs_of_traced hrest hok hends

omit hg in
/-- The events begin with the conversion of the globals, if there is a program to run and there are
globals to convert. -/
def Begins (setup : Setup) (globals : Host.Datum) (es : List Event) : Prop :=
  setup.programs.size ≠ 0 → ∀ entries, setup.graph.globals globals = .ok entries →
    es.head? = some (.convert
      ⟨.start, State.start.withConversion (Host.Conversion.frame setup.graph .empty entries).2,
        (Host.Conversion.frame setup.graph .empty entries).1⟩)

/-- However an analysis ends, its final state is reached by a run that begins with its globals. -/
theorem runs_of_ends {globals : Host.Datum} {s : State} (h : setup.Ends globals s) :
    ∃ es w, Runs setup .start es w ∧ w.state = s ∧ setup.Begins globals es := by
  by_cases hb : setup.programs.size ≠ 0 ∧ ∃ entries, setup.graph.globals globals = .ok entries
  · obtain ⟨hp, entries, hr⟩ := hb
    obtain ⟨es, w, hrun, hw⟩ := runs_after_globals hg hp hr rfl h
    refine ⟨_, w, .append (.step (.convert hr rfl)) hrun, hw, fun _ entries' hr' => ?_⟩
    rw [hr] at hr'
    cases hr'
    rfl
  · have hrun : ∃ es w, Runs setup .start es w ∧ w.state = s := by
      rcases h with h | h
      · exact runs_of_traced (traced_evaluation hg globals) (.start setup) (ends_of_outcome h)
      · exact runs_of_traced (traced_report hg globals) (.start setup) (ends_of_outcome h)
    obtain ⟨es, w, hr, hw⟩ := hrun
    exact ⟨es, w, hr, hw, fun hp entries hr => absurd ⟨hp, entries, hr⟩ hb⟩

end Setup

end

end FrozenGlobals
