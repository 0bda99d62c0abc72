import FrozenGlobals.Proofs.Coupling.Order

/-!
# Destructuring and member reads

A property pattern takes what is in the slot of its key as it stands, and a member read delivers it:
it calls the getters that it finds there, and a setter reads as undefined
(`Evaluator.Delivers`). `Setup.destructuring_reads` compares the two for the variable that they
declare: both forms of a property pattern give it the slot, and so does the member read if there is
no accessor in the slot. In `getterRead` there is one, and a write to a global is missed behind a
pattern.
-/

namespace FrozenGlobals

open Run
open Script (Span Expr Pattern Identifier)

/-! ## Slots -/

/-- How a value is accessed if it is the function of an accessor. -/
def Heap.accessor? (h : Heap) : Value → Option Accessor
  | .function id => (h.closure? id).bind (·.accessor)
  | _ => none

namespace Reference

/-- Inserting new values one after another appends them. -/
theorem values_insertAll {r : Reference} {vs : List Value} (hn : (r.values ++ vs).Nodup) :
    (r.insertAll vs).values = r.values ++ vs := by
  induction vs generalizing r with
  | nil => simp [insertAll]
  | cons v vs ih =>
    have hv : v ∉ r.values := fun hmem =>
      (List.nodup_append.1 hn).2.2 v hmem v List.mem_cons_self rfl
    have hinsert : (r.insert v).values = r.values ++ [v] := by rw [insert, dif_neg hv]
    have hcons : r.insertAll (v :: vs) = (r.insert v).insertAll vs := rfl
    rw [hcons, ih (by simpa [hinsert] using hn), hinsert, List.append_assoc, List.singleton_append]

/-- A reference is the union of its possibilities. -/
theorem unionAll_singles (r : Reference) : unionAll (r.values.map single) = r := by
  have hfold : ∀ (vs : List Value) (q : Reference),
      (vs.map single).foldl union q = q.insertAll vs := by
    intro vs
    induction vs with
    | nil => exact fun _ => rfl
    | cons v vs ih => exact fun q => ih (q.union (.single v))
  refine ext ?_
  rw [unionAll, hfold, values_insertAll (by simpa [empty] using r.nodup)]
  simp [empty]

end Reference

namespace Evaluator

variable {setup : Setup} {s s' t : State} {E : Evaluator}

/-- Whether a value is an accessor is found without a change. -/
theorem accessor?_ends (v : Value) : accessor? v setup s = .ok (s.heap.accessor? v) s := by
  cases v <;> rfl

/-- What a read delivers for the possibilities of a slot, one after another. -/
inductive Delivers (setup : Setup) (E : Evaluator) (object : Operand) (site : Site) :
    List Value → State → List Reference → State → Prop
  | nil {s : State} : Delivers setup E object site [] s [] s
  | value {s s' : State} {v : Value} {vs : List Value} {rs : List Reference} :
      s.heap.accessor? v = none → Delivers setup E object site vs s rs s' →
      Delivers setup E object site (v :: vs) s (.single v :: rs) s'
  | getter {s t s' : State} {v : Value} {vs : List Value} {r : Reference} {rs : List Reference} :
      s.heap.accessor? v = some .getter → E.invoke v ⟨site, some object, []⟩ setup s = .ok r t →
      Delivers setup E object site vs t rs s' →
      Delivers setup E object site (v :: vs) s (r :: rs) s'
  | setter {s s' : State} {v : Value} {vs : List Value} {rs : List Reference} :
      s.heap.accessor? v = some .setter → Delivers setup E object site vs s rs s' →
      Delivers setup E object site (v :: vs) s (.undefined :: rs) s'

variable {object : Operand} {site : Site}

/-- Slots without accessors are delivered as they stand. -/
theorem Delivers.of_plain {vs : List Value} (h : ∀ v ∈ vs, s.heap.accessor? v = none) :
    Delivers setup E object site vs s (vs.map .single) s := by
  induction vs with
  | nil => exact .nil
  | cons v vs ih => exact .value (h v List.mem_cons_self) (ih fun w hw => h w (.tail _ hw))

/-- What is delivered is collected. -/
theorem foldlM_readSlot {vs : List Value} {q r : Reference} :
    (vs.foldlM (fun out v => return out.union (← E.readSlot object site v)) q : Run Reference)
        setup s = .ok r s' ↔
      ∃ rs, Delivers setup E object site vs s rs s' ∧ r = rs.foldl .union q := by
  induction vs generalizing q s with
  | nil =>
    constructor
    · intro h
      cases h
      exact ⟨[], .nil, rfl⟩
    · rintro ⟨rs, hrs, rfl⟩
      cases hrs
      rfl
  | cons v vs ih =>
    have hslot : ∀ {p : Reference} {t : State}, E.readSlot object site v setup s = .ok p t →
        (((v :: vs).foldlM (fun out v => return out.union (← E.readSlot object site v)) q :
            Run Reference) setup s = .ok r s' ↔
        ∃ rs, Delivers setup E object site vs t rs s' ∧ r = (p :: rs).foldl .union q) := by
      intro p t hp
      rw [List.foldlM_cons, bind_assoc, bind_of_ok hp]
      exact ih
    have haccessor : accessor? v setup s = .ok (s.heap.accessor? v) s := accessor?_ends v
    cases ha : s.heap.accessor? v with
    | none =>
      rw [ha] at haccessor
      rw [hslot (bind_of_ok haccessor)]
      constructor
      · exact fun ⟨rs, hrs, hr⟩ => ⟨_, .value ha hrs, hr⟩
      · rintro ⟨_, hrs, hr⟩
        cases hrs with
        | value _ hrs => exact ⟨_, hrs, hr⟩
        | getter hg _ _ => cases ha.symm.trans hg
        | setter hs _ => cases ha.symm.trans hs
    | some a =>
    rw [ha] at haccessor
    cases a with
    | setter =>
      rw [hslot (bind_of_ok haccessor)]
      constructor
      · exact fun ⟨rs, hrs, hr⟩ => ⟨_, .setter ha hrs, hr⟩
      · rintro ⟨_, hrs, hr⟩
        cases hrs with
        | value hv _ => cases ha.symm.trans hv
        | getter hg _ _ => cases ha.symm.trans hg
        | setter _ hrs => exact ⟨_, hrs, hr⟩
    | getter =>
      have hread : E.readSlot object site v setup s = E.invoke v ⟨site, some object, []⟩ setup s :=
        bind_of_ok haccessor
      constructor
      · intro h
        obtain ⟨_, t, hstep, -⟩ :=
          ok_of_bind ((congrFun (congrFun List.foldlM_cons setup) s).symm.trans h)
        obtain ⟨p, t', hp, hend⟩ := ok_of_bind hstep
        cases hend
        obtain ⟨rs, hrs, hr⟩ := (hslot hp).1 h
        exact ⟨_, .getter ha (hread ▸ hp) hrs, hr⟩
      · rintro ⟨_, hrs, hr⟩
        cases hrs with
        | value hv _ => cases ha.symm.trans hv
        | setter hs _ => cases ha.symm.trans hs
        | getter _ hp hrs => exact (hslot (hread.trans hp)).2 ⟨_, hrs, hr⟩

/-- A member read yields what the possibilities of the slot deliver. -/
theorem readMember_eq_ok {o : Operand} {key : Key} {out : Operand} :
    E.readMember o key site setup s = .ok out s' ↔
      ∃ rs, Delivers setup E o site (s.heap.getKey (o.now s) key).values s rs s' ∧
        out = .known (.unionAll rs) := by
  unfold readMember
  rw [bind_of_ok (deref_eq setup o s)]
  constructor
  · intro h
    obtain ⟨slot, t, hslot, h⟩ := ok_of_bind h
    cases hslot
    obtain ⟨r, t, hr, hend⟩ := ok_of_bind h
    cases hend
    obtain ⟨rs, hrs, rfl⟩ := foldlM_readSlot.1 hr
    exact ⟨rs, hrs, rfl⟩
  · rintro ⟨rs, hrs, rfl⟩
    exact bind_of_ok (foldlM_readSlot.2 ⟨rs, hrs, rfl⟩)

/-- A member read without accessors gives the slot. -/
theorem readMember_of_plain {o : Operand} {key : Key}
    (h : ∀ v ∈ s.heap.getKey (o.now s) key, s.heap.accessor? v = none) :
    E.readMember o key site setup s = .ok (.known (s.heap.getKey (o.now s) key)) s := by
  refine readMember_eq_ok.2 ⟨_, .of_plain h, ?_⟩
  rw [Reference.unionAll_singles]

/-! ## Patterns of one property -/

variable {how : Install} {stack : Stack} {span : Span}

/-- A name in a pattern is bound to what it is given. -/
theorem bindStep_leaf (id : Identifier) :
    E.bindStep how (.leaf (.identifier id)) object stack setup s =
      E.installLeaf how (.identifier id) object stack setup s := rfl

/-- What is bound to a name does not depend on the evaluator. -/
theorem installLeaf_name (E' : Evaluator) (id : Identifier) :
    E.installLeaf how (.identifier id) object stack = E'.installLeaf how (.identifier id)
      object stack := by
  cases how <;> rfl

/-- A pattern of one property ends as its property does. -/
theorem bindStep_property (p : Script.PatternProperty) :
    E.bindStep how (.object span [p] none) object stack setup s =
      E.bindProperty how object stack p setup s := by
  show ((E.bindProperty how object stack p >>= fun _ => pure ()) >>= fun _ => pure ()) setup s = _
  simp

/-- A short property binds the name to the slot of that name, as it stands. -/
theorem bindProperty_short (k : Identifier) :
    E.bindProperty how object stack (.short k none) setup s =
      E.installLeaf how (.identifier k) (.known (s.heap.getKey (object.now s) (.name k.name))) stack
        setup s :=
  bind_of_ok (deref_eq setup object s)

/-- A literal key is known without evaluating anything. -/
theorem propertyKey_literal {key : Expr} {k : Key} (hk : Key.ofLiteral? key = some k)
    (computed : Bool) : E.propertyKey key computed stack = pure k := by
  cases computed with
  | true =>
    show E.memberKey key stack = _
    unfold memberKey
    rw [hk]
  | false =>
    cases key with
    | string _ _ | number _ _ =>
      show pure ((Key.ofLiteral? _).getD .any) = _
      rw [hk]
      rfl
    | _ => cases hk

/-- A property with a literal key binds its target to the slot of that key, as it stands. -/
theorem bindProperty_keyed {key : Expr} {k : Key} (hk : Key.ofLiteral? key = some k)
    (computed : Bool) (target : Pattern) :
    E.bindProperty how object stack (.keyed key computed (.mk target none)) setup s =
      E.bind how target (.known (s.heap.getKey (object.now s) k)) stack setup s := by
  have hkey : E.propertyKey key computed stack setup s = .ok k s := by
    rw [propertyKey_literal hk]
    rfl
  exact (bind_of_ok hkey).trans (bind_of_ok (deref_eq setup object s))

end Evaluator

/-! ## Declarations -/

namespace Setup

open Evaluator

variable {setup : Setup} {stack : Stack} {s t : State} {n : Nat} {e : Expr} {o : Operand}

/-- A declarator binds what its initializer evaluates to. -/
theorem declare_of_resolve (he : (ofFuel n).resolve e stack setup s = .ok o t) (how : Install)
    (p : Pattern) :
    (ofFuel (n + 2)).declare how stack (.mk p (some e)) setup s =
      (ofFuel (n + 1)).bindStep how p o stack setup t :=
  bind_of_ok (resolve_of_le (by omega) he)

/-- Where an expression evaluates to some value, the patterns `{k}` and `{k: x}` bind their
variable to what is in the slot `k` of the value. The member `.k` of the expression binds its
variable to what the possibilities of the slot deliver, which is the slot itself if none of them is
an accessor. -/
theorem destructuring_reads (he : (ofFuel n).resolve e stack setup s = .ok o t) (how : Install)
    (k x : Identifier) {key : Expr} (hk : Key.ofLiteral? key = some (.name k.name))
    (computed : Bool)
    (span member : Span) :
    let slot := t.heap.getKey (o.now t) (.name k.name)
    let install := fun (id : Identifier) (r : Reference) =>
      (ofFuel n).installLeaf how (.identifier id) (.known r) stack setup
    let declare := fun (p : Pattern) (init : Expr) =>
      (ofFuel (n + 2)).declare how stack (.mk p (some init)) setup s
    declare (.object span [.short k none] none) e = install k slot t ∧
    declare (.object span [.keyed key computed (.mk (.leaf (.identifier x)) none)] none) e =
      install x slot t ∧
    ((∀ v ∈ slot, t.heap.accessor? v = none) →
      declare (.leaf (.identifier x)) (.dot member e k.name) = install x slot t) ∧
    ∀ s', declare (.leaf (.identifier x)) (.dot member e k.name) = .ok () s' ↔
      ∃ rs t', Delivers setup (ofFuel (n + 1)) o (.ofExpr (.dot member e k.name))
        slot.values t rs t' ∧
        install x (.unionAll rs) t' = .ok () s' := by
  intro slot install declare
  have hinstall : ∀ (E : Evaluator) (id : Identifier) (r : Reference) (t : State),
      E.installLeaf how (.identifier id) (.known r) stack setup t = install id r t :=
    fun E id r t => congrFun (congrFun (installLeaf_name (ofFuel n) id) setup) t
  -- the object of the member is evaluated like the initializer of the patterns
  have hmember : ∀ {out : Operand} {t' : State},
      (ofFuel (n + 1)).readMember o (.name k.name) (.ofExpr (.dot member e k.name)) setup t =
        .ok out t' →
      declare (.leaf (.identifier x)) (.dot member e k.name) =
        (ofFuel (n + 1)).installLeaf how (.identifier x) out stack setup t' := by
    intro out t' hout
    have htarget : (ofFuel (n + 1)).memberTarget (.dot member e k.name) stack setup s =
        .ok (o, .name k.name) t := bind_of_ok (resolve_of_le (by omega) he)
    exact bind_of_ok (x := (ofFuel (n + 2)).resolve (.dot member e k.name) stack)
      ((bind_of_ok htarget).trans hout)
  have hread : ∀ {rs t'},
      Delivers setup (ofFuel (n + 1)) o (.ofExpr (.dot member e k.name)) slot.values t rs t' →
      declare (.leaf (.identifier x)) (.dot member e k.name) = install x (.unionAll rs) t' :=
    fun hrs => (hmember (readMember_eq_ok.2 ⟨_, hrs, rfl⟩)).trans (hinstall ..)
  refine ⟨?_, ?_, fun hplain => ?_, fun s' => ⟨fun h => ?_, fun ⟨rs, t', hrs, h⟩ => ?_⟩⟩
  · exact (declare_of_resolve he how _).trans
      ((bindStep_property _).trans ((bindProperty_short k).trans (hinstall ..)))
  · exact (declare_of_resolve he how _).trans ((bindStep_property _).trans
      ((bindProperty_keyed hk computed _).trans ((bindStep_leaf x).trans (hinstall ..))))
  · rw [hread (.of_plain hplain), Reference.unionAll_singles]
  · obtain ⟨out, t₁, hout, -⟩ := ok_of_bind h
    obtain ⟨m, t₂, hm, hread'⟩ := ok_of_bind hout
    obtain ⟨o', t₃, ho, hend⟩ := ok_of_bind hm
    cases hend
    cases (resolve_of_le (m := n + 1) (by omega) he).symm.trans ho
    obtain ⟨rs, hrs, -⟩ := readMember_eq_ok.1 hread'
    exact ⟨rs, t₁, hrs, (hread hrs).symm.trans h⟩
  · rw [hread hrs, h]

end Setup

/-- The program that declares a variable `p` and assigns to `p.x`. The global `g` is an empty
object. -/
def declaringRead (p : Pattern) (init : Expr) : Setup where
  options := Options.standard
  programs := #[.ofProgram
    ⟨"script", "const \x7bp\x7d = \x7bget p() \x7b return g; \x7d\x7d; p.x = 1;",
    [.declareLexical ⟨0, 36⟩ [.mk p (some init)],
      .expression (.assign ⟨37, 44⟩ .plain (.leaf (.dot ⟨37, 40⟩ (.identifier ⟨"p", ⟨37, 38⟩⟩) "x"))
        (.number ⟨43, 44⟩ (some (.ofNat 1))))]⟩]
  graph := emptyGlobal
  resolver := none
  canceled := false

/-- The object `{p: g}`. -/
def dataProperty : Expr :=
  .object ⟨12, 18⟩ [.keyed (.string ⟨13, 14⟩ "p") false .value (.identifier ⟨"g", ⟨16, 17⟩⟩)]

/-- The object `{get p() { return g; }}`. -/
def getterProperty : Expr :=
  .object ⟨12, 35⟩ [.keyed (.string ⟨17, 18⟩ "p") false .getter (.function (.mk ⟨13, 34⟩ false none
    (.mk ⟨18, 20⟩ [] none) (.block (.mk ⟨21, 34⟩
      [.returnWith ⟨23, 32⟩ (some (.identifier ⟨"g", ⟨30, 31⟩⟩))]))))]

/-- The pattern `{p}`. -/
def shortPattern : Pattern := .object ⟨6, 9⟩ [.short ⟨"p", ⟨7, 8⟩⟩ none] none

/-- The pattern `{p: p}`. -/
def keyedPattern : Pattern :=
  .object ⟨6, 9⟩ [.keyed (.string ⟨7, 8⟩ "p") false
    (.mk (.leaf (.identifier ⟨"p", ⟨7, 8⟩⟩)) none)] none

/-- There is no accessor in the object `{p: g}`, and all forms declare the same variable. -/
theorem destructuring_reads_dataProperty :
    let setup := declaringRead shortPattern dataProperty
    let s := setup.stateAfter (newGlobals (.container 0)) .start
    let declare := fun (p : Pattern) (init : Expr) =>
      (Evaluator.ofFuel 10).declare .lexical [0] (.mk p (some init)) setup s
    ∃ o t, (Evaluator.ofFuel 8).resolve dataProperty [0] setup s = .ok o t ∧
      (∀ v ∈ t.heap.getKey (o.now t) (.name "p"), t.heap.accessor? v = none) ∧
      declare shortPattern dataProperty = declare keyedPattern dataProperty ∧
      declare shortPattern dataProperty =
        declare (.leaf (.identifier ⟨"p", ⟨7, 8⟩⟩)) (.dot ⟨12, 20⟩ dataProperty "p") := by
  intro setup s declare
  have hrun : (match (Evaluator.ofFuel 8).resolve dataProperty [0] setup s with
      | .ok o t => (t.heap.getKey (o.now t) (.name "p")).values.all fun v =>
          (t.heap.accessor? v).isNone
      | .error _ _ => false) = true := by
    decide +kernel
  cases he : (Evaluator.ofFuel 8).resolve dataProperty [0] setup s with
  | error e t =>
    rw [he] at hrun
    cases hrun
  | ok o t =>
    rw [he] at hrun
    have hplain : ∀ v ∈ t.heap.getKey (o.now t) (.name "p"), t.heap.accessor? v = none :=
      fun v hv => Option.isNone_iff_eq_none.1 (List.all_eq_true.1 hrun v hv)
    obtain ⟨hshort, hkeyed, hmember, -⟩ := Setup.destructuring_reads he .lexical ⟨"p", ⟨7, 8⟩⟩
      ⟨"p", ⟨7, 8⟩⟩ (show Key.ofLiteral? (.string ⟨7, 8⟩ "p") = some (.name "p") from rfl) false
      ⟨6, 9⟩ ⟨12, 20⟩
    exact ⟨o, t, rfl, hplain, hshort.trans hkeyed.symm, hshort.trans (hmember hplain).symm⟩

/-- A getter yields the global. Behind the member read the write to it is reported, and behind the
patterns it is missed. -/
theorem getterPattern_unreported :
    ((declaringRead (.leaf (.identifier ⟨"p", ⟨7, 8⟩⟩)) (.dot ⟨12, 37⟩ getterProperty "p")).analyze
      (.container 0)).1.toOption =
        some ⟨[⟨"Cannot assign to property of global value g", ⟨37, 44⟩, "g"⟩], []⟩ ∧
    ((declaringRead shortPattern getterProperty).analyze (.container 0)).1.toOption =
        some ⟨[], []⟩ ∧
    ((declaringRead keyedPattern getterProperty).analyze (.container 0)).1.toOption =
        some ⟨[], []⟩ := by
  decide +kernel

end FrozenGlobals
