import FrozenGlobals.Proofs.Activation.Declaring
import FrozenGlobals.Proofs.Analysis.SpreadArguments
import FrozenGlobals.Proofs.Discipline.Audit
import FrozenGlobals.Proofs.Script.Declared

/-!
# Watched activations

A watched activation fails if the target of a `var` declaration was bound otherwise than it should
be (`Setup.Binds`). `Evaluator.watching` watches the statements of one activation, at all levels.
What they evaluate and call is not watched: calls are activations of their own.

Watching disturbs nothing (`Setup.Undisturbed`). A statement is run where frames of the activation
bind the names that it declares, and so are its parts: a block declares its names in the function
body or program around it (`Evaluator.undisturbed_walkStep`, `Evaluator.watches_watching`). An
activation begins that way, since the frame of a call binds the parameters and the template of a
function body or a program has all other names that are declared in it
(`Evaluator.undisturbed_callFunction`, `Evaluator.undisturbed_runProgram`).
-/

namespace FrozenGlobals

open Run Evaluator Discipline
open Script (Node Stmt Expr Pattern ScopeTemplate)

/-! ## Watching -/

open Classical in
/-- Fails if a step ended but did not lead from one state to another as it should. -/
noncomputable def Run.checked (ok : Setup → State → State → Prop) (fault : Failure) (x : Run Unit) :
    Run Unit := fun setup s =>
  match x setup s with
  | .ok a s' => if ok setup s s' then .ok a s' else .error fault s'
  | .error f s' => .error f s'

namespace Evaluator

/-- An evaluator that checks what `var` declarations of an activation do, and runs statements in a
way of its own. -/
noncomputable def watch (a : Activation) (fault : Failure) (E : Evaluator)
    (walk : Bool → Stmt → Stack → Run Reference) : Evaluator where
  resolve := E.resolve
  bind how target init stack :=
    match how with
    | .variable =>
        (E.bind .variable target init stack).checked
          (fun setup s s' => setup.Binds a stack target init target.names s s') fault
    | how => E.bind how target init stack
  walk := walk
  invoke := E.invoke

/-- An evaluator whose activities nest at most `fuel` deep and that watches an activation at all
levels. -/
noncomputable def watching (a : Activation) (fault : Failure) : Nat → Evaluator
  | 0 => watch a fault (ofFuel 0) (ofFuel 0).walk
  | fuel + 1 => watch a fault (ofFuel (fuel + 1)) (watching a fault fuel).walkStep

/-- Statements apart, a watching evaluator is one that watches over an ordinary one. -/
theorem watching_eq (a : Activation) (fault : Failure) (n : Nat) :
    watching a fault n = watch a fault (ofFuel n) (watching a fault n).walk := by
  cases n <;> rfl

end Evaluator

/-! ## Computations that are not disturbed -/

/-- From a state, a second computation does what the first one does, which keeps slots and
bindings. -/
structure Setup.Undisturbed {α : Type} (setup : Setup) (s : State) (x x' : Run α) : Prop where
  eq : x' setup s = x setup s
  keeps : ∀ a t, x setup s = .ok a t → s.Keeps t

namespace Setup.Undisturbed

variable {α β : Type} {setup : Setup} {s : State} {x x' : Run α} {f f' : α → Run β}

/-- What is not watched is not disturbed. -/
theorem plain (h : ∀ p, (Discipline.keeping setup).Keeps p x fun _ => True) :
    setup.Undisturbed s x x := ⟨rfl, fun _ _ hx => .of_ok hx h⟩

/-- Computations one after another are not disturbed if each of them is not. -/
theorem bind (hx : setup.Undisturbed s x x')
    (hf : ∀ a t, x setup s = .ok a t → s.Keeps t → setup.Undisturbed t (f a) (f' a)) :
    setup.Undisturbed s (x >>= f) (x' >>= f') := by
  cases hxs : x setup s with
  | ok a t =>
    have h := hf a t hxs (hx.keeps a t hxs)
    refine ⟨?_, fun b u hu => ?_⟩
    · rw [bind_of_ok hxs, bind_of_ok (hx.eq.trans hxs)]
      exact h.eq
    · rw [bind_of_ok hxs] at hu
      exact (hx.keeps a t hxs).trans (h.keeps b u hu)
  | error e t =>
    refine ⟨?_, fun b u hu => ?_⟩
    · rw [bind_of_error hxs, bind_of_error (hx.eq.trans hxs)]
    · rw [bind_of_error hxs] at hu
      cases hu

/-- A result at hand is not disturbed. -/
theorem pure (a : α) : setup.Undisturbed s (Pure.pure a) (Pure.pure a) :=
  plain fun _ => .pure trivial

/-- Computations that read the state are not disturbed if they are not from that state. -/
theorem get {f f' : State → Run β} (h : setup.Undisturbed s (f s) (f' s)) :
    setup.Undisturbed s (MonadState.get >>= f) (MonadState.get >>= f') := ⟨h.eq, h.keeps⟩

/-- Computations that read the setup are not disturbed if they are not for that setup. -/
theorem read {f f' : Setup → Run β} (h : setup.Undisturbed s (f setup) (f' setup)) :
    setup.Undisturbed s (MonadReader.read >>= f) (MonadReader.read >>= f') := ⟨h.eq, h.keeps⟩

/-- A loop is not disturbed if its rounds are not. -/
theorem forM {xs : List α} {f f' : α → Run Unit}
    (h : ∀ x ∈ xs, ∀ t, s.Keeps t → setup.Undisturbed t (f x) (f' x)) :
    setup.Undisturbed s (xs.forM f) (xs.forM f') := by
  induction xs generalizing s with
  | nil => exact pure ()
  | cons x xs ih =>
    rw [List.forM_eq_forM, List.forM_cons, List.forM_cons]
    refine (h x List.mem_cons_self s (.refl s)).bind fun _ t _ hk => ?_
    exact ih fun y hy u hu => h y (.tail x hy) u (hk.trans hu)

/-- A loop that carries a value is not disturbed if its rounds are not. -/
theorem foldlM {xs : List α} {f f' : β → α → Run β} {b : β}
    (h : ∀ x ∈ xs, ∀ b t, s.Keeps t → setup.Undisturbed t (f b x) (f' b x)) :
    setup.Undisturbed s (xs.foldlM f b) (xs.foldlM f' b) := by
  induction xs generalizing s b with
  | nil => exact pure b
  | cons x xs ih =>
    rw [List.foldlM_cons, List.foldlM_cons]
    refine (h x List.mem_cons_self b s (.refl s)).bind fun _ t _ hk => ?_
    exact ih fun y hy b u hu => h y (.tail x hy) b u (hk.trans hu)

/-- Brackets keep slots and bindings. -/
theorem bracket {y y' : Run α} (u : State) (leave : State → State)
    (hy : y setup s = x.restoring leave setup u) (hy' : y' setup s = x'.restoring leave setup u)
    (henter : s.Keeps u) (hleave : ∀ t : State, t.Keeps (leave t)) (h : setup.Undisturbed u x x') :
    setup.Undisturbed s y y' := by
  refine ⟨?_, fun a t hyt => ?_⟩
  · rw [hy, hy', restoring, restoring, h.eq]
  · rw [hy, restoring] at hyt
    cases hxu : x setup u with
    | ok b v =>
      rw [hxu] at hyt
      cases hyt
      exact (henter.trans (h.keeps _ v hxu)).trans (hleave v)
    | error e v =>
      rw [hxu] at hyt
      cases hyt

/-- Code of another program is not disturbed if it is not where that program is the current one. -/
theorem inUnit (u : Nat) (h : setup.Undisturbed { s with unit := u } x x') :
    setup.Undisturbed s (x.inUnit u) (x'.inUnit u) :=
  bracket { s with unit := u } ({ · with unit := s.unit }) rfl rfl
    ⟨.refl _, fun _ => id⟩ (fun _ => ⟨.refl _, fun _ => id⟩) h

/-- The body of a call is not disturbed if it is not one level deeper. -/
theorem counted (key : FunctionKey) (h : setup.Undisturbed (s.called key) x x') :
    setup.Undisturbed s (x.counted key) (x'.counted key) :=
  bracket (s.called key) (State.returned · key) rfl rfl
    ⟨.refl _, fun _ => id⟩ (fun _ => ⟨.refl _, fun _ => id⟩) h

end Setup.Undisturbed

/-- An analysis that goes on was not canceled, and the check changed nothing. -/
theorem Run.ok_of_checkCanceled {setup : Setup} {s s' : State}
    (h : checkCanceled setup s = .ok () s') : s' = s := by
  rw [checkCanceled_eq] at h
  split at h <;> cases h
  rfl

/-- A template is one of the current program. -/
theorem Run.ok_of_template {setup : Setup} {s s' : State} {start : Int} {t : ScopeTemplate}
    (h : template start setup s = .ok t s') :
    s' = s ∧ ∃ p, setup.programs[s.unit]? = some p ∧ p.hoisting.find? start = some t := by
  unfold template at h
  rw [read_bind, get_bind] at h
  cases hp : setup.programs[s.unit]? with
  | none =>
    rw [hp] at h
    cases h
  | some p =>
    rw [hp] at h
    dsimp only at h
    cases ht : p.hoisting.find? start with
    | none =>
      rw [ht] at h
      cases h
    | some t' =>
      rw [ht] at h
      cases h
      exact ⟨rfl, p, rfl, ht⟩

/-! ## Frames -/

namespace Activation

variable {setup : Setup} {a : Activation} {stack : Stack} {names : List String} {s : State}

/-- A frame that is pushed is one of the activation. -/
theorem Hosts.newFrame {f : Frame} (more : List String) (h : a.Hosts stack names s)
    (hmore : ∀ name ∈ more, (f.find? name).isSome) :
    a.Hosts (s.heap.frames.size :: stack) (more ++ names)
      { s with heap := (s.heap.addFrame f).2 } := by
  refine (h.keeps (.withHeap (Heap.keeps_addFrame ..))).push h.begun fun name hname => ?_
  have hframe : (s.heap.addFrame f).2.frame s.heap.frames.size = f := by
    simp [Heap.frame, Heap.addFrame]
  show (((s.heap.addFrame f).2.frame s.heap.frames.size).find? name).isSome
  rw [hframe]
  exact hmore name hname

/-- A frame that is pushed is one of the activation, and names bound below it stay bound. -/
theorem Hosts.pushFrame {inner : Stack} {t : State} (h : a.Hosts stack names s)
    (hpush : Run.pushFrame stack setup s = .ok inner t) : a.Hosts inner names t := by
  cases hpush
  exact h.newFrame [] nofun

/-- The `var` names of a template are bound in the frame that is made from it. -/
theorem isSome_find?_foldl_define {name : String} {vars : List String} (f : Frame)
    (h : name ∈ vars ∨ (f.find? name).isSome) :
    ((vars.foldl (fun f name => f.define name (.known .empty)) f).find? name).isSome := by
  induction vars generalizing f with
  | nil => exact h.resolve_left List.not_mem_nil
  | cons var vars ih =>
    refine ih _ ?_
    rw [Frame.find?_define]
    rcases h with h | h
    · rcases List.mem_cons.1 h with rfl | h
      · exact .inr (by rw [if_pos rfl]; rfl)
      · exact .inl h
    · split
      · exact .inr rfl
      · exact .inr h

/-- A frame made from a template is one of the activation and binds the `var` names of the
template. -/
theorem Hosts.instantiate {template : ScopeTemplate} {inner : Stack} {t : State}
    (h : a.Hosts stack names s) (hrun : Run.instantiate template stack setup s = .ok inner t) :
    a.Hosts inner (template.vars ++ names) t := by
  obtain ⟨frame, u, hframe, hrun⟩ := ok_of_bind hrun
  cases hframe
  obtain ⟨_, v, hfunctions, hrun⟩ := ok_of_bind hrun
  cases hrun
  have hhosts := h.newFrame template.vars fun name hname =>
    isSome_find?_foldl_define .empty (.inl hname)
  refine hhosts.keeps (State.Keeps.of_ok hfunctions fun p => .forM fun fn _ => ?_)
  cases fn.name with
  | none => exact .pure trivial
  | some id => exact (Agree.newFunction trivial trivial).bind fun _ _ => .define ..

end Activation

namespace Setup.Undisturbed

variable {α : Type} {setup : Setup} {a : Activation} {stack : Stack}
    {names : List String} {s : State}

/-- The template of a block of the current program is found before something else is done. -/
theorem template {start : Int} {f f' : ScopeTemplate → Run α}
    (hf : ∀ p t, setup.programs[s.unit]? = some p → p.hoisting.find? start = some t →
      setup.Undisturbed s (f t) (f' t)) :
    setup.Undisturbed s (Run.template start >>= f) (Run.template start >>= f') := by
  refine bind (plain fun _ => (Agree.template trivial).imp fun _ _ => trivial) fun t u ht _ => ?_
  obtain ⟨rfl, p, hp, hfind⟩ := ok_of_template ht
  exact hf p t hp hfind

/-- A frame of the activation is pushed before something else is done. -/
theorem pushFrame {f f' : Stack → Run α} (h : a.Hosts stack names s)
    (hf : ∀ inner t, a.Hosts inner names t → setup.Undisturbed t (f inner) (f' inner)) :
    setup.Undisturbed s (Run.pushFrame stack >>= f) (Run.pushFrame stack >>= f') :=
  bind (plain fun _ => (Agree.pushFrame trivial).imp fun _ _ => trivial)
    fun inner t hinner _ => hf inner t (h.pushFrame hinner)

/-- A frame of the activation is made from a template before something else is done. -/
theorem instantiate {t : ScopeTemplate} {f f' : Stack → Run α} (h : a.Hosts stack names s)
    (hf : ∀ inner u, a.Hosts inner (t.vars ++ names) u → setup.Undisturbed u (f inner) (f' inner)) :
    setup.Undisturbed s (Run.instantiate t stack >>= f) (Run.instantiate t stack >>= f') :=
  bind (plain fun _ =>
      (Agree.instantiate (fun _ => trivial) fun _ _ => trivial).imp fun _ _ => trivial)
    fun inner u hinner _ => hf inner u (h.instantiate hinner)

end Setup.Undisturbed

/-! ## Names that statements declare -/

namespace Script.Node

variable {n c : Node}

/-- What a node visits around it declares names that the node declares. -/
theorem hoistedVars_subset_of_around (hc : c ∈ n.hoistStep.around) :
    c.hoistedVars ⊆ n.hoistedVars := by
  intro name hname
  rw [hoistedVars_eq n, List.mem_append, List.mem_append]
  exact .inl (.inr (List.mem_flatMap.2 ⟨c, hc, hname⟩))

/-- What a block declares is declared in the function body or program around it. -/
theorem hoistedVars_subset_of_inside (hp : n.hoistStep.params = none)
    (hc : c ∈ n.hoistStep.inside) :
    c.hoistedVars ⊆ n.hoistedVars := by
  intro name hname
  rw [hoistedVars_eq n, hp, List.mem_append]
  exact .inr (List.mem_flatMap.2 ⟨c, hc, hname⟩)

/-- The names in the step of a node are declared by the node. -/
theorem vars_subset_hoistedVars (n : Node) : n.hoistStep.vars ⊆ n.hoistedVars := by
  intro name hname
  rw [hoistedVars_eq, List.mem_append, List.mem_append]
  exact .inl (.inl hname)

end Script.Node

/-! ## Statements of a watched activation -/

namespace Evaluator

/-- Statements of an activation that binds the names that they declare are not disturbed. -/
def Watches (setup : Setup) (a : Activation) (n : Nat)
    (walk : Bool → Stmt → Stack → Run Reference) :
    Prop :=
  ∀ {fold st stack s}, a.Hosts stack (Node.stmt st).hoistedVars s →
    setup.Undisturbed s ((ofFuel n).walk fold st stack) (walk fold st stack)

section
variable {setup : Setup} {a : Activation} {fault : Failure} {n : Nat}
  {walk : Bool → Stmt → Stack → Run Reference} {stack : Stack} {names : List String} {s : State}

/-- The value of an expression is not watched. -/
theorem undisturbed_value (e : Expr) :
    setup.Undisturbed s ((ofFuel n).value e stack)
      ((watch a fault (ofFuel n) walk).value e stack) :=
  .plain fun _ => (agrees_keeping setup n).value trivial trivial

/-- An expression evaluated for its effects is not watched. -/
theorem undisturbed_visit (e : Expr) :
    setup.Undisturbed s ((ofFuel n).visit e stack)
      ((watch a fault (ofFuel n) walk).visit e stack) :=
  .plain fun _ => (agrees_keeping setup n).visit trivial trivial

/-- An expression that may be left out is not watched either. -/
theorem undisturbed_visit? (e : Option Expr) :
    setup.Undisturbed s ((ofFuel n).visit? e stack)
      ((watch a fault (ofFuel n) walk).visit? e stack) :=
  .plain fun _ => (agrees_keeping setup n).visit? trivial fun _ _ => trivial

/-- The operand of an expression that may be left out is not watched. -/
theorem undisturbed_resolve? (e : Option Expr) :
    setup.Undisturbed s ((ofFuel n).resolve? e stack)
      ((watch a fault (ofFuel n) walk).resolve? e stack) :=
  .plain fun _ => (agrees_keeping setup n).resolve? trivial fun _ _ => trivial

section
variable (hstrict : setup.options.strict = true)
include hstrict

/-- A check that a target was bound as it should be finds nothing. -/
theorem undisturbed_bind (target : Pattern) (init : Operand) (h : a.Hosts stack target.names s) :
    setup.Undisturbed s ((ofFuel n).bind .variable target init stack)
      ((watch a fault (ofFuel n) walk).bind .variable target init stack) := by
  refine ⟨?_, fun _ _ hx => .of_ok hx fun p =>
    (agrees_keeping setup n).bind trivial ((Discipline.keeping setup).installs_variable p) trivial⟩
  unfold watch Run.checked
  dsimp only
  cases hx : (ofFuel n).bind .variable target init stack setup s with
  | ok _ s' => exact if_pos (declaring_ofFuel hstrict a stack n target init s s' h hx)
  | error e s' => rfl

/-- A `var` declarator is not disturbed where its names are bound in the activation. -/
theorem undisturbed_declare (b : Script.Binding) (h : a.Hosts stack b.target.names s) :
    setup.Undisturbed s ((ofFuel n).declare .variable stack b)
      ((watch a fault (ofFuel n) walk).declare .variable stack b) :=
  (undisturbed_resolve? b.init).bind fun init _ _ hk =>
    undisturbed_bind hstrict b.target init (h.keeps hk)

/-- A `var` declaration is not disturbed where its names are bound in the activation. -/
theorem undisturbed_declareAll {bindings : List Script.Binding}
    (h : a.Hosts stack (Script.Binding.names bindings) s) :
    setup.Undisturbed s (bindings.forM ((ofFuel n).declare .variable stack))
      (bindings.forM ((watch a fault (ofFuel n) walk).declare .variable stack)) :=
  .forM fun b hb _ hk => undisturbed_declare hstrict b <| (h.keeps hk).subset fun _ hname =>
    List.mem_flatten.2 ⟨_, List.mem_map_of_mem hb, hname⟩

omit hstrict in
/-- Lexical declarations are not watched. -/
theorem undisturbed_declareLexical (bindings : List Script.Binding) :
    setup.Undisturbed s (bindings.forM ((ofFuel n).declare .lexical stack))
      (bindings.forM ((watch a fault (ofFuel n) walk).declare .lexical stack)) :=
  .plain fun p => (agrees_keeping setup n).declareAll trivial
    ((Discipline.keeping setup).installs_lexical p) fun _ _ _ _ => trivial

/-- The head of a `for` loop is not disturbed where its names are bound in the activation. -/
theorem undisturbed_forInit (init : Option Script.ForInit)
    (h : ∀ i ∈ init, a.Hosts stack (Node.forInit i).hoistedVars s) :
    setup.Undisturbed s ((ofFuel n).forInit init stack)
      ((watch a fault (ofFuel n) walk).forInit init stack) := by
  unfold forInit
  cases init with
  | none => exact .pure ()
  | some init =>
    cases init with
    | expression e => exact undisturbed_visit e
    | declareVar bindings =>
      exact undisturbed_declareAll hstrict
        ((h _ rfl).subset (Node.vars_subset_hoistedVars (.forInit (.declareVar bindings))))
    | declareLexical span bindings => exact undisturbed_declareLexical bindings

/-- The target of a loop is not disturbed where its names are bound in the activation. -/
theorem undisturbed_forTarget (target : Script.ForTarget) (value : Operand) (site : Site)
    (h : a.Hosts stack (Node.forTarget target).hoistedVars s) :
    setup.Undisturbed s ((ofFuel n).forTarget target value site stack)
      ((watch a fault (ofFuel n) walk).forTarget target value site stack) := by
  unfold forTarget
  cases target with
  | declareVar b =>
    exact undisturbed_bind hstrict b.target value
      (h.subset (Node.vars_subset_hoistedVars (.forTarget (.declareVar b))))
  | declareLexical start target =>
    exact .plain fun p => (agrees_keeping setup n).bind trivial
      ((Discipline.keeping setup).installs_lexical p) trivial
  | assign target =>
    cases target with
    | leaf e =>
      exact .plain fun p => (agrees_keeping setup n).assignTo trivial (fun _ _ _ => trivial)
        (fun _ => trivial) value trivial
    | _ => exact .plain fun p => .unsupported ..

end

variable (hwalk : Watches setup a n walk)
include hwalk

/-- Statements in sequence are not disturbed where their names are bound in the activation. -/
theorem undisturbed_walkAll (fold : Bool) {body : List Stmt}
    (h : ∀ st ∈ body, a.Hosts stack (Node.stmt st).hoistedVars s) :
    setup.Undisturbed s ((ofFuel n).walkAll fold body stack)
      ((watch a fault (ofFuel n) walk).walkAll fold body stack) :=
  .foldlM fun st hst _ _ hk => (hwalk ((h st hst).keeps hk)).bind fun _ _ _ _ => .pure _

/-- A block is not disturbed if its own template, or frames around it, bind what its statements
declare. -/
theorem undisturbed_walkBlock (fold : Bool) {b : Script.Block} (h : a.Hosts stack names s)
    (hb : ∀ p t, setup.programs[s.unit]? = some p → p.hoisting.find? b.start = some t →
      ∀ st ∈ b.body, (Node.stmt st).hoistedVars ⊆ t.vars ++ names) :
    setup.Undisturbed s ((ofFuel n).walkBlock fold b stack)
      ((watch a fault (ofFuel n) walk).walkBlock fold b stack) := by
  unfold walkBlock
  refine Setup.Undisturbed.bind (.plain fun _ => .checkCanceled) fun _ t ht _ => ?_
  obtain rfl := ok_of_checkCanceled ht
  refine .template fun p template hp hfind => ?_
  refine Setup.Undisturbed.bind (.plain fun _ => .log) fun _ u _ hlog => ?_
  refine .instantiate (h.keeps hlog) fun inner v hinner => ?_
  exact undisturbed_walkAll hwalk fold fun st hst => hinner.subset (hb p template hp hfind st hst)

/-- A block that is not the body of a function declares its names around it. -/
theorem undisturbed_block (fold : Bool) {b : Script.Block}
    (h : a.Hosts stack (Node.block b).hoistedVars s) :
    setup.Undisturbed s ((ofFuel n).walkBlock fold b stack)
      ((watch a fault (ofFuel n) walk).walkBlock fold b stack) := by
  refine undisturbed_walkBlock hwalk fold h fun _ t _ _ st hst => ?_
  refine List.subset_append_of_subset_right _ ?_
  exact Node.hoistedVars_subset_of_inside (n := .block b) rfl (List.mem_map_of_mem hst)

/-- The clauses of a `switch` are not disturbed where their names are bound in the activation. -/
theorem undisturbed_walkCases (fold : Bool) {cases : List Script.Case}
    (h : ∀ c ∈ cases, a.Hosts stack (Node.clause c).hoistedVars s) :
    setup.Undisturbed s ((ofFuel n).walkCases fold cases stack)
      ((watch a fault (ofFuel n) walk).walkCases fold cases stack) := by
  refine .foldlM fun clause hclause result t hk => ?_
  have hc := (h clause hclause).keeps hk
  obtain ⟨start, test, body⟩ := clause
  refine (undisturbed_visit? test).bind fun _ u _ hk' => ?_
  refine (undisturbed_walkAll hwalk fold fun st hst => (hc.keeps hk').subset ?_).bind
    fun _ _ _ _ => .pure _
  refine Node.hoistedVars_subset_of_around ?_
  simp [Node.hoistStep, Script.HoistStep.through, Node.children, hst]

/-- A `catch` clause is not disturbed where its names are bound in the activation. -/
theorem undisturbed_walkCatch (fold : Bool) (handler : Option Script.Catch)
    (h : ∀ c ∈ handler, a.Hosts stack (Node.handler c).hoistedVars s) :
    setup.Undisturbed s ((ofFuel n).walkCatch fold handler stack)
      ((watch a fault (ofFuel n) walk).walkCatch fold handler stack) := by
  unfold walkCatch
  cases handler with
  | none => exact .pure _
  | some handler =>
    have hhandler := h handler rfl
    obtain ⟨start, parameter, body⟩ := handler
    have hbody : (Node.block body).hoistedVars ⊆ _ :=
      Node.hoistedVars_subset_of_around (n := .handler (.mk start parameter body))
        (by simp [Node.hoistStep, Script.HoistStep.through, Node.children])
    refine .pushFrame (hhandler.subset hbody) fun inner t hinner => ?_
    cases parameter with
    | none => exact undisturbed_block hwalk fold hinner
    | some target =>
      refine Setup.Undisturbed.bind (.plain fun p => (agrees_keeping setup n).bind trivial
        ((Discipline.keeping setup).installs_lexical p) trivial) fun _ u _ hk => ?_
      exact undisturbed_block hwalk fold (hinner.keeps hk)

omit hwalk in
/-- What binds the names of a node binds those of what stands in it, blocks apart. -/
theorem hosts_around {c d : Node} {t : State} (hc : c ∈ d.hoistStep.around)
    (h : a.Hosts stack d.hoistedVars t) : a.Hosts stack c.hoistedVars t :=
  h.subset (Node.hoistedVars_subset_of_around hc)

/-- Both branches of a conditional statement are run. -/
theorem undisturbed_ifElse (fold : Bool) {span : Script.Span} {test : Expr} {yes : Stmt}
    {no : Option Stmt} (h : a.Hosts stack (Node.stmt (.ifElse span test yes no)).hoistedVars s) :
    setup.Undisturbed s ((ofFuel n).walkStep fold (.ifElse span test yes no) stack)
      ((watch a fault (ofFuel n) walk).walkStep fold (.ifElse span test yes no) stack) := by
  refine (undisturbed_visit test).bind fun _ t _ hk => ?_
  refine (hwalk (hosts_around ?_ (h.keeps hk))).bind fun _ u _ hk' => ?_
  · simp [Node.hoistStep, Script.HoistStep.through, Node.children, Stmt.children]
  cases no with
  | none => exact .pure _
  | some no =>
    refine (hwalk (hosts_around ?_ ((h.keeps hk).keeps hk'))).bind fun _ _ _ _ => .pure _
    simp [Node.hoistStep, Script.HoistStep.through, Node.children, Stmt.children]

/-- The head of a `for` loop may declare, in the frame of the loop or around it. -/
theorem undisturbed_forLoop (hstrict : setup.options.strict = true) (fold : Bool)
    {span : Script.Span} {init : Option Script.ForInit} {test update : Option Expr} {body : Stmt}
    (h : a.Hosts stack (Node.stmt (.forLoop span init test update body)).hoistedVars s) :
    setup.Undisturbed s ((ofFuel n).walkStep fold (.forLoop span init test update body) stack)
      ((watch a fault (ofFuel n) walk).walkStep fold (.forLoop span init test update body)
        stack) := by
  refine .pushFrame h fun inner t h => ?_
  refine (undisturbed_forInit hstrict init fun i hi => hosts_around ?_ h).bind fun _ u _ hk => ?_
  · simp_all [Node.hoistStep, Script.HoistStep.through, Node.children, Stmt.children]
  refine (undisturbed_visit? test).bind fun _ v _ hk' => ?_
  refine (hwalk (hosts_around ?_ ((h.keeps hk).keeps hk'))).bind fun _ _ _ _ => ?_
  · simp [Node.hoistStep, Script.HoistStep.through, Node.children, Stmt.children]
  exact (undisturbed_visit? update).bind fun _ _ _ _ => .pure _

/-- A loop over a collection may declare its variable. -/
theorem undisturbed_forEach (hstrict : setup.options.strict = true) (fold : Bool)
    {span : Script.Span} {kind : Script.LoopKind} {target : Script.ForTarget} {source : Expr}
    {body : Stmt}
    (h : a.Hosts stack (Node.stmt (.forEach span kind target source body)).hoistedVars s) :
    setup.Undisturbed s ((ofFuel n).walkStep fold (.forEach span kind target source body) stack)
      ((watch a fault (ofFuel n) walk).walkStep fold (.forEach span kind target source body)
        stack) := by
  refine .pushFrame h fun inner t h => ?_
  refine (undisturbed_value source).bind fun source u _ hk => ?_
  -- loops of both kinds bind the target and run the body
  have hend : ∀ (value : Operand) (site : Site) (v : State), u.Keeps v → setup.Undisturbed v
      (do
        (ofFuel n).forTarget target value site inner
        (ofFuel n).walk fold body inner)
      (do
        (watch a fault (ofFuel n) walk).forTarget target value site inner
        walk fold body inner) := by
    intro value site v hk'
    have h := (h.keeps hk).keeps hk'
    refine (undisturbed_forTarget hstrict target value site (hosts_around ?_ h)).bind
      fun _ w _ hk => ?_
    · simp [Node.hoistStep, Script.HoistStep.through, Node.children, Stmt.children]
    refine hwalk (hosts_around ?_ (h.keeps hk))
    simp [Node.hoistStep, Script.HoistStep.through, Node.children, Stmt.children]
  cases kind with
  | forOf =>
    refine Setup.Undisturbed.bind (.plain fun _ => (Agree.getKey ..).imp fun _ _ => trivial)
      fun value v _ hk' => ?_
    exact hend (.known value) _ v hk'
  | forIn => exact hend (.known .anyPrimitive) _ u (.refl u)

/-- A `switch` binds the names of its template, and what its clauses declare is declared around
it. -/
theorem undisturbed_switch (fold : Bool) {span : Script.Span} {subject : Expr}
    {cases : List Script.Case}
    (h : a.Hosts stack (Node.stmt (.switchOn span subject cases)).hoistedVars s) :
    setup.Undisturbed s ((ofFuel n).walkStep fold (.switchOn span subject cases) stack)
      ((watch a fault (ofFuel n) walk).walkStep fold (.switchOn span subject cases) stack) := by
  refine (undisturbed_visit subject).bind fun _ t _ hk => ?_
  refine .template fun _ template _ _ => .instantiate (h.keeps hk) fun inner u hinner => ?_
  refine undisturbed_walkCases hwalk fold fun c hc => hinner.subset ?_
  refine List.subset_append_of_subset_right _ ?_
  exact Node.hoistedVars_subset_of_inside (n := .stmt (.switchOn span subject cases)) rfl
    (List.mem_map_of_mem hc)

/-- The block, the handler and the finalizer of a `try` statement declare around it. -/
theorem undisturbed_try (fold : Bool) {span : Script.Span} {body : Script.Block}
    {handler : Option Script.Catch} {finalizer : Option Script.Block}
    (h : a.Hosts stack (Node.stmt (.tryCatch span body handler finalizer)).hoistedVars s) :
    setup.Undisturbed s ((ofFuel n).walkStep fold (.tryCatch span body handler finalizer) stack)
      ((watch a fault (ofFuel n) walk).walkStep fold (.tryCatch span body handler finalizer)
        stack) := by
  refine (undisturbed_block hwalk fold (hosts_around ?_ h)).bind fun _ t _ hk => ?_
  · simp [Node.hoistStep, Script.HoistStep.through, Node.children, Stmt.children]
  refine (undisturbed_walkCatch hwalk fold handler fun c hc => hosts_around ?_ (h.keeps hk)).bind
    fun _ u _ hk' => ?_
  · simp_all [Node.hoistStep, Script.HoistStep.through, Node.children, Stmt.children]
  cases finalizer with
  | none => exact .pure _
  | some b =>
    refine (undisturbed_block hwalk fold (hosts_around ?_ ((h.keeps hk).keeps hk'))).bind
      fun _ _ _ _ => .pure _
    simp [Node.hoistStep, Script.HoistStep.through, Node.children, Stmt.children]

/-- A statement is not disturbed if those one level below are not. -/
theorem undisturbed_walkStep (hstrict : setup.options.strict = true) (fold : Bool) (st : Stmt)
    (h : a.Hosts stack (Node.stmt st).hoistedVars s) :
    setup.Undisturbed s ((ofFuel n).walkStep fold st stack)
      ((watch a fault (ofFuel n) walk).walkStep fold st stack) := by
  cases st with
  | block b =>
    refine undisturbed_block hwalk fold (h.subset ?_)
    rw [Node.hoistedVars_eq (.block b), Node.hoistedVars_eq (.stmt (.block b))]
    exact List.Subset.refl _
  | expression e => exact (undisturbed_value e).bind fun _ _ _ _ => .pure _
  | declareVar span bindings =>
    refine (undisturbed_declareAll hstrict (h.subset ?_)).bind fun _ _ _ _ => .pure _
    exact Node.vars_subset_hoistedVars (.stmt (.declareVar span bindings))
  | declareLexical span bindings =>
    exact (undisturbed_declareLexical bindings).bind fun _ _ _ _ => .pure _
  | declareClass cls =>
    have hclass : ∀ p, (Discipline.keeping setup).Keeps p
        ((ofFuel (n + 1)).walk fold (.declareClass cls) stack) fun _ => True := fun _ =>
      (agrees_keeping setup (n + 1)).walk trivial trivial
    exact .plain hclass
  | returnWith span argument =>
    exact (undisturbed_resolve? argument).bind fun o _ _ _ =>
      .plain fun _ => (Agree.deref o).imp fun _ _ => trivial
  | throwWith span argument =>
    refine (undisturbed_value argument).bind fun value _ _ _ => .plain fun _ => ?_
    exact (Agree.modify fun _ _ _ => .throws value).seq (.pure trivial)
  | ifElse span test yes no => exact undisturbed_ifElse hwalk fold h
  | forLoop span init test update body => exact undisturbed_forLoop hwalk hstrict fold h
  | forEach span kind target source body => exact undisturbed_forEach hwalk hstrict fold h
  | whileLoop span test body =>
    refine (undisturbed_visit test).bind fun _ t _ hk => hwalk (hosts_around ?_ (h.keeps hk))
    simp [Node.hoistStep, Script.HoistStep.through, Node.children, Stmt.children]
  | doWhile span body test =>
    refine (hwalk (hosts_around ?_ h)).bind fun _ _ _ _ =>
      (undisturbed_visit test).bind fun _ _ _ _ => .pure _
    simp [Node.hoistStep, Script.HoistStep.through, Node.children, Stmt.children]
  | switchOn span subject cases => exact undisturbed_switch hwalk fold h
  | tryCatch span body handler finalizer => exact undisturbed_try hwalk fold h
  | labelled span label body =>
    refine hwalk (hosts_around ?_ h)
    simp [Node.hoistStep, Script.HoistStep.through, Node.children, Stmt.children]
  | withObject span object body =>
    refine (undisturbed_visit object).bind fun _ t _ hk => ?_
    refine Setup.Undisturbed.bind (.plain fun _ => .warn) fun _ u _ hk' => ?_
    refine hwalk (hosts_around ?_ ((h.keeps hk).keeps hk'))
    simp [Node.hoistStep, Script.HoistStep.through, Node.children, Stmt.children]
  | declareFunction _ | jump _ | empty _ | debugger _ => exact .pure _

omit hwalk in
/-- The statements of a watched activation are not disturbed, at all levels. -/
theorem watches_watching (hstrict : setup.options.strict = true) (a : Activation)
    (fault : Failure) (n : Nat) :
    Watches setup a n (watching a fault n).walk := by
  induction n with
  | zero => exact fun _ => .plain fun _ => (agrees_keeping setup 0).walk trivial trivial
  | succ n ih =>
    intro fold st stack s h
    show setup.Undisturbed s _ ((watching a fault n).walkStep fold st stack)
    rw [watching_eq]
    exact undisturbed_walkStep ih hstrict fold st h

end

/-! ## Calls and programs -/

section
variable {setup : Setup} (hstrict : setup.options.strict = true) {a : Activation} {n : Nat}
  {stack : Stack} {s s' : State}

include hstrict in
/-- What a strict analysis binds as a parameter is a name, in the frame of the call. -/
theorem isSome_of_bindParam {E : Evaluator} {frame : Nat} {b : Script.Binding} {value : Operand}
    (hframe : frame < s.heap.frames.size)
    (h : E.bindParam frame stack b value (pure ()) setup s = .ok () s') :
    s.Keeps s' ∧ ∀ name ∈ b.target.names, ((s'.heap.frame frame).find? name).isSome := by
  have hno : ∀ {x : Run Unit} {kind span},
      (unsupported .paramBinding kind span >>= fun _ => x) setup s ≠ .ok () s' := by
    intro x kind span h
    obtain ⟨_, t, h, -⟩ := ok_of_bind h
    unfold unsupported at h
    rw [read_bind, if_pos hstrict] at h
    cases h
  obtain ⟨target, init⟩ := b
  cases target with
  | leaf e =>
    cases e with
    | identifier id =>
      cases h
      refine ⟨.withHeap (Heap.keeps_define ..), fun name hname => ?_⟩
      obtain rfl : name = id.name := by
        simpa [Script.Binding.target, Script.Pattern.names] using hname
      show (((s.heap.define frame id.name value).frame frame).find? id.name).isSome
      rw [Heap.frame_define, if_pos ⟨rfl, hframe⟩, Frame.find?_define, if_pos rfl]
      rfl
    | _ => exact absurd h hno
  | array _ _ _ | object _ _ _ => exact absurd h hno

/-- Finding what a parameter is bound to keeps slots and bindings. -/
theorem keeps_taken {p : Position} (n : Nat) (init : Option Expr) (passed : Operand)
    (stack : Stack) :
    (Discipline.keeping setup).Keeps p ((ofFuel n).taken init passed stack) fun _ => True := by
  unfold taken
  cases init with
  | none => exact .pure trivial
  | some init =>
    refine Agree.bind ((agrees_keeping setup n).resolve trivial trivial) fun fallback _ => ?_
    exact (Agree.deref _).bind fun _ _ => (Agree.deref _).bind fun _ _ => .pure trivial

include hstrict in
/-- The frame of a call binds the names of the parameters. -/
theorem isSome_of_bindItems {frame : Nat} {items : List Script.Binding} {args left : List Operand}
    (hframe : frame < s.heap.frames.size)
    (h : (ofFuel n).bindItems frame stack items args setup s = .ok left s') :
    ∀ name ∈ Script.Binding.names items, ((s'.heap.frame frame).find? name).isSome := by
  induction items generalizing args s with
  | nil => exact nofun
  | cons b items ih =>
    rw [bindItems_cons] at h
    obtain ⟨value, t, htaken, h⟩ := ok_of_bind h
    obtain ⟨_, u, hbind, h⟩ := ok_of_bind h
    have htaken : s.Keeps t := State.Keeps.of_ok htaken fun _ => keeps_taken ..
    obtain ⟨hbind, hbound⟩ := isSome_of_bindParam hstrict
      (Nat.lt_of_lt_of_le hframe htaken.heap.frames) hbind
    have hrest : u.Keeps s' := State.Keeps.of_ok h fun _ =>
      (agrees_keeping setup n).bindItems trivial _ (fun _ _ _ _ => trivial) (fun _ _ _ => trivial) _
    intro name hname
    rcases List.mem_append.1 (show name ∈ b.target.names ++ Script.Binding.names items from hname)
      with hname | hname
    · exact hrest.heap.bound (hbound name hname)
    · exact ih (Nat.lt_of_lt_of_le hframe (htaken.trans hbind).heap.frames) h name hname

include hstrict in
/-- The frame of a call binds the name of the rest parameter. -/
theorem isSome_of_bindRestParam {frame : Nat} {params : Script.Params} {left : List Operand}
    (hframe : frame < s.heap.frames.size)
    (h : bindRestParam frame params left setup s = .ok () s') :
    s.Keeps s' ∧ ∀ name ∈ Script.restNames params.rest,
      ((s'.heap.frame frame).find? name).isSome := by
  have hno : ∀ {kind span}, unsupported .paramBinding kind span setup s ≠ .ok () s' := by
    intro kind span h
    unfold unsupported at h
    rw [read_bind, if_pos hstrict] at h
    cases h
  unfold bindRestParam at h
  cases hr : params.rest with
  | none =>
    rw [hr] at h
    cases h
    exact ⟨.refl _, nofun⟩
  | some rest =>
    rw [hr] at h
    cases rest with
    | leaf e =>
      cases e with
      | identifier id =>
        have hkeeps : s.Keeps s' := State.Keeps.of_ok h fun _ =>
          (Agree.derefAll left).bind fun _ _ => (Agrees.arrayOf _).bind fun _ _ => .define ..
        obtain ⟨_, hbound, -⟩ := ok_of_defineArray hframe h
        refine ⟨hkeeps, fun name hname => ?_⟩
        obtain rfl : name = id.name := by
          simpa [Script.restNames, Script.Pattern.names] using hname
        rw [hbound]
        rfl
      | _ => exact absurd h hno
    | array _ _ _ | object _ _ _ => exact absurd h hno

include hstrict in
/-- The frame of a call binds the parameters. -/
theorem hosts_of_bindParams {self : Value} {fn : Closure} {code : Code} {args : List Operand}
    (ha : a.Proper) (houter : a.outer = fn.scope) (hbegun : a.first ≤ s.heap.frames.size)
    (h : (ofFuel n).bindParams self fn code args setup s = .ok stack s') :
    a.Hosts stack code.literal.params.names s' := by
  rw [bindParams_eq] at h
  obtain ⟨frame, t, hopen, h⟩ := ok_of_bind h
  obtain ⟨rfl, hframe, -⟩ := Setup.ok_of_openFrame hopen
  rw [bindParamsIn_eq] at h
  obtain ⟨left, u, hitems, h⟩ := ok_of_bind h
  obtain ⟨_, v, hrest, h⟩ := ok_of_bind h
  cases h
  have hkeeps : t.Keeps u := State.Keeps.of_ok hitems fun _ =>
    (agrees_keeping setup n).bindItems trivial _ (fun _ _ _ _ => trivial) (fun _ _ _ => trivial) _
  have hframe' := Nat.lt_of_lt_of_le hframe hkeeps.heap.frames
  obtain ⟨hkeeps', hbound⟩ := isSome_of_bindRestParam hstrict hframe' hrest
  have hframe'' := Nat.lt_of_lt_of_le hframe' hkeeps'.heap.frames
  refine ⟨ha, by omega, [s.heap.frames.size], by rw [houter]; rfl, by simpa using hbegun,
    fun name hname => ⟨_, List.mem_singleton_self _, ?_⟩⟩
  rcases List.mem_append.1 hname with hname | hname
  · exact hkeeps'.heap.bound (isSome_of_bindItems hstrict hframe hitems name hname)
  · exact hbound name hname

end

end Evaluator

/-- Parameters are not watched. -/
theorem Evaluator.bindParams_watching (a : Activation) (fault : Failure) (n : Nat) (self : Value)
    (fn : Closure) (code : Code) (args : List Operand) :
    (watching a fault n).bindParams self fn code args =
      (ofFuel n).bindParams self fn code args := by
  have hitems : ∀ (frame : Nat) (stack : Stack) (items : List Script.Binding) (args : List Operand),
      (watching a fault n).bindItems frame stack items args =
        (ofFuel n).bindItems frame stack items args := by
    intro frame stack items
    rw [watching_eq]
    induction items with
    | nil => exact fun _ => rfl
    | cons b items ih =>
      intro args
      simp only [bindItems_cons, ih]
      rfl
  simp only [bindParams_eq, bindParamsIn_eq, hitems]

/-- What ended is in the program where it began. -/
theorem State.unit_of_ok {α : Type} {setup : Setup} {x : Run α} {a : α} {Q : α → Prop}
    {s s' : State} (hx : x setup s = .ok a s') (h : ∀ p, (Discipline.keeping setup).Keeps p x Q) :
    s'.unit = s.unit := by
  have hagree := (h s.position).alone s trivial rfl
  rw [hx] at hagree
  exact congrArg Position.unit hagree.2.2.1.1.position

/-! ## Code of functions -/

/-- A program may create a function. -/
def Setup.HasLiteral (setup : Setup) (unit : Nat) (fn : Script.Function) : Prop :=
  ∃ c : Node, c.IsLiteral fn ∧ setup.HasNode unit c

/-- No scope of a program is opened twice. -/
def Setup.Distinct (setup : Setup) : Prop :=
  ∀ (u : Nat) (p : Prepared), setup.programs[u]? = some p → p.program.Distinct

namespace Evaluator

section
variable {setup : Setup} (hstrict : setup.options.strict = true) (hd : setup.Distinct)
  {a : Activation} {fault : Failure} {n : Nat} {stack : Stack} {s : State}
include hstrict hd

/-- The body of a function is not disturbed in the frame of the call, which binds the parameters. -/
theorem undisturbed_runBody {code : Code} (hcode : setup.HasLiteral code.unit code.literal)
    (hunit : s.unit = code.unit) (h : a.Hosts stack code.literal.params.names s) :
    setup.Undisturbed s ((ofFuel n).runBody code stack)
      ((watching a fault n).runBody code stack) := by
  unfold runBody
  rw [watching_eq]
  cases hbody : code.literal.body with
  | expression value => exact undisturbed_value value
  | block b =>
    refine undisturbed_walkBlock (watches_watching hstrict a fault n) false h
      fun p t hp ht st hst => ?_
    obtain ⟨c, hlit, prepared, hu, hc⟩ := hcode
    rw [hunit] at hp
    cases hu.symm.trans hp
    rw [hstrict] at hc
    rw [p.hoisting_eq] at ht
    exact fun name hname => List.mem_append.2
      (p.program.mem_vars_of_body (hd _ p hp) hc hlit hbody ht hst hname)

variable (fault) in
/-- What a call that is followed runs is not disturbed. -/
theorem undisturbed_run {t : State} (self : Value) {fn : Closure}
    (ha : Activation.Proper ⟨fn.scope, s.heap.frames.size⟩) (hk : s.Keeps t) {code : Code}
    (hcode : setup.HasLiteral code.unit code.literal) (args : List Operand) :
    setup.Undisturbed t
      (counted fn.key (inUnit code.unit do
        (ofFuel n).runBody code (← (ofFuel n).bindParams self fn code args)))
      (counted fn.key (inUnit code.unit do
        (watching ⟨fn.scope, s.heap.frames.size⟩ fault n).runBody code
          (← (watching ⟨fn.scope, s.heap.frames.size⟩ fault n).bindParams self fn code args))) := by
  rw [bindParams_watching]
  refine .counted _ (.inUnit _
    (Setup.Undisturbed.bind (.plain fun _ => ?_) fun stack u hstack _ => ?_))
  · exact ((agrees_keeping setup n).bindParams trivial (fun _ _ _ _ => trivial) args).imp
      fun _ _ => trivial
  · have hbegun : s.heap.frames.size ≤
        ({ t.called fn.key with unit := code.unit } : State).heap.frames.size := hk.heap.frames
    refine undisturbed_runBody hstrict hd hcode ?_
      (hosts_of_bindParams hstrict ha rfl hbegun hstack)
    exact State.unit_of_ok hstack fun _ =>
      (agrees_keeping setup n).bindParams trivial (fun _ _ _ _ => trivial) args

/-- A call is an activation of the function, whose own frames are made from then on. -/
theorem undisturbed_callFunction {id : Nat} {fn : Closure} (hfn : s.heap.closure? id = some fn)
    (ha : Activation.Proper ⟨fn.scope, s.heap.frames.size⟩)
    (hcode : ∀ code, fn.code = some code → setup.HasLiteral code.unit code.literal)
    (c : CallSite) :
    setup.Undisturbed s ((ofFuel n).callFunction id c)
      ((watching ⟨fn.scope, s.heap.frames.size⟩ fault n).callFunction id c) := by
  unfold callFunction
  refine Setup.Undisturbed.bind (.plain fun _ => .checkCanceled) fun _ t ht _ => ?_
  obtain rfl := ok_of_checkCanceled ht
  refine .get ?_
  rw [hfn]
  refine Setup.Undisturbed.bind (.plain fun _ => Agrees.admits fn c.site)
    fun followed t _ hfollowed => ?_
  cases followed with
  | false => exact .pure _
  | true =>
    refine Setup.Undisturbed.bind (.plain fun _ => .mapM_deref c.args) fun args u _ hargs => ?_
    refine .read (Setup.Undisturbed.bind (.plain fun _ => .log) fun _ v _ hlog => ?_)
    cases hk : fn.code with
    | none => exact .pure _
    | some code =>
      have hrun := undisturbed_run (n := n) hstrict hd fault (.function id) ha
        ((hfollowed.trans hargs).trans hlog) (hcode code hk) c.args
      refine .get ?_
      split
      · exact ⟨hrun.eq, hrun.keeps⟩
      · exact hrun

omit hd in
/-- A run of a program is an activation on top of its globals. -/
theorem undisturbed_runProgram (hd : setup.Distinct) (u : Nat) {global : Nat}
    (hglobal : global < s.heap.frames.size) :
    setup.Undisturbed s ((ofFuel n).runProgram u [global])
      ((watching ⟨[global], s.heap.frames.size⟩ fault n).runProgram u [global]) := by
  have hproper : Activation.Proper ⟨[global], s.heap.frames.size⟩ :=
    ⟨List.cons_ne_nil _ _, by simpa using hglobal⟩
  have hhosts : Activation.Hosts ⟨[global], s.heap.frames.size⟩ [global] []
      { s with unit := u } := ⟨hproper, Nat.le_refl _, [], rfl, nofun, nofun⟩
  unfold runProgram
  refine .inUnit u (.template fun p template hp ht => ?_)
  refine .instantiate hhosts fun inner v hinner => .read ?_
  rw [show setup.programs[u]? = some p from hp, watching_eq]
  rw [p.hoisting_eq] at ht
  refine undisturbed_walkAll (watches_watching hstrict _ fault n) _ fun st hst => ?_
  refine hinner.subset fun name hname => List.mem_append.2 (.inl ?_)
  exact p.program.mem_vars_of_root (hd u p hp) ht hst hname

end

end Evaluator

end FrozenGlobals
