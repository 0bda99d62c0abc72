import FrozenGlobals.Proofs.Discipline.Bindings

/-!
# What a `var` declaration binds

`Setup.Binds` says what binding the target of a `var` declaration to a value comes to. Its names are
installed one after another, in source order, where the activation binds them already. Each of them
is joined with the value that the pattern takes out for it, as the heap is then. In between, only
the defaults and the computed keys of the target are evaluated, and the containers for what is left
over are made.

`Evaluator.declaring_ofFuel` says that strict analyses bind targets that way, by induction on the
levels of the evaluator and along the patterns, and that the names installed are those that the
hoisting pass records.

An activation is a call of a function or a run of a program (`Activation`). It has its own frames on
top of what it sees.
-/

namespace FrozenGlobals

open Run Evaluator
open Script (Expr Pattern PatternItem PatternProperty)

/-- A change of the heap alone keeps what the heap keeps. -/
theorem State.Keeps.withHeap {s : State} {h : Heap} (hk : s.heap.Keeps h) :
    s.Keeps { s with heap := h } := ⟨hk, fun _ => id⟩

/-! ## Activations -/

/-- An activation: the frames it sees, and the first frame made since it began. -/
structure Activation where
  outer : Stack
  first : Nat

namespace Activation

/-- An activation sees the globals, and what it sees is older than its own frames. -/
structure Proper (a : Activation) : Prop where
  nonempty : a.outer ≠ []
  older : ∀ f ∈ a.outer, f < a.first

/-- A name is installed in a frame of the activation that binds it already: what it stands for there
is joined with the value. It is the innermost frame that binds the name, neither one of those that
the activation sees nor the frame of the globals. -/
inductive Installs (a : Activation) (stack : Stack) (name : String) (value : Operand) (s : State) :
    State → Prop
  | intro {own : List Nat} {frame : Nat} {o : Operand} :
      stack = own ++ a.outer → frame ∈ own → a.first ≤ frame → frame ∉ a.outer →
      Stack.globals? stack ≠ some frame → s.heap.owner? stack name = some frame →
      (s.heap.frame frame).find? name = some o →
      Installs a stack name value s
        { s with heap := s.heap.define frame name (.known ((o.now s).union (value.now s))) }

/-- The activation has begun, and frames of its own bind names. -/
structure Hosts (a : Activation) (stack : Stack) (names : List String) (s : State) : Prop where
  proper : a.Proper
  begun : a.first ≤ s.heap.frames.size
  bound : ∃ own, stack = own ++ a.outer ∧ (∀ f ∈ own, a.first ≤ f) ∧
    ∀ name ∈ names, ∃ f ∈ own, ((s.heap.frame f).find? name).isSome

variable {a : Activation} {stack : Stack} {names : List String} {name : String} {s t : State}

namespace Hosts

theorem keeps (h : a.Hosts stack names s) (hk : s.Keeps t) : a.Hosts stack names t := by
  obtain ⟨own, hstack, hfirst, hbound⟩ := h.bound
  refine ⟨h.proper, h.begun.trans hk.heap.frames, own, hstack, hfirst, fun name hname => ?_⟩
  obtain ⟨f, hf, hb⟩ := hbound name hname
  exact ⟨f, hf, hk.heap.bound hb⟩

theorem subset {others : List String} (h : a.Hosts stack names s) (hsub : others ⊆ names) :
    a.Hosts stack others s := by
  obtain ⟨own, hstack, hfirst, hbound⟩ := h.bound
  exact ⟨h.proper, h.begun, own, hstack, hfirst, fun name hname => hbound name (hsub hname)⟩

/-- The activation may make more frames, which bind more names. -/
theorem push {f : Nat} {more : List String} (h : a.Hosts stack names s) (hf : a.first ≤ f)
    (hmore : ∀ name ∈ more, ((s.heap.frame f).find? name).isSome) :
    a.Hosts (f :: stack) (more ++ names) s := by
  obtain ⟨own, rfl, hfirst, hbound⟩ := h.bound
  refine ⟨h.proper, h.begun, f :: own, rfl, List.forall_mem_cons.2 ⟨hf, hfirst⟩,
    fun name hname => ?_⟩
  rcases List.mem_append.1 hname with hname | hname
  · exact ⟨f, List.mem_cons_self, hmore name hname⟩
  · obtain ⟨g, hg, hb⟩ := hbound name hname
    exact ⟨g, .tail f hg, hb⟩

/-- A name that the activation binds is found there. -/
theorem owner? (h : a.Hosts stack names s) (hname : name ∈ names) :
    ∃ own frame o, stack = own ++ a.outer ∧ frame ∈ own ∧ a.first ≤ frame ∧
      s.heap.owner? stack name = some frame ∧ (s.heap.frame frame).find? name = some o := by
  obtain ⟨own, rfl, hfirst, hbound⟩ := h.bound
  obtain ⟨f, hf, hb⟩ := hbound name hname
  obtain ⟨frame, hframe⟩ := Option.isSome_iff_exists.1
    (List.find?_isSome.2 ⟨f, hf, hb⟩ :
      (own.find? fun id => ((s.heap.frame id).find? name).isSome).isSome)
  have hsome : ((s.heap.frame frame).find? name).isSome := by simpa using List.find?_some hframe
  obtain ⟨o, ho⟩ := Option.isSome_iff_exists.1 hsome
  have hmem := List.mem_of_find?_eq_some hframe
  refine ⟨own, frame, o, rfl, hmem, hfirst frame hmem, ?_, ho⟩
  rw [Heap.owner?, List.find?_append, hframe]
  rfl

end Hosts

/-- The globals are among the frames that an activation sees. -/
theorem Proper.globals?_ne (ha : a.Proper) (own : List Nat) {frame : Nat} (h : frame ∉ a.outer) :
    Stack.globals? (own ++ a.outer) ≠ some frame := by
  intro hglobals
  rw [Stack.globals?, List.getLast?_append_of_ne_nil own ha.nonempty] at hglobals
  exact h (List.mem_of_getLast? hglobals)

end Activation

/-- A name that an activation binds is added to there. -/
theorem Evaluator.ok_of_addVariable {setup : Setup} {a : Activation} {stack : Stack}
    {names : List String} {name : String} {value : Operand} {s s' : State}
    (h : a.Hosts stack names s) (hname : name ∈ names)
    (hadd : addVariable name value stack setup s = .ok () s') :
      a.Installs stack name value s s' := by
  obtain ⟨own, frame, o, rfl, hmem, hfirst, howner, ho⟩ := h.owner? hname
  have houter : frame ∉ a.outer := fun hf =>
    absurd (h.proper.older frame hf) (Nat.not_lt_of_le hfirst)
  have hglobals := h.proper.globals?_ne own houter
  have heq : addVariable name value (own ++ a.outer) setup s = .ok ()
      { s with heap := s.heap.define frame name (.known ((o.now s).union (value.now s))) } := by
    unfold addVariable
    rw [bind_of_ok (show owner? (own ++ a.outer) name setup s = .ok (some frame) s from
      congrArg (EStateM.Result.ok · s) howner)]
    dsimp only
    rw [if_neg (by simpa using hglobals), get_bind, ho, Option.getD_some,
      bind_of_ok (deref_eq setup o s), bind_of_ok (deref_eq setup value s)]
    rfl
  cases heq.symm.trans hadd
  exact .intro rfl hmem hfirst houter hglobals howner ho

/-! ## Binding a target -/

/-- What is left over is bound to the name behind `...`, as a container that was made for it. -/
inductive Setup.BindsRest (a : Activation) (stack : Stack) (made : Value × Heap) :
    Option Pattern → List String → State → State → Prop
  /-- There is no `...`, and nothing is made. -/
  | nothing {s : State} : BindsRest a stack made none [] s s
  | name {id : Script.Identifier} {s s' : State} :
      a.Installs stack id.name (.known (.single made.1)) { s with heap := made.2 } s' →
      BindsRest a stack made (some (.leaf (.identifier id))) [id.name] s s'

mutual

/-- Binding the target of a `var` declaration to a value installs names, one after another, and
leads from one state to another. -/
inductive Setup.Binds (setup : Setup) (a : Activation) (stack : Stack) :
    Pattern → Operand → List String → State → State → Prop
  /-- A name stands for the value itself. -/
  | name {id : Script.Identifier} {init : Operand} {s s' : State} :
      a.Installs stack id.name init s s' →
      setup.Binds a stack (.leaf (.identifier id)) init [id.name] s s'
  /-- The positions of an array pattern, and what is left over, stand for its elements. -/
  | array {span : Script.Span} {items : List (Option PatternItem)} {rest : Option Pattern}
      {init : Operand} {names more : List String} {elements : Reference} {s t s' : State} :
      elements = s.heap.getKey (init.now s) .any →
      setup.BindsItems a stack elements items names s t →
      Setup.BindsRest a stack (t.heap.addArray elements) rest more t s' →
      setup.Binds a stack (.array span items rest) init (names ++ more) s s'
  /-- What is left over of an object is read when its properties are bound. -/
  | object {span : Script.Span} {properties : List PatternProperty} {rest : Option Pattern}
      {init : Operand} {names more : List String} {s t s' : State} :
      setup.BindsProperties a stack init properties names s t →
      Setup.BindsRest a stack
        (t.heap.addObject ⟨[], some (t.heap.getKey (init.now t) .any)⟩) rest more t s' →
      setup.Binds a stack (.object span properties rest) init (names ++ more) s s'

/-- The positions of an array pattern are bound to the elements, from left to right. -/
inductive Setup.BindsItems (setup : Setup) (a : Activation) (stack : Stack) :
    Reference → List (Option PatternItem) → List String → State → State → Prop
  | nil {elements : Reference} {s : State} : setup.BindsItems a stack elements [] [] s s
  | hole {elements : Reference} {items : List (Option PatternItem)} {names : List String}
      {s s' : State} :
      setup.BindsItems a stack elements items names s s' →
      setup.BindsItems a stack elements (none :: items) names s s'
  | item {elements : Reference} {item : PatternItem} {items : List (Option PatternItem)}
      {names more : List String} {s t s' : State} :
      setup.BindsItem a stack elements item names s t →
      setup.BindsItems a stack elements items more t s' →
      setup.BindsItems a stack elements (some item :: items) (names ++ more) s s'

/-- One position of an array pattern is bound. -/
inductive Setup.BindsItem (setup : Setup) (a : Activation) (stack : Stack) :
    Reference → PatternItem → List String → State → State → Prop
  | plain {elements : Reference} {target : Pattern} {names : List String} {s s' : State} :
      setup.Binds a stack target (.known elements) names s s' →
      setup.BindsItem a stack elements (.mk target none) names s s'
  /-- A name with a default may stand for that too. -/
  | fallback {elements : Reference} {id : Script.Identifier} {e : Expr} {n : Nat} {r : Reference}
      {s t s' : State} :
      (ofFuel n).value e stack setup s = .ok r t →
      a.Installs stack id.name (.known (elements.union r)) t s' →
      setup.BindsItem a stack elements (.mk (.leaf (.identifier id)) (some e)) [id.name] s s'

/-- The properties of an object pattern are bound, from left to right. -/
inductive Setup.BindsProperties (setup : Setup) (a : Activation) (stack : Stack) :
    Operand → List PatternProperty → List String → State → State → Prop
  | nil {init : Operand} {s : State} : setup.BindsProperties a stack init [] [] s s
  | cons {init : Operand} {property : PatternProperty} {properties : List PatternProperty}
      {names more : List String} {s t s' : State} :
      setup.BindsProperty a stack init property names s t →
      setup.BindsProperties a stack init properties more t s' →
      setup.BindsProperties a stack init (property :: properties) (names ++ more) s s'

/-- One property of an object pattern is bound. -/
inductive Setup.BindsProperty (setup : Setup) (a : Activation) (stack : Stack) :
    Operand → PatternProperty → List String → State → State → Prop
  /-- A name stands for the slot of that name. -/
  | short {init : Operand} {id : Script.Identifier} {found : Reference} {s s' : State} :
      found = s.heap.getKey (init.now s) (.name id.name) →
      a.Installs stack id.name (.known found) s s' →
      setup.BindsProperty a stack init (.short id none) [id.name] s s'
  /-- The slot is read before the default is evaluated. -/
  | fallback {init : Operand} {id : Script.Identifier} {e : Expr} {n : Nat} {found r : Reference}
      {s t s' : State} :
      found = s.heap.getKey (init.now s) (.name id.name) →
      (ofFuel n).value e stack setup s = .ok r t →
      a.Installs stack id.name (.known (found.union r)) t s' →
      setup.BindsProperty a stack init (.short id (some e)) [id.name] s s'
  /-- The key is evaluated before the slot is read. -/
  | keyed {init : Operand} {key : Expr} {computed : Bool} {target : Pattern} {n : Nat} {k : Key}
      {found : Reference} {names : List String} {s t s' : State} :
      (ofFuel n).propertyKey key computed stack setup s = .ok k t →
      found = t.heap.getKey (init.now t) k →
      setup.Binds a stack target (.known found) names t s' →
      setup.BindsProperty a stack init (.keyed key computed (.mk target none)) names s s'

end

/-- A strict analysis does not pass over what cannot be modelled. -/
theorem Run.unsupported_ne_ok {setup : Setup} (hstrict : setup.options.strict = true)
    {code : UnsupportedCode} {kind : Script.NodeKind} {span : Script.Span} {s s' : State} :
    Run.unsupported code kind span setup s ≠ .ok () s' := by
  intro h
  unfold Run.unsupported at h
  rw [read_bind, if_pos hstrict] at h
  cases h

namespace Evaluator

/-- What a level of the evaluator does with the targets of `var` declarations: it installs the names
that the hoisting pass records. -/
def Declaring (setup : Setup) (a : Activation) (stack : Stack) (n : Nat) : Prop :=
  ∀ (target : Pattern) (init : Operand) (s s' : State), a.Hosts stack target.names s →
    (ofFuel n).bind .variable target init stack setup s = .ok () s' →
    setup.Binds a stack target init target.names s s'

section
variable {setup : Setup} {a : Activation} {stack : Stack} {n : Nat} {names : List String}
  {s s' : State}

/-- Evaluating a default keeps the frames of the activation. -/
theorem hosts_of_value {e : Expr} {r : Reference} (h : a.Hosts stack names s)
    (he : (ofFuel n).value e stack setup s = .ok r s') : a.Hosts stack names s' :=
  h.keeps (.of_ok he fun _ => (agrees_keeping setup n).value trivial trivial)

/-- Evaluating a computed key keeps them as well. -/
theorem hosts_of_propertyKey {key : Expr} {computed : Bool} {k : Key} (h : a.Hosts stack names s)
    (hk : (ofFuel n).propertyKey key computed stack setup s = .ok k s') : a.Hosts stack names s' :=
  h.keeps (.of_ok hk fun _ => (agrees_keeping setup n).propertyKey trivial trivial)

variable (hstrict : setup.options.strict = true)
include hstrict

/-- What is left over is installed as the container that was made for it. -/
theorem bindsRest_of_ok {rest : Option Pattern} {container : Run Value} {made : Value × Heap}
    (h : a.Hosts stack (Script.restNames rest) s)
    (hmade : container setup s = .ok made.1 { s with heap := made.2 })
    (hkeeps : s.heap.Keeps made.2)
    (hrun : (ofFuel n).bindRest .variable rest container stack setup s = .ok () s') :
    Setup.BindsRest a stack made rest (Script.restNames rest) s s' := by
  unfold bindRest at hrun
  split at hrun
  · cases hrun
    exact .nothing
  · next id =>
    rw [bind_of_ok hmade] at hrun
    exact .name (ok_of_addVariable (h.keeps (.withHeap hkeeps)) List.mem_cons_self hrun)
  · exact absurd hrun (unsupported_ne_ok hstrict)

variable (ih : Declaring setup a stack n)
include ih

/-- One position of an array pattern. -/
theorem bindsItem_of_ok {elements : Reference} {target : Pattern} {fallback : Option Expr}
    (h : a.Hosts stack target.names s)
    (hrun : (ofFuel n).bindItem .variable elements stack (.mk target fallback) setup s =
      .ok () s') :
    setup.BindsItem a stack elements (.mk target fallback) target.names s s' := by
  unfold bindItem at hrun
  cases fallback with
  | none => exact .plain (ih _ _ _ _ h hrun)
  | some e =>
    rcases target with leaf | _ | _
    · cases leaf with
      | identifier id =>
        obtain ⟨r, t, he, hrun⟩ := ok_of_bind hrun
        exact .fallback he (ok_of_addVariable (hosts_of_value h he) List.mem_cons_self hrun)
      | _ => exact absurd hrun (unsupported_ne_ok hstrict)
    all_goals exact absurd hrun (unsupported_ne_ok hstrict)

/-- The positions of an array pattern, by induction on them. -/
theorem bindsItems_of_ok {elements : Reference} (items : List (Option PatternItem))
    (h : a.Hosts stack (Script.itemNames items) s)
    (hrun : (items.forM fun item =>
        match item with
        | none => pure ()
        | some item => (ofFuel n).bindItem .variable elements stack item) setup s = .ok () s') :
    setup.BindsItems a stack elements items (Script.itemNames items) s s' ∧ s.Keeps s' := by
  induction items generalizing s with
  | nil =>
    cases hrun
    exact ⟨.nil, .refl _⟩
  | cons item items ihitems =>
    rw [List.forM_eq_forM, List.forM_cons] at hrun
    obtain ⟨_, t, hitem, hrest⟩ := ok_of_bind hrun
    cases item with
    | none =>
      cases hitem
      obtain ⟨hitems, hk⟩ := ihitems h hrest
      exact ⟨.hole hitems, hk⟩
    | some item =>
      obtain ⟨target, fallback⟩ := item
      have hkt : s.Keeps t := .of_ok hitem fun p => (agrees_keeping setup n).bindItem trivial
        ((Discipline.keeping setup).installs_variable p) (fun _ => trivial) _ fun _ _ => trivial
      have hfirst := bindsItem_of_ok hstrict ih (h.subset (List.subset_append_left _ _)) hitem
      obtain ⟨hitems, hk⟩ :=
        ihitems ((h.keeps hkt).subset (List.subset_append_right _ _)) hrest
      exact ⟨.item hfirst hitems, hkt.trans hk⟩

/-- One property of an object pattern. -/
theorem bindsProperty_of_ok {init : Operand} {property : PatternProperty}
    (h : a.Hosts stack (Script.propertyNames [property]) s)
    (hrun : (ofFuel n).bindProperty .variable init stack property setup s = .ok () s') :
    setup.BindsProperty a stack init property (Script.propertyNames [property]) s s' := by
  unfold bindProperty at hrun
  cases property with
  | short id fallback =>
    dsimp only at hrun
    rw [bind_of_ok (deref_eq setup init s)] at hrun
    cases fallback with
    | none => exact .short rfl (ok_of_addVariable h List.mem_cons_self hrun)
    | some e =>
      obtain ⟨found, u, hfound, hrun⟩ := ok_of_bind hrun
      cases hfound
      obtain ⟨r, t, he, hrun⟩ := ok_of_bind hrun
      exact .fallback rfl he (ok_of_addVariable (hosts_of_value h he) List.mem_cons_self hrun)
  | keyed key computed item =>
    obtain ⟨target, fallback⟩ := item
    obtain ⟨k, t, hkey, hrun⟩ := ok_of_bind hrun
    have ht := hosts_of_propertyKey h hkey
    rw [Script.propertyNames, Script.propertyNames, List.append_nil] at ht ⊢
    cases fallback with
    | none =>
      dsimp only at hrun
      rw [bind_of_ok (deref_eq setup init t)] at hrun
      exact .keyed hkey rfl (ih _ _ _ _ ht hrun)
    | some e => exact absurd hrun (unsupported_ne_ok hstrict)

/-- The properties of an object pattern, by induction on them. -/
theorem bindsProperties_of_ok {init : Operand} (properties : List PatternProperty)
    (h : a.Hosts stack (Script.propertyNames properties) s)
    (hrun : properties.forM ((ofFuel n).bindProperty .variable init stack) setup s = .ok () s') :
    setup.BindsProperties a stack init properties (Script.propertyNames properties) s s' ∧
      s.Keeps s' := by
  induction properties generalizing s with
  | nil =>
    cases hrun
    exact ⟨.nil, .refl _⟩
  | cons property properties ihproperties =>
    rw [List.forM_eq_forM, List.forM_cons] at hrun
    obtain ⟨_, t, hproperty, hrun⟩ := ok_of_bind hrun
    have hnames : Script.propertyNames (property :: properties) =
        Script.propertyNames [property] ++ Script.propertyNames properties := by
      rcases property with ⟨id, fallback⟩ | ⟨key, computed, target, fallback⟩ <;>
        simp [Script.propertyNames]
    rw [hnames] at h ⊢
    have hkt : s.Keeps t := .of_ok hproperty fun p => (agrees_keeping setup n).bindProperty trivial
      ((Discipline.keeping setup).installs_variable p) (fun _ => trivial) init fun _ _ => trivial
    have hfirst :=
      bindsProperty_of_ok hstrict ih (h.subset (List.subset_append_left _ _)) hproperty
    obtain ⟨hproperties, hk⟩ :=
      ihproperties ((h.keeps hkt).subset (List.subset_append_right _ _)) hrun
    exact ⟨.cons hfirst hproperties, hkt.trans hk⟩

/-- Targets are bound as they should be if those one level below are. -/
theorem declaring_bindStep (target : Pattern) (init : Operand) (h : a.Hosts stack target.names s)
    (hrun : (ofFuel n).bindStep .variable target init stack setup s = .ok () s') :
    setup.Binds a stack target init target.names s s' := by
  unfold bindStep at hrun
  cases target with
  | leaf leaf =>
    cases leaf with
    | identifier id => exact .name (ok_of_addVariable h List.mem_cons_self hrun)
    | _ => exact absurd hrun (unsupported_ne_ok hstrict)
  | array span items rest =>
    dsimp only at hrun
    rw [bind_of_ok (deref_eq setup init s)] at hrun
    obtain ⟨elements, u, helements, hrun⟩ := ok_of_bind hrun
    cases helements
    obtain ⟨_, t, hitems, hrest⟩ := ok_of_bind hrun
    obtain ⟨hbinds, hk⟩ :=
      bindsItems_of_ok hstrict ih items (h.subset (List.subset_append_left _ _)) hitems
    exact .array rfl hbinds
      (bindsRest_of_ok hstrict ((h.keeps hk).subset (List.subset_append_right _ _)) rfl
        (Heap.keeps_addArray _ _) hrest)
  | object span properties rest =>
    obtain ⟨_, t, hproperties, hrest⟩ := ok_of_bind hrun
    obtain ⟨hbinds, hk⟩ := bindsProperties_of_ok hstrict ih properties
      (h.subset (List.subset_append_left _ _)) hproperties
    exact .object hbinds
      (bindsRest_of_ok hstrict ((h.keeps hk).subset (List.subset_append_right _ _))
        (bind_of_ok (deref_eq setup init t)) (Heap.keeps_addObject _ _) hrest)

end

/-- Binding the target of a `var` declaration installs its names, in source order, where the
activation binds them. -/
theorem declaring_ofFuel {setup : Setup} (hstrict : setup.options.strict = true) (a : Activation)
    (stack : Stack) (n : Nat) : Declaring setup a stack n := by
  induction n with
  | zero =>
    intro target init s s' _ h
    cases h
  | succ n ih => exact fun target init s s' => declaring_bindStep hstrict ih target init

end Evaluator

end FrozenGlobals
