import FrozenGlobals.Proofs.Discipline.Growth

/-!
# Audited evaluations

What is true at every moment of a run cannot be seen from its end. An audited evaluation looks at
each activity, at the state from which it started and the one in which it ended, and fails if these
are not as they should be. So an evaluation that does not differ from its audited version is
as it should be throughout.

Audited evaluations also know which code may be run: that of the programs (`Setup.HasNode`), at once
or through functions made of it (`State.Coded`).
-/

namespace FrozenGlobals

open Run Discipline
open Script (Span Node)

/-! ## Audits -/

/-- Runs a step, and fails if it did not lead from one state to another as it should. -/
def Run.audited {α : Type} (ok : State → State → Prop) [DecidableRel ok] (fault : Failure)
    (x : Run α) : Run α := fun setup s =>
  match x setup s with
  | .ok a s' => if ok s s' then .ok a s' else .error fault s'
  | .error f s' => if ok s s' then .error f s' else .error fault s'

section
variable {ok : State → State → Prop} [DecidableRel ok]

/-- Where everything is as it should be, an audit makes no difference. -/
theorem Run.audited_of_ok {α : Type} (fault : Failure) (x : Run α) (setup : Setup) {s : State}
    (h : ∀ s', ok s s') : x.audited ok fault setup s = x setup s := by
  unfold Run.audited
  cases x setup s with
  | ok a s' => exact if_pos (h s')
  | error f s' => exact if_pos (h s')

/-- Where nothing is as it should be, an audit gives up. -/
theorem Run.audited_of_not_ok {α : Type} (fault : Failure) (x : Run α) (setup : Setup) {s : State}
    (h : ∀ s', ¬ ok s s') : ∃ s', x.audited ok fault setup s = .error fault s' := by
  unfold Run.audited
  cases x setup s with
  | ok a s' => exact ⟨s', if_neg (h s')⟩
  | error f s' => exact ⟨s', if_neg (h s')⟩

end

namespace Evaluator

variable (ok : State → State → Prop) [DecidableRel ok]

/-- An evaluator whose own activities are audited. -/
def auditing (E : Evaluator) : Evaluator where
  resolve e stack := (E.resolve e stack).audited ok .outOfFuel
  bind how target init stack := (E.bind how target init stack).audited ok .outOfFuel
  walk fold s stack := (E.walk fold s stack).audited ok .outOfFuel
  invoke v c := (E.invoke v c).audited ok .outOfFuel

/-- An evaluator whose activities, which nest at most `fuel` deep, are audited at all levels. -/
def audited : Nat → Evaluator
  | 0 => ofFuel 0
  | fuel + 1 =>
      let E := audited fuel
      auditing ok ⟨E.resolveStep, E.bindStep, E.walkStep, E.invokeStep⟩

/-- Audits that find nothing. -/
theorem audited_true (n : Nat) : audited (fun _ _ => True) n = ofFuel n := by
  have hauditing : ∀ E : Evaluator, auditing (fun _ _ => True) E = E := by
    rintro ⟨resolve, bind, walk, invoke⟩
    simp only [auditing, mk.injEq]
    refine ⟨?_, ?_, ?_, ?_⟩ <;> funext <;> exact Run.audited_of_ok _ _ _ fun _ => trivial
  induction n with
  | zero => rfl
  | succ n ih =>
    rw [audited, hauditing, ih]
    rfl

end Evaluator

section
variable {setup : Setup} {D : Discipline setup} {p : Position} {ok : State → State → Prop}
  [DecidableRel ok]

/-- An audit of the second of two computations that agree makes no difference if it follows from the
discipline. -/
theorem Discipline.Agree.audited [D.Alone] {α : Type} {x x' : Run α} {Q : α → Prop}
    (h : D.Agree p x x' Q)
    (hok : ∀ s s', D.inv s → s.position = p → D.inv s' → D.le s s' → ok s s') :
    D.Agree p x (x'.audited ok .outOfFuel) Q := by
  refine ⟨fun s hs hp => ?_⟩
  have h := h.run s hs hp
  unfold AgreeAt at h ⊢
  cases hxs : x setup s with
  | ok a s' =>
    rw [hxs] at h
    obtain ⟨hm, hinv, hle, hq⟩ := h
    refine ⟨.inl ?_, hinv, hle, hq⟩
    rw [Run.audited, hm.eq]
    exact if_pos (hok s s' hs hp hinv hle)
  | error f s' =>
    rw [hxs] at h
    refine h.imp_right fun ⟨hm, hinv, hle, hf⟩ => ⟨.inl ?_, hinv, hle, hf⟩
    rw [Run.audited, hm.eq]
    exact if_pos (hok s s' hs hp hinv hle)

/-- Computations that agree where an audit of the first one would not give up. -/
theorem Discipline.Agree.of_audited {α : Type} {x x' : Run α} {Q : α → Prop}
    {at' : Position → Prop} [DecidablePred at'] (hl : D.lost .outOfFuel)
    (h : at' p → D.Agree p x x' Q) :
    D.Agree p (x.audited (fun s _ => at' s.position) .outOfFuel) x' Q := by
  refine ⟨fun s hs hp => ?_⟩
  unfold AgreeAt
  by_cases hat : at' p
  · rw [Run.audited_of_ok _ x setup fun _ => hp ▸ hat]
    exact (h hat).run s hs hp
  · obtain ⟨s', heq⟩ : ∃ s', x.audited (fun s _ => at' s.position) .outOfFuel setup s = _ :=
      Run.audited_of_not_ok _ x setup fun _ => hp ▸ hat
    rw [heq]
    exact .inl hl

namespace Evaluator.Agrees

variable {L : Licence} {E E' : Evaluator}

/-- Audits make no difference to an evaluator that keeps what they look for. -/
theorem auditing [D.Alone] (h : Agrees D L E E')
    (hn : ∀ {p n s s'}, L.node p n → D.inv s → s.position = p → D.inv s' → D.le s s' → ok s s')
    (hc : ∀ {p v c s s'}, L.call p v c → D.inv s → s.position = p → D.inv s' → D.le s s' →
      ok s s') : Agrees D L E (E'.auditing ok) where
  opens := h.opens
  resolve hs hl := (h.resolve hs hl).audited fun _ _ => hn hl
  bind hs hhow hl := (h.bind hs hhow hl).audited fun _ _ => hn hl
  walk hs hl := (h.walk hs hl).audited fun _ _ => hn hl
  invoke hl := (h.invoke hl).audited fun _ _ => hc hl

/-- Where an audit of the first evaluator looks at positions, less has to be licensed. -/
theorem of_auditing {L' : Licence} {at' : Position → Prop} [DecidablePred at']
    (h : Agrees D L E E') (hl : D.lost .outOfFuel) (ho : L'.Opens D)
    (hn : ∀ {p n}, L'.node p n → at' p → L.node p n)
    (hc : ∀ {p v c}, L'.call p v c → at' p → L.call p v c) :
    Agrees D L' (E.auditing fun s _ => at' s.position) E' where
  opens := ho
  resolve hs hl' := .of_audited hl fun hat => h.resolve hs (hn hl' hat)
  bind hs hhow hl' := .of_audited hl fun hat => h.bind hs hhow (hn hl' hat)
  walk hs hl' := .of_audited hl fun hat => h.walk hs (hn hl' hat)
  invoke hl' := .of_audited hl fun hat => h.invoke (hc hl' hat)

end Evaluator.Agrees

end

/-! ## Code of programs -/

namespace Setup

/-- Running a program may run a node. -/
def HasNode (setup : Setup) (unit : Nat) (n : Node) : Prop :=
  ∃ prepared, setup.programs[unit]? = some prepared ∧
    (Node.program prepared.program.body).Reaches setup.options.strict n

/-- A program may run what calls of a function run. -/
def HasFunction (setup : Setup) (unit : Nat) (fn : Script.Function) : Prop :=
  ∀ n ∈ fn.runs setup.options.strict, setup.HasNode unit n

variable {setup : Setup} {u : Nat}

/-- Nodes that may be run belong to programs that are there. -/
theorem HasNode.isSome {n : Node} (h : setup.HasNode u n) : setup.programs[u]?.isSome := by
  obtain ⟨prepared, hu, _⟩ := h
  simp [hu]

/-- Functions that may be called belong to programs that are there. -/
theorem HasFunction.isSome {fn : Script.Function} (h : setup.HasFunction u fn) :
    setup.programs[u]?.isSome := (h _ (fn.ofBody_mem_runs _)).isSome

/-- What is reached from a node that may be run may be run. -/
theorem HasNode.reaches {n c : Node} (h : setup.HasNode u n)
    (hc : n.Reaches setup.options.strict c) : setup.HasNode u c := by
  obtain ⟨prepared, hu, hn⟩ := h
  exact ⟨prepared, hu, hn.trans hc⟩

/-- What is run along with a node that may be run may be run. -/
theorem HasNode.within {n c : Node} (h : setup.HasNode u n) (hc : n.Within c) :
    setup.HasNode u c := h.reaches ((Node.Reaches.refl n).within hc)

/-- A statement of a program may be run. -/
theorem hasNode_stmt {prepared : Prepared} (hu : setup.programs[u]? = some prepared)
    {s : Script.Stmt} (hs : s ∈ prepared.program.body) : setup.HasNode u (.stmt s) :=
  ⟨prepared, hu, .head (List.mem_map_of_mem hs) (.refl _)⟩

/-- A function literal that may be evaluated may be called. -/
theorem HasNode.function {fn : Script.Function} (h : setup.HasNode u (.expr (.function fn))) :
    setup.HasFunction u fn := fun n hn => h.reaches (.head hn (.refl n))

/-- A function that a block declares may be called. -/
theorem hasFunction_of_hoisted {prepared : Prepared} (hu : setup.programs[u]? = some prepared)
    {t : Script.ScopeTemplate} (ht : t ∈ prepared.hoisting.templates) {fn : Script.Function}
    (hfn : fn ∈ t.functions) : setup.HasFunction u fn := by
  intro n hn
  rw [prepared.hoisting_eq] at ht
  have hreach := prepared.program.reaches_of_hoisted setup.options.strict t ht fn hfn
  exact ⟨prepared, hu, hreach.tail hn⟩

/-- Nodes that may be run are at most as high as the programs of the analysis. -/
theorem HasNode.height_le {n : Node} (h : setup.HasNode u n) : n.height ≤ setup.height := by
  obtain ⟨prepared, hu, hn⟩ := h
  refine Nat.le_trans hn.height_le (le_foldl_max (.inr ?_))
  exact List.mem_map_of_mem (Array.mem_def.1 (Array.mem_of_getElem? hu))

/-- The blocks that may be run have templates, if the analysis is strict. -/
theorem HasNode.find?_isSome {n : Node} (h : setup.HasNode u n)
    (hstrict : setup.options.strict = true) {start : Int} (ho : n.hoistStep.opens = some start)
    {prepared : Prepared} (hu : setup.programs[u]? = some prepared) :
    (prepared.hoisting.find? start).isSome := by
  obtain ⟨prepared', hu', hn⟩ := h
  cases hu.symm.trans hu'
  rw [hstrict] at hn
  rw [prepared.hoisting_eq]
  exact prepared.program.find?_isSome_of_reaches hn ho

end Setup

namespace Licence

/-- Code of the programs. -/
def coded (setup : Setup) : Licence := ⟨fun p n => setup.HasNode p.unit n, fun _ _ _ => True⟩

/-- A node that may be run is licensed with its parts. -/
theorem covers_coded {setup : Setup} {p : Position} {n : Node} (h : setup.HasNode p.unit n) :
    (coded setup).Covers p n := fun _ hc => h.within hc

end Licence

/-- Functions see frames that may be seen, and have code that may be run. -/
def State.Closures (scope : Stack → Prop) (code : Nat → Script.Function → Prop)
    (s : State) : Prop :=
  ∀ id fn, s.heap.closure? id = some fn →
    scope fn.scope ∧ ∀ k, fn.code = some k → code k.unit k.literal

/-- In the beginning there are no functions. -/
theorem State.closures_start (scope : Stack → Prop) (code : Nat → Script.Function → Prop) :
    State.start.Closures scope code := by
  intro id fn hfn
  simp [State.start, Heap.empty, Heap.closure?] at hfn

/-- Every single change makes functions only that see what they may and have code that may be
run. -/
theorem State.Closures.change {setup : Setup} {scope : Stack → Prop}
    {code : Nat → Script.Function → Prop} {place : Nat → Span → Prop} {s s' : State}
    (hs : s.Closures scope code) (h : Change setup scope code place s s') :
    s'.Closures scope code := by
  have of_eq : s'.heap.closures = s.heap.closures → s'.Closures scope code := by
    intro heq id fn hfn
    rw [Heap.closure?, heq] at hfn
    exact hs id fn hfn
  cases h with
  | note | warn _ | skip _ | report _ _ _ | throws _ | object _ | array _ | frame _
  | define _ _ _ =>
    exact of_eq rfl
  | setKey r k v => exact of_eq (Heap.frames_foldl_setKeyOf _ k v r.values).2
  | @convert root entries _ =>
    exact of_eq (Host.Conversion.extends_frame setup.graph s.conversion entries).closures
  | accessor id a =>
    intro id' fn hfn
    rw [Heap.closure?, Heap.markAccessor, Array.getElem?_modify] at hfn
    split at hfn
    · obtain ⟨k, hk, rfl⟩ := Option.map_eq_some_iff.1 hfn
      exact hs id' k hk
    · exact hs id' fn hfn
  | closure name hscope hcode =>
    intro id fn hfn
    rw [Heap.closure?, Heap.addClosure, Array.getElem?_push] at hfn
    split at hfn
    · cases hfn
      refine ⟨hscope, fun k hk => ?_⟩
      cases hk
      exact hcode
    · exact hs id fn hfn

/-- Functions see at least the frames of a program and its globals, and have code of the
programs. -/
def State.Coded (setup : Setup) (s : State) : Prop :=
  ∀ id fn, s.heap.closure? id = some fn →
    2 ≤ fn.scope.length ∧ ∀ k, fn.code = some k → setup.HasFunction k.unit k.literal

/-- In the beginning all functions have code of the programs: there are none. -/
theorem State.coded_start (setup : Setup) : State.Coded setup .start :=
  State.closures_start (2 ≤ ·.length) setup.HasFunction

/-- Every single change makes functions only that have code of the programs. -/
theorem State.Coded.change {setup : Setup} {place : Nat → Span → Prop} {s s' : State}
    (hs : s.Coded setup) (h : Change setup (2 ≤ ·.length) setup.HasFunction place s s') :
    s'.Coded setup :=
  Closures.change (show s.Closures (2 ≤ ·.length) setup.HasFunction from hs) h

end FrozenGlobals
