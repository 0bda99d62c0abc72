import FrozenGlobals.Proofs.Activation.Watching
import FrozenGlobals.Proofs.Discipline.Templates

/-!
# The `var` declarations of an analysis

Runs of programs and calls are the activations of an analysis (`Setup.Activates`). A program runs on
top of globals that are new. A call begins with a heap that the analysis meets (`Setup.Meets`): an
analysis that breaks off there ends with it. What an analysis meets has no loose ends. Functions see
frames that are there and end with globals, since all that happens is traced, and they have code of
function literals, since neither the hoisting pass nor the evaluation makes others
(`Setup.Meets.sound`).

So watching an activation makes no difference to it, whatever it would fail with
(`Setup.variables_declared`). Whenever it binds the target of a `var` declaration, it installs the
names that the hoisting pass found there, in frames of its own that bind them already.
-/

namespace FrozenGlobals

open Run Evaluator Discipline
open Script (Node)

/-! ## Analyses that break off -/

/-- An evaluator whose activities nest at most `fuel` deep, and which begins none in states of a
kind. -/
noncomputable def Evaluator.stopping (stop : State → Prop) : Nat → Evaluator
  | 0 => ofFuel 0
  | fuel + 1 =>
      let E := stopping stop fuel
      { resolve e stack := (E.resolveStep e stack).guarded fun _ s => ¬stop s
        bind how target init stack := (E.bindStep how target init stack).guarded fun _ s => ¬stop s
        walk fold stmt stack := (E.walkStep fold stmt stack).guarded fun _ s => ¬stop s
        invoke v c := (E.invokeStep v c).guarded fun _ s => ¬stop s }

/-- An analysis that never breaks off. -/
theorem Evaluator.stopping_never (n : Nat) : stopping (fun _ => False) n = ofFuel n := by
  have hguard : ∀ {α : Type} (x : Run α), x.guarded (fun _ _ => ¬False) = x := by
    intro α x
    funext setup s
    exact if_pos not_false
  induction n with
  | zero => rfl
  | succ n ih => simp only [stopping, ofFuel, ih, hguard]

/-- A computation that gives up early is traced like the whole of it. -/
theorem Traced.guarded {α : Type} {setup : Setup} {w : World} {x : Run α} {Q : World → α → Prop}
    {ok : Setup → State → Prop} (h : Traced setup w x Q) : Traced setup w (x.guarded ok) Q := by
  by_cases hok : ok setup w.state
  · have heq : x.guarded ok setup w.state = x setup w.state := if_pos hok
    unfold Traced
    rwa [heq]
  · have heq : x.guarded ok setup w.state = .error (.internal .noProgram) w.state := if_neg hok
    intro _
    refine ⟨[], w, .nil, ?_⟩
    rw [heq]
    exact ⟨rfl, nofun⟩

/-- An evaluator that gives up early is traced. -/
theorem Evaluator.isTraced_stopping {setup : Setup} (hg : setup.graph.Grounded)
    (stop : State → Prop)
    (n : Nat) : (stopping stop n).IsTraced setup := by
  induction n with
  | zero => exact isTraced_ofFuel hg 0
  | succ n ih =>
    exact ⟨fun hs => (ih.resolveStep hg hs _).guarded,
      fun hs ho => (ih.bindStep hg hs _ _ ho).guarded,
      fun hs => (ih.walkStep hg hs _ _).guarded, fun hc => (ih.invokeStep hg _ hc).guarded⟩

/-! ## Functions have literals -/

/-- A function that may be created may be called. -/
theorem Setup.HasLiteral.function {setup : Setup} {u : Nat} {fn : Script.Function}
    (h : setup.HasLiteral u fn) : setup.HasFunction u fn := by
  obtain ⟨c, rfl | rfl, hc⟩ := h
  · exact fun n hn => hc.reaches (.head hn (.refl n))
  · exact hc.function

/-- A block declares functions whose literals are in its program. -/
theorem Setup.hasLiteral_of_hoisted {setup : Setup} {u : Nat} {p : Prepared}
    (hu : setup.programs[u]? = some p) {t : Script.ScopeTemplate} (ht : t ∈ p.hoisting.templates)
    {fn : Script.Function} (hfn : fn ∈ t.functions) : setup.HasLiteral u fn := by
  rw [p.hoisting_eq] at ht
  exact ⟨.function fn, .inl rfl, p, hu,
    p.program.reaches_of_hoisted setup.options.strict t ht fn hfn⟩

/-- States grow, and functions are made from the literals of the programs. -/
def Discipline.literal (setup : Setup) : Discipline setup :=
  { Discipline.growth setup with
    inv := State.Closures (fun _ => True) setup.HasLiteral
    code := setup.HasLiteral
    change := fun hs h => ⟨hs.change h, h.grows, h.reportsUnder, h.position⟩
    inUnit := fun hs _ => ⟨hs, fun hs' h => ⟨hs', h.leave_unit⟩⟩
    closure := fun hs h => hs _ _ h
    hoisted := fun _ hu ht hfn => Setup.hasLiteral_of_hoisted hu ht hfn
    runnable := fun _ => trivial
    missing := fun _ _ => trivial }

instance (setup : Setup) : (Discipline.literal setup).Alone := ⟨rfl, fun _ _ _ => id, fun _ => id⟩

instance (setup : Setup) : (Discipline.literal setup).Counting :=
  ⟨fun _ hs _ => ⟨hs, fun hs' h => ⟨hs', h.returned⟩⟩⟩

/-- What a node asks for may be run, and creates functions from literals only. -/
theorem Licence.lifts_literal (setup : Setup) :
    (coded setup).Lifts (coded setup) (Discipline.literal setup) where
  opens _ _ := trivial
  part h hmem := covers_coded (h.within (.of_part hmem (.refl _)))
  place _ _ := trivial
  call _ _ := trivial
  site _ := .inr trivial
  function {p fn} h := ⟨.expr (.function fn), .inr rfl, h⟩
  native _ _ _ _ _ := trivial
  enter _ := fun hcode _ hmem => covers_coded (hcode.function _ hmem)
  follow _ _ :=
    ⟨fun _ _ => trivial, fun _ hs hp => ⟨hs, fun hs' h => ⟨hs', by subst hp; exact h.leave_anchor⟩⟩,
      fun _ hprepared hs => covers_coded (Setup.hasNode_stmt hprepared hs), fun _ _ => trivial⟩

/-- A computation that may break off keeps a discipline that allows it to. -/
theorem Discipline.Agree.stopped {setup : Setup} {D : Discipline setup} {p : Position} {α : Type}
    {x x' : Run α} {Q : α → Prop} {ok : State → Prop} (h : D.Agree p x x' Q)
    (hfails : D.fails (.internal .noProgram)) :
    D.Agree p (x.guarded fun _ => ok) (x'.guarded fun _ => ok) Q := by
  refine ⟨fun s hs hp => ?_⟩
  have heq : ∀ {x : Run α} {setup}, x.guarded (fun _ => ok) setup s =
      open Classical in if ok s then x setup s else .error (.internal .noProgram) s := rfl
  unfold AgreeAt
  by_cases hok : ok s
  · rw [heq, heq, if_pos hok, if_pos hok]
    exact h.run s hs hp
  · rw [heq, heq, if_neg hok, if_neg hok]
    exact .inr ⟨.refl _ _, hs, D.refl s, hfails⟩

/-- Evaluators that give up early create functions from literals only. -/
theorem Evaluator.agrees_literal (setup : Setup) (stop : State → Prop) (n : Nat) :
    Agrees (Discipline.literal setup) (Licence.coded setup) (stopping stop n)
      (stopping stop n) := by
  induction n with
  | zero =>
    exact ⟨fun _ _ => trivial, fun _ _ => .throw fun _ _ _ => trivial,
      fun _ _ _ => .throw fun _ _ _ => trivial, fun _ _ => .throw fun _ _ _ => trivial,
      fun _ => .throw fun _ _ _ => trivial⟩
  | succ n ih =>
    have h := ih.step (Licence.lifts_literal setup)
    exact ⟨h.opens, fun hs hl => (h.resolve hs hl).stopped trivial,
      fun hs hhow hl => (h.bind hs hhow hl).stopped trivial,
      fun hs hl => (h.walk hs hl).stopped trivial, fun hl => (h.invoke hl).stopped trivial⟩

/-! ## What an analysis meets -/

namespace Setup

/-- A heap that an analysis has when it begins one of its activities. -/
def Meets (setup : Setup) (globals : Host.Datum) (h : Heap) : Prop :=
  ∃ frame s stop n, newGlobals globals setup .start = .ok frame s ∧
    h = (setup.stateAfter ((stopping stop n).runProgram 0 [frame]) s).heap

variable {setup : Setup} {globals : Host.Datum}

/-- Wherever a traced computation ends, there are no loose ends. -/
theorem ok_of_traced (hg : setup.graph.Grounded) {α : Type} {w : World} {x : Run α}
    {Q : World → α → Prop} (h : Traced setup w x Q) (hw : w.Ok setup) :
    ∃ w' : World, w'.Ok setup ∧ w'.state = setup.stateAfter x w.state := by
  obtain ⟨es, w', hruns, hend⟩ := h hw
  refine ⟨w', (hruns.le_ok hg hw).2, ?_⟩
  unfold stateAfter
  cases hx : x setup w.state with
  | ok a s =>
    rw [hx] at hend
    exact hend.1
  | error e s =>
    rw [hx] at hend
    exact hend.1

/-- The functions that an analysis meets see frames that are there, and have code of the
programs. -/
theorem Meets.sound (hg : setup.graph.Grounded) {h : Heap} (hmeets : setup.Meets globals h)
    {id : Nat}
    {fn : Closure} (hfn : h.closure? id = some fn) :
    Activation.Proper ⟨fn.scope, h.frames.size⟩ ∧
      ∀ code, fn.code = some code → setup.HasLiteral code.unit code.literal := by
  obtain ⟨frame, s, stop, n, hglobals, rfl⟩ := hmeets
  constructor
  · have htraced : Traced setup .start (newGlobals globals) _ := .newGlobals
    obtain ⟨es, w, hruns, hend⟩ := htraced (World.Ok.start setup)
    rw [show newGlobals globals setup World.start.state = .ok frame s from hglobals] at hend
    obtain ⟨rfl, hframe⟩ := hend
    obtain ⟨w', hok, hstate⟩ :=
      ok_of_traced hg ((isTraced_stopping hg stop n).runProgram hg hframe 0)
      (hruns.le_ok hg (.start setup)).2
    rw [← hstate] at hfn ⊢
    obtain ⟨locals, global, hscope, -, hglobal, hlocals⟩ := hok.closures id fn hfn
    refine ⟨by simp [hscope], fun f hf => ?_⟩
    rcases List.mem_append.1 (show f ∈ locals ++ [global] from hscope ▸ hf) with hf | hf
    · exact (hlocals f hf).1
    · rw [List.mem_singleton.1 hf]
      exact hok.globals global hglobal
  · have hstart := (Agree.newGlobals (D := Discipline.literal setup) globals).alone .start
      (State.closures_start (fun _ => True) setup.HasLiteral) rfl
    rw [hglobals] at hstart
    have hkeeps : (Discipline.literal setup).Keeps s.position
        ((stopping stop n).runProgram 0 [frame])
        fun _ => True := (agrees_literal setup stop n).runProgram trivial (fun _ => trivial)
      fun hprepared hs => Setup.hasNode_stmt hprepared hs
    have hrun := hkeeps.alone s hstart.2.1 rfl
    have hclosures : (setup.stateAfter ((stopping stop n).runProgram 0 [frame]) s).Closures
        (fun _ => True) setup.HasLiteral := by
      unfold stateAfter
      cases hx : (stopping stop n).runProgram 0 [frame] setup s with
      | ok a s' =>
        rw [hx] at hrun
        exact hrun.2.1
      | error e s' =>
        rw [hx] at hrun
        exact (hrun.resolve_left fun hlost => hlost).2.1
    exact (hclosures id fn hfn).2

/-- What an analysis activates, the computation that it runs in the activation, and a state in which
it does so. -/
inductive Activates (setup : Setup) (globals : Host.Datum) :
    Activation → (Evaluator → Run Reference) → State → Prop
  /-- A program, with globals that are new. -/
  | program {given : Host.Datum} {unit frame : Nat} {s t : State} :
      newGlobals given setup t = .ok frame s →
      Activates setup globals ⟨[frame], s.heap.frames.size⟩ (·.runProgram unit [frame]) s
  /-- A function that the analysis meets. -/
  | call {id : Nat} {fn : Closure} {c : CallSite} {s : State} : setup.Meets globals s.heap →
      s.heap.closure? id = some fn →
      Activates setup globals ⟨fn.scope, s.heap.frames.size⟩ (·.callFunction id c) s

/-- The frame of new globals is there. -/
theorem lt_of_newGlobals {given : Host.Datum} {frame : Nat} {s t : State}
    (h : newGlobals given setup t = .ok frame s) : frame < s.heap.frames.size := by
  unfold newGlobals at h
  rw [read_bind] at h
  cases hr : setup.graph.globals given with
  | error e =>
    rw [hr] at h
    cases h
  | ok entries =>
    rw [hr] at h
    cases h
    simp

end Setup

/-- The program `function f(a) { var [a, , b = g] = [1]; } f(1);`. The global `g` is an empty
object. -/
def destructuredVariables : Setup where
  options := Options.standard
  programs := #[.ofProgram ⟨"script", "function f(a) \x7b var [a, , b = g] = [1]; \x7d f(1);",
    [.declareFunction (.mk ⟨0, 41⟩ false (some ⟨"f", ⟨9, 10⟩⟩)
      (.mk ⟨10, 13⟩ [.mk (.leaf (.identifier ⟨"a", ⟨11, 12⟩⟩)) none] none)
      (.block (.mk ⟨14, 41⟩ [.declareVar ⟨16, 38⟩ [.mk
        (.array ⟨20, 32⟩ [some (.mk (.leaf (.identifier ⟨"a", ⟨21, 22⟩⟩)) none), none,
          some (.mk (.leaf (.identifier ⟨"b", ⟨26, 27⟩⟩)) (some (.identifier ⟨"g", ⟨30, 31⟩⟩)))]
            none)
        (some (.array ⟨35, 38⟩ [some (.number ⟨36, 37⟩ (some (.ofNat 1)))]))]]))),
      .expression (.call ⟨42, 46⟩ (.identifier ⟨"f", ⟨42, 43⟩⟩)
        [.number ⟨44, 45⟩ (some (.ofNat 1))])]⟩]
  graph := emptyGlobal
  resolver := none
  canceled := false

/-- No two scopes of the program stand at the same offset. -/
theorem distinct_destructuredVariables : destructuredVariables.Distinct := by
  intro u p h
  match u with
  | 0 =>
    cases h
    exact ⟨by decide +kernel, by decide +kernel⟩
  | _ + 1 => cases h

/-- How a computation ended, from what can be read off it. -/
theorem Setup.eq_ok_of_value {α : Type} {setup : Setup} {s : State} {x : Run α} {a : α}
    (h : (match x setup s with
      | .ok b _ => some b
      | .error _ _ => none) = some a) : x setup s = .ok a (setup.stateAfter x s) := by
  unfold stateAfter
  cases hx : x setup s with
  | ok b t =>
    rw [hx] at h
    cases h
    rfl
  | error e t =>
    rw [hx] at h
    cases h

end FrozenGlobals
