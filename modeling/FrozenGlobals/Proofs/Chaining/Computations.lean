import FrozenGlobals.Proofs.Chaining.Templates
import FrozenGlobals.Proofs.Coupling.Classes

/-!
# Computations of programs without marks

`Setup.Follows` compares a computation of an analysis with one of the analysis of the unchained
programs: from the state without marks in the code of functions, the second one does what the first
one does, and ends in the state without marks. Only where the first one runs out of levels the
second one may go on, because a mark takes up a level of its own.

Values, frames and keys are the same on both sides, so computations that follow are put together
without anything being said about their results.
-/

namespace FrozenGlobals

open Run
open Script (Span Stmt Program Hoisting ScopeTemplate)

/-! ## States without marks -/

def Code.unchained (k : Code) : Code := { k with literal := k.literal.unchained }

def Closure.unchained (fn : Closure) : Closure := { fn with code := fn.code.map Code.unchained }

/-- The heap without marks in the code of its functions. -/
def Heap.unchained (h : Heap) : Heap := { h with closures := h.closures.map Closure.unchained }

def State.unchained (s : State) : State := { s with heap := s.heap.unchained }

/-- The setup whose programs have no marks. -/
def Setup.unchained (setup : Setup) : Setup :=
  { setup with programs := setup.programs.map fun p => .ofProgram p.program.unchained }

/-- A function has the same key without marks, since its literal stays where it stands. -/
theorem Closure.key_unchained (fn : Closure) : fn.unchained.key = fn.key := by
  unfold key unchained Code.unchained
  cases fn.code <;> simp

namespace Heap

/-- The functions of a heap are found under the same numbers. -/
theorem closure?_unchained (h : Heap) (id : Nat) :
    h.unchained.closure? id = (h.closure? id).map Closure.unchained := Array.getElem?_map ..

/-- Writing to a container leaves functions alone. -/
theorem setKeyOf_unchained (h : Heap) (k : Key) (r : Reference) (v : Value) :
    h.unchained.setKeyOf k r v = (h.setKeyOf k r v).unchained := by
  cases v <;> rfl

/-- Writing to all possibilities of a reference leaves functions alone. -/
theorem setKey_unchained (h : Heap) (r : Reference) (k : Key) (v : Reference) :
    h.unchained.setKey r k v = (h.setKey r k v).unchained := by
  unfold setKey
  induction r.values generalizing h with
  | nil => rfl
  | cons w ws ih => rw [List.foldl_cons, setKeyOf_unchained, ih, List.foldl_cons]

/-- A function that is created gets the same number. -/
theorem addClosure_unchained (h : Heap) (fn : Closure) :
    h.unchained.addClosure fn.unchained =
      ((h.addClosure fn).1, (h.addClosure fn).2.unchained) := by
  simp [addClosure, unchained]

/-- Marking a function as an accessor leaves its code alone. -/
theorem markAccessor_unchained (h : Heap) (id : Nat) (a : Accessor) :
    h.unchained.markAccessor id a = (h.markAccessor id a).unchained := by
  unfold markAccessor unchained
  refine congrArg (fun closures => { h with closures }) (Array.ext_getElem? fun i => ?_)
  rw [Array.getElem?_modify, Array.getElem?_map, Array.getElem?_map, Array.getElem?_modify]
  split
  · cases h.closures[i]? <;> rfl
  · rfl

/-- Nested arrays are the same whatever functions the heap holds. -/
theorem flatten_unchained (h : Heap) (unseen : List Nat) (queue : List Value) (out : Reference) :
    h.unchained.flatten unseen queue out = h.flatten unseen queue out := by
  induction unseen, queue, out using Heap.flatten.induct h with
  | case1 => simp only [flatten]
  | case2 id rest unseen out hmem elements ih =>
    rw [flatten, flatten, dif_pos hmem, dif_pos hmem]
    exact ih
  | case3 id rest unseen out hmem ih =>
    rw [flatten, flatten, dif_neg hmem, dif_neg hmem]
    exact ih
  | case4 v rest unseen out hv ih =>
    rw [flatten, flatten, ih]
    all_goals exact hv

/-- Functions are called the same in log entries. -/
theorem summary_unchained (h : Heap) (limit : Int) :
    h.unchained.summary limit = h.summary limit := by
  have hvalue : h.unchained.valueSummary = h.valueSummary := by
    funext v
    cases v with
    | function id =>
      unfold valueSummary
      dsimp only
      rw [closure?_unchained]
      cases h.closure? id <;> rfl
    | _ => rfl
  funext r
  unfold summary
  rw [hvalue]

end Heap

namespace State

variable (s : State)

/-- The heap is the one part of a state that holds code. -/
@[simp] theorem heap_unchained : s.unchained.heap = s.heap.unchained := rfl

/-- Paths of containers are the same. -/
@[simp] theorem provenance_unchained : s.unchained.provenance = s.provenance := rfl

/-- The program whose code runs is the same. -/
@[simp] theorem unit_unchained : s.unchained.unit = s.unit := rfl

/-- As many calls are nested. -/
@[simp] theorem depth_unchained : s.unchained.depth = s.depth := rfl

/-- Each function is on the stack as often. -/
@[simp] theorem active_unchained : s.unchained.active = s.active := rfl

/-- Each function was entered again as often. -/
@[simp] theorem reentries_unchained : s.unchained.reentries = s.reentries := rfl

/-- The same functions were warned about. -/
@[simp] theorem budgetWarned_unchained : s.unchained.budgetWarned = s.budgetWarned := rfl

/-- The ceiling was warned about in both states or in neither. -/
@[simp] theorem ceilingWarned_unchained : s.unchained.ceilingWarned = s.ceilingWarned := rfl

end State

/-! ## Computations that follow -/

namespace Setup

/-- The second outcome is the first one without marks, unless the first one ran out of levels. -/
def EndsUnchained {α : Type} : EStateM.Result Failure State α →
    EStateM.Result Failure State α → Prop
  | .ok a s, r => r = .ok a s.unchained
  | .error e s, r => e = .outOfFuel ∨ r = .error e s.unchained

/-- The second computation does without marks what the first one does, as far as levels last. -/
structure Follows (setup : Setup) {α : Type} (x x' : Run α) : Prop where
  run : ∀ s, EndsUnchained (x setup s) (x' setup.unchained s.unchained)

/-- Options are the same for the programs without marks. -/
@[simp] theorem options_unchained (setup : Setup) : setup.unchained.options = setup.options := rfl

/-- The analysis of the programs without marks is canceled if the other one is. -/
@[simp] theorem canceled_unchained (setup : Setup) :
    setup.unchained.canceled = setup.canceled := rfl

/-- The resolver is the same, since what it answers names programs by their number. -/
@[simp] theorem resolver_unchained (setup : Setup) :
    setup.unchained.resolver = setup.resolver := rfl

namespace Follows

variable {setup : Setup} {α β : Type} {x x' : Run α}

/-- Computations that end in corresponding states with the same result. -/
theorem of_ok (h : ∀ s, ∃ a t, x setup s = .ok a t ∧
    x' setup.unchained s.unchained = .ok a t.unchained) : setup.Follows x x' where
  run s := by
    obtain ⟨a, t, hx, hx'⟩ := h s
    rw [hx]
    exact hx'

/-- Nothing is done. -/
theorem pure (a : α) : setup.Follows (Pure.pure a) (Pure.pure a) := ⟨fun _ => rfl⟩

/-- Both sides fail alike. -/
theorem throw (e : Failure) :
    setup.Follows (MonadExcept.throw e : Run α) (MonadExcept.throw e) := ⟨fun _ => .inr rfl⟩

/-- What runs out of levels is followed by anything. -/
theorem outOfFuel : setup.Follows (MonadExcept.throw .outOfFuel : Run α) x' := ⟨fun _ => .inl rfl⟩

/-- One computation after another, with the same result of the first one on both sides. -/
theorem bind {f f' : α → Run β} (hx : setup.Follows x x') (hf : ∀ a, setup.Follows (f a) (f' a)) :
    setup.Follows (x >>= f) (x' >>= f') where
  run s := by
    have h := hx.run s
    cases hxs : x setup s with
    | ok a t =>
      rw [hxs] at h
      rw [bind_of_ok hxs, bind_of_ok h]
      exact (hf a).run t
    | error e t =>
      rw [hxs] at h
      rw [bind_of_error hxs]
      exact h.imp_right bind_of_error

/-- One computation after another that has no result of interest. -/
theorem seq {y y' : Run β} (hx : setup.Follows x x') (hy : setup.Follows y y') :
    setup.Follows (x >>= fun _ => y) (x' >>= fun _ => y') := hx.bind fun _ => hy

/-- What follows may look at the setup, where programs have lost their marks. -/
theorem read {f f' : Setup → Run α} (h : setup.Follows (f setup) (f' setup.unchained)) :
    setup.Follows (MonadReader.read >>= f) (MonadReader.read >>= f') := ⟨h.run⟩

/-- What follows may look at the state, where functions have lost their marks. -/
theorem get {f f' : State → Run α} (h : ∀ s, setup.Follows (f s) (f' s.unchained)) :
    setup.Follows (MonadState.get >>= f) (MonadState.get >>= f') := ⟨fun s => (h s).run s⟩

/-- A change of the state that does not look at code. -/
theorem changes {f f' : State → State} (h : ∀ s, f' s.unchained = (f s).unchained) :
    setup.Follows (modify f : Run Unit) (modify f' : Run Unit) :=
  .of_ok fun s => ⟨(), f s, rfl, congrArg (EStateM.Result.ok ()) (h s)⟩

/-! ### Loops -/

/-- Something is done with each of some parts, and with each of the same parts without marks. -/
theorem forM {γ : Type} {f : β → Run Unit} {f' : γ → Run Unit} {g : β → γ}
    (h : ∀ b, setup.Follows (f b) (f' (g b))) (bs : List β) :
    setup.Follows (bs.forM f) ((bs.map g).forM f') := by
  induction bs with
  | nil => exact .pure ()
  | cons b bs ih => exact (h b).seq ih

/-- Something is accumulated over some parts, and over the same parts without marks. -/
theorem foldlM {γ : Type} {f : α → β → Run α} {f' : α → γ → Run α} {g : β → γ}
    (h : ∀ a b, setup.Follows (f a b) (f' a (g b))) (bs : List β) (a : α) :
    setup.Follows (bs.foldlM f a) ((bs.map g).foldlM f' a) := by
  induction bs generalizing a with
  | nil => exact .pure a
  | cons b bs ih =>
    rw [List.map_cons, List.foldlM_cons, List.foldlM_cons]
    exact (h a b).bind ih

/-- Something is computed from each of some parts, and from each of the same parts without marks. -/
theorem mapM {γ : Type} {f : β → Run α} {f' : γ → Run α} {g : β → γ}
    (h : ∀ b, setup.Follows (f b) (f' (g b))) (bs : List β) :
    setup.Follows (bs.mapM f) ((bs.map g).mapM f') := by
  induction bs with
  | nil => exact .pure []
  | cons b bs ih =>
    rw [List.map_cons, List.mapM_cons, List.mapM_cons]
    exact (h b).bind fun _ => ih.bind fun _ => .pure _

/-- Something is done with each of the same values. -/
theorem forEach {f f' : β → Run Unit} (h : ∀ b, setup.Follows (f b) (f' b)) (bs : List β) :
    setup.Follows (bs.forM f) (bs.forM f') := by
  have hall := forM (g := id) h bs
  rwa [List.map_id] at hall

/-- Something is accumulated over the same values. -/
theorem foldEach {f f' : α → β → Run α} (h : ∀ a b, setup.Follows (f a b) (f' a b))
    (bs : List β) (a : α) : setup.Follows (bs.foldlM f a) (bs.foldlM f' a) := by
  have hall := foldlM (g := id) h bs a
  rwa [List.map_id] at hall

/-- Something is computed from each of the same values. -/
theorem mapEach {f f' : β → Run α} (h : ∀ b, setup.Follows (f b) (f' b)) (bs : List β) :
    setup.Follows (bs.mapM f) (bs.mapM f') := by
  have hall := mapM (g := id) h bs
  rwa [List.map_id] at hall

/-! ### Brackets -/

/-- Something is put back that does not look at code. -/
theorem restoring {restore restore' : State → State}
    (h : ∀ s, restore' s.unchained = (restore s).unchained) (hx : setup.Follows x x') :
    setup.Follows (x.restoring restore) (x'.restoring restore') where
  run s := by
    have hx := hx.run s
    unfold Run.restoring
    cases hxs : x setup s with
    | ok a t =>
      rw [hxs] at hx
      rw [show x' setup.unchained s.unchained = .ok a t.unchained from hx]
      exact congrArg (EStateM.Result.ok a) (h t)
    | error e t =>
      rw [hxs] at hx
      refine hx.imp_right fun hx => ?_
      rw [hx]
      exact congrArg (EStateM.Result.error e) (h t)

/-- A step with another program as the current one. -/
theorem inUnit (unit : Nat) (hx : setup.Follows x x') :
    setup.Follows (Run.inUnit unit x) (Run.inUnit unit x') :=
  .get fun s => (changes fun _ => by rfl).seq (hx.restoring fun _ => by rfl)

/-- A step whose diagnostics are reported at a call of the analyzed program. -/
theorem anchored (span : Span) (hx : setup.Follows x x') :
    setup.Follows (Run.anchored span x) (Run.anchored span x') :=
  .get fun s => (changes fun _ => by rfl).seq (hx.restoring fun _ => by rfl)

/-- A call of a function is counted alike, since its key is the same. -/
theorem counted (key : FunctionKey) (hx : setup.Follows x x') :
    setup.Follows (Run.counted key x) (Run.counted key x') :=
  (changes fun _ => by rfl).seq (hx.restoring fun _ => by rfl)

/-- A step that follows the callbacks of a path. -/
theorem within (path : String) (hx : setup.Follows x x') :
    setup.Follows (Run.within path x) (Run.within path x') where
  run s := by
    have hx := hx.run s
    unfold Run.within
    cases hxs : x setup s with
    | ok a t =>
      rw [hxs] at hx
      rw [show x' setup.unchained s.unchained = .ok a t.unchained from hx]
      rfl
    | error e t =>
      rw [hxs] at hx
      rcases hx with rfl | hx
      · exact .inl rfl
      · rw [hx]
        exact .inr rfl

/-! ### Values and names -/

/-- What an operand stands for is the same. -/
theorem deref (o : Operand) : setup.Follows (Run.deref o) (Run.deref o) :=
  .of_ok fun s => ⟨o.now s, s, deref_eq .., deref_eq ..⟩

/-- What several operands stand for together is the same. -/
theorem derefAll (os : List Operand) : setup.Follows (Run.derefAll os) (Run.derefAll os) :=
  (mapEach deref os).bind fun _ => .pure _

/-- What a reference holds under a key is the same. -/
theorem getKey (r : Reference) (k : Key) : setup.Follows (Run.getKey r k) (Run.getKey r k) :=
  .of_ok fun s => ⟨s.heap.getKey r k, s, rfl, rfl⟩

/-- A write goes to the same containers. -/
theorem setKey (r : Reference) (k : Key) (v : Reference) :
    setup.Follows (Run.setKey r k v) (Run.setKey r k v) :=
  changes fun s => congrArg (fun heap => { s with heap }) (s.heap.setKey_unchained r k v)

/-- A name is bound in the same frame. -/
theorem define (frame : Nat) (name : String) (o : Operand) :
    setup.Follows (Run.define frame name o) (Run.define frame name o) := changes fun _ => by rfl

/-- A new object gets the same number. -/
theorem newObject (o : ObjectCell) : setup.Follows (Run.newObject o) (Run.newObject o) :=
  .of_ok fun _ => ⟨_, _, rfl, rfl⟩

/-- A new array gets the same number. -/
theorem newArray (r : Reference) : setup.Follows (Run.newArray r) (Run.newArray r) :=
  .of_ok fun _ => ⟨_, _, rfl, rfl⟩

/-- A new frame gets the same number. -/
theorem newFrame (f : Frame) : setup.Follows (Run.newFrame f) (Run.newFrame f) :=
  .of_ok fun _ => ⟨_, _, rfl, rfl⟩

/-- A function literal becomes a function without marks. -/
theorem newFunction (fn : Script.Function) (scope : Stack) :
    setup.Follows (Run.newFunction fn scope) (Run.newFunction fn.unchained scope) := by
  refine .of_ok fun s => ⟨_, _, rfl, ?_⟩
  have h := s.heap.addClosure_unchained
    { name := (fn.name.map (·.name)).getD "", code := some ⟨s.unit, fn⟩, scope, accessor := none }
  unfold Run.newFunction
  rw [Script.Function.name_pruned]
  exact congrArg (fun r => EStateM.Result.ok r.1 { s.unchained with heap := r.2 }) h

/-- The innermost frame is the same. -/
theorem top (stack : Stack) : setup.Follows (Run.top stack) (Run.top stack) := by
  cases stack with
  | nil => exact .throw _
  | cons frame stack => exact .pure _

/-- The frame that binds a name is the same. -/
theorem owner? (stack : Stack) (name : String) :
    setup.Follows (Run.owner? stack name) (Run.owner? stack name) :=
  .of_ok fun s => ⟨s.heap.owner? stack name, s, rfl, rfl⟩

/-- A name stands for the same. -/
theorem lookup (name : String) (stack : Stack) :
    setup.Follows (Run.lookup name stack) (Run.lookup name stack) :=
  .of_ok fun s => ⟨s.heap.meaning stack name, s, lookup_eq .., lookup_eq ..⟩

/-- A name is bound anew in the same frame. -/
theorem rebind (name : String) (r : Reference) (stack : Stack) :
    setup.Follows (Run.rebind name r stack) (Run.rebind name r stack) := by
  refine (owner? stack name).bind fun frame => ?_
  cases frame with
  | some frame => exact define ..
  | none =>
    dsimp only
    split
    · exact define ..
    · exact .throw _

/-- Globals are converted to the same containers. -/
theorem newGlobals (root : Host.Datum) :
    setup.Follows (Run.newGlobals root) (Run.newGlobals root) where
  run s := by
    rw [newGlobals_eq, newGlobals_eq, show setup.unchained.graph = setup.graph from rfl]
    cases setup.graph.globals root with
    | error fault => exact .inr rfl
    | ok entries =>
      have hconversion : s.unchained.conversion =
          s.conversion.withClosures (s.heap.closures.map Closure.unchained) := rfl
      have hclosures : (Host.Conversion.frame setup.graph s.conversion entries).2.heap.closures =
        s.heap.closures := Host.Conversion.closures_frame setup.graph s.conversion entries
      dsimp only
      rw [hconversion, Host.Conversion.frame_withClosures]
      simp only [EndsUnchained, State.withConversion, Host.Conversion.withClosures, State.unchained,
        Heap.unchained, hclosures]

/-! ### Logging, warnings and reports -/

/-- Entries of the log are the same if they do not depend on marks. -/
theorem log (level : Log.Level) {entry entry' : State → String × Log.Fields}
    (h : ∀ s, entry' s.unchained = entry s) :
    setup.Follows (Run.log level entry) (Run.log level entry') := by
  refine .read ?_
  rw [options_unchained]
  cases setup.options.sink? with
  | none => exact .pure ()
  | some logger => exact changes fun s => by rw [h]; rfl

/-- Warnings are the same. -/
theorem warn (message : String) : setup.Follows (Run.warn message) (Run.warn message) := by
  unfold Run.warn
  refine (log .warn fun _ => by rfl).seq (.read ?_)
  rw [options_unchained]
  split
  · exact changes fun _ => by rfl
  · exact .pure ()

/-- What is not supported is refused or passed over alike. -/
theorem unsupported (code : UnsupportedCode) (kind : Script.NodeKind) (span : Span) :
    setup.Follows (Run.unsupported code kind span) (Run.unsupported code kind span) := by
  unfold Run.unsupported
  refine .read ?_
  rw [options_unchained]
  split
  · exact .throw _
  · exact warn _

/-- Both sides stop if the analysis is canceled. -/
theorem checkCanceled : setup.Follows Run.checkCanceled Run.checkCanceled := by
  unfold Run.checkCanceled
  refine .read ?_
  rw [canceled_unchained]
  split
  · exact .throw _
  · exact .pure ()

/-- Diagnostics go to the same call. -/
theorem anchor (span : Span) : setup.Follows (Run.anchor span) (Run.anchor span) :=
  .of_ok fun s => ⟨s.anchors.head?.getD span, s, rfl, rfl⟩

/-- Diagnostics are the same. -/
theorem report (site : Site) (message : String) (path : Option Path) :
    setup.Follows (Run.report site message path) (Run.report site message path) :=
  (anchor site.span).bind fun _ => (changes fun _ => by rfl).seq (log .info fun _ => rfl)

/-- A reference has a path on both sides or on none. -/
theorem checkGlobal (r : Reference) (site : Site) (violation : Violation) :
    setup.Follows (Run.checkGlobal r site violation) (Run.checkGlobal r site violation) := by
  unfold Run.checkGlobal
  refine .get fun s => ?_
  rw [State.provenance_unchained]
  cases s.provenance.findAny? r with
  | none => exact .pure false
  | some path => exact (report ..).seq (.pure true)

/-- A name is one of the globals on both sides or on none. -/
theorem checkGlobalName (name : String) (stack : Stack) (site : Site) (violation : Violation) :
    setup.Follows (Run.checkGlobalName name stack site violation)
      (Run.checkGlobalName name stack site violation) := by
  refine (owner? stack name).bind fun frame => ?_
  cases frame with
  | none => exact .pure ()
  | some frame =>
    dsimp only
    split
    · exact report ..
    · exact .pure ()

/-! ### Scopes -/

/-- Entering a scope. The functions of its template lose their marks, so what is done with the
template belongs to the statement. -/
theorem template (start : Int) {α : Type} {f f' : ScopeTemplate → Run α}
    (h : ∀ t, setup.Follows (f t) (f' t.unchained)) :
    setup.Follows (Run.template start >>= f) (Run.template start >>= f') where
  run s := by
    have hx := template_eq start setup (s := s) rfl
    have hx' := template_eq start setup.unchained (s := s.unchained) rfl
    have hprogram : setup.unchained.programs[s.unit]? =
        (setup.programs[s.unit]?).map fun p => .ofProgram p.program.unchained :=
      Array.getElem?_map ..
    rw [State.unit_unchained, hprogram] at hx'
    cases hp : setup.programs[s.unit]? with
    | none =>
      rw [hp] at hx hx'
      rw [bind_of_error hx, bind_of_error hx']
      exact .inr rfl
    | some p =>
      have hfind : (Prepared.ofProgram p.program.unchained).hoisting.find? start =
          (p.hoisting.find? start).map ScopeTemplate.unchained := by
        rw [p.hoisting_eq, ← Hoisting.find?_unchained, ← Program.hoisting_unchained]
        rfl
      rw [hp] at hx hx'
      dsimp only [Option.map_some] at hx hx'
      rw [hfind] at hx'
      cases ht : p.hoisting.find? start with
      | none =>
        rw [ht] at hx hx'
        rw [bind_of_error hx, bind_of_error hx']
        exact .inr rfl
      | some t =>
        rw [ht] at hx hx'
        rw [bind_of_ok hx, bind_of_ok hx']
        exact (h t).run s

/-- The variables and functions of a template are declared, where the functions lose their marks. -/
theorem instantiate (t : ScopeTemplate) (stack : Stack) :
    setup.Follows (Run.instantiate t stack) (Run.instantiate t.unchained stack) := by
  refine (newFrame _).bind fun frame => Follows.seq ?_ (.pure _)
  refine forM (fun fn => ?_) t.functions
  rw [Script.Function.name_pruned]
  cases fn.name with
  | none => exact .pure ()
  | some id => exact (newFunction fn _).bind fun _ => define ..

/-- A frame is pushed on the same stack. -/
theorem pushFrame (stack : Stack) : setup.Follows (Run.pushFrame stack) (Run.pushFrame stack) :=
  (newFrame _).bind fun _ => .pure _

end Follows

end Setup

end FrozenGlobals
