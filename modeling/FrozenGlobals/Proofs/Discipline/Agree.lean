import FrozenGlobals.Analysis
import FrozenGlobals.Proofs.Analysis.Evaluation
import FrozenGlobals.Proofs.Script.Parts
import Mathlib

/-!
# Disciplines

What all runs have in common, whatever is proved about them. `State.Change` lists the single changes
an evaluation makes, and a `Discipline` is an invariant and an order of states that every change
keeps, together with the failures it allows. `Discipline.Agree` compares two computations: from
every state in order, what the first one does, the second one does too, unless the first one gives
up; and the state stays in order and grows. A computation compared to itself keeps the discipline.

The second computation may be one of an analysis with other settings (`Discipline.twin`): a stricter
one, one with another ceiling of nested calls, or one that is canceled. Then it also may stop where
the first one goes on, or part from it. Disciplines that have no use for that are
`Discipline.Alone`.

Where an evaluation stands (`Position`) is the same before and after each computation, and brackets
change it for what they enclose. So conditions on computations speak about positions, and nothing
has to be said about the states in between.
-/

namespace FrozenGlobals

open Run
open Script (Span Node Hoisting)

/-- A failure ends what was to be done. -/
theorem Run.bind_of_error {α β : Type} {setup : Setup} {s s' : State} {x : Run α} {f : α → Run β}
    {e : Failure} (h : x setup s = .error e s') : (x >>= f) setup s = .error e s' := by
  show EStateM.bind (x setup) (fun a => f a setup) s = _
  rw [EStateM.bind, h]

/-- What ends was begun. -/
theorem Run.ok_of_bind {α β : Type} {setup : Setup} {s s' : State} {x : Run α} {f : α → Run β}
    {b : β} (h : (x >>= f) setup s = .ok b s') :
    ∃ a t, x setup s = .ok a t ∧ f a setup t = .ok b s' := by
  cases hx : x setup s with
  | ok a t => exact ⟨a, t, rfl, (bind_of_ok hx).symm.trans h⟩
  | error e t =>
    rw [bind_of_error hx] at h
    cases h

/-- Logging changes nothing but the log. -/
theorem Run.log_ok (setup : Setup) (level : Log.Level) (entry : State → String × Log.Fields)
    (s : State) : ∃ entries, log level entry setup s = .ok () { s with log := entries } := by
  unfold log
  rw [read_bind]
  cases setup.options.sink? with
  | none => exact ⟨s.log, rfl⟩
  | some logger => exact ⟨_, rfl⟩

/-- An analysis that was canceled fails at the next check, and no other one does. -/
theorem Run.checkCanceled_eq (setup : Setup) (s : State) :
    checkCanceled setup s = if setup.canceled then .error .canceled s else .ok () s := by
  unfold checkCanceled
  rw [read_bind]
  split <;> rfl

/-- Warnings are kept if they are asked for. -/
theorem Run.warn_eq (setup : Setup) (message : String) (s : State) :
    ∃ entries, warn message setup s = .ok () { s with
      log := entries
      warnings := if setup.options.warnings then s.warnings.push message else s.warnings } := by
  obtain ⟨entries, heq⟩ := log_ok setup .warn (fun _ => (message, [])) s
  refine ⟨entries, ?_⟩
  unfold warn
  rw [bind_of_ok heq, read_bind]
  split <;> rfl

/-- A stack with the frames of the globals and of the program keeps them. -/
theorem Stack.two_le_cons {stack : Stack} (f : Nat) (h : 2 ≤ stack.length) :
    2 ≤ (f :: stack).length := Nat.le_succ_of_le h

/-- Every stack with a frame has one for the program. -/
theorem Stack.programFrame?_isSome : ∀ stack : Stack, stack ≠ [] →
    (programFrame? stack).isSome
  | [_], _ => rfl
  | [_, _], _ => rfl
  | _ :: b :: c :: rest, _ => by
    rw [programFrame?]
    · exact programFrame?_isSome (b :: c :: rest) (List.cons_ne_nil _ _)
    · simp
    · simp

/-- Where an evaluation stands: in which program, under how many calls, and under which calls of the
analyzed program. -/
structure Position where
  unit : Nat
  depth : Nat
  anchors : List Span
deriving DecidableEq

namespace Position

/-- Where reports about a range go. -/
def anchor (p : Position) (span : Span) : Span := p.anchors.head?.getD span

/-- Inside a call of a function of a program. -/
def called (p : Position) (unit : Nat) : Position := { p with unit, depth := p.depth + 1 }

/-- Inside external code reached through a call. -/
def anchored (p : Position) (span : Span) : Position :=
  { p with anchors := p.anchor span :: p.anchors }

end Position

namespace State

def position (s : State) : Position := ⟨s.unit, s.depth, s.anchors⟩

/-- The state at the beginning of a call. -/
def called (s : State) (key : FunctionKey) : State :=
  { s with
    reentries := if 0 < s.active.count key then s.reentries.add key else s.reentries
    depth := s.depth + 1
    calls := s.calls + 1
    active := s.active.add key }

/-- The state after a call. -/
def returned (s : State) (key : FunctionKey) : State :=
  { s with depth := s.depth - 1, active := s.active.remove key }

/-- What a diagnostic may be about: nothing in particular, a container of the globals, or a name
that the globals bind. -/
inductive Names (scope : Stack → Prop) (s : State) : Option Path → Prop
  | nothing : Names scope s none
  | container {v : Value} {path : Path} :
      s.provenance.find? v = some path → Names scope s (some path)
  | binding {stack : Stack} {frame : Nat} {name : String} : scope stack →
      Stack.globals? stack = some frame → s.heap.owner? stack name = some frame →
      Names scope s (some [.key name])

end State

/-! ## Skipped calls -/

/-- A call that is not followed: it would nest too deep, or its function was entered again too
often.
-/
inductive Skip where
  | tooDeep (site : Site)
  | spent (fn : Closure) (budget : Nat)

namespace Skip

/-- The call is not to be followed. -/
def Due (o : Options) (s : State) : Skip → Prop
  | .tooDeep _ => 0 ≤ o.maxCallDepth ∧ o.maxCallDepth ≤ s.depth
  | .spent fn budget =>
      o.budget? = some budget ∧ 0 < s.active.count fn.key ∧ budget ≤ s.reentries.count fn.key

/-- Such a call was warned about. -/
def known (s : State) : Skip → Bool
  | .tooDeep _ => s.ceilingWarned
  | .spent fn _ => s.budgetWarned.contains fn.key

def message (o : Options) : Skip → String
  | .tooDeep site =>
      "call at " ++ site.span.render ++ " not followed: call depth ceiling "
        ++ toString o.maxCallDepth ++ " reached"
  | .spent fn budget =>
      "invocation budget of " ++ toString budget ++ " recursive calls to "
        ++ fn.displayName ++ " exhausted; further recursive calls are not followed"

def ceilingWarned (s : State) : Skip → Bool
  | .tooDeep _ => true
  | .spent _ _ => s.ceilingWarned

def budgetWarned (s : State) : Skip → List FunctionKey
  | .tooDeep _ => s.budgetWarned
  | .spent fn _ =>
      if s.budgetWarned.contains fn.key then s.budgetWarned else fn.key :: s.budgetWarned

/-- The first call that is skipped for a reason is warned about. -/
def warnings (o : Options) (s : State) (skip : Skip) : Array String :=
  if o.warnings && !skip.known s then s.warnings.push (skip.message o) else s.warnings

/-- What was noted about skipped calls stays. -/
theorem ceilingWarned_of {s : State} (skip : Skip) (h : s.ceilingWarned = true) :
    skip.ceilingWarned s = true := by
  cases skip with
  | tooDeep site => rfl
  | spent fn budget => exact h

/-- A skipped call does not take functions off the list of those warned about. -/
theorem subset_budgetWarned {s : State} (skip : Skip) : s.budgetWarned ⊆ skip.budgetWarned s := by
  cases skip with
  | tooDeep site => exact List.Subset.refl _
  | spent fn budget =>
    simp only [budgetWarned]
    split
    · exact List.Subset.refl _
    · exact List.subset_cons_self _ _

/-- A skipped call adds to the warnings and takes none away. -/
theorem warnings_prefix (o : Options) (s : State) (skip : Skip) :
    s.warnings.toList <+: (skip.warnings o s).toList := by
  unfold warnings
  split
  · simp
  · exact List.prefix_refl _

/-- Warnings about calls that would nest too deep end like this, and no other ones. -/
def isCeilingWarning (message : String) : Bool := " reached".toList.isSuffixOf message.toList

/-- Warnings about functions that were entered again too often end like this, and no other ones. -/
def isBudgetWarning (message : String) : Bool :=
  " are not followed".toList.isSuffixOf message.toList

/-- A warning about something other than a skipped call. -/
structure Unrelated (message : String) : Prop where
  ceiling : isCeilingWarning message = false
  budget : isBudgetWarning message = false

/-- Whether a text ends with another one is seen from its last character backwards. -/
theorem isSuffixOf_append (ending start text : String) :
    ending.toList.isSuffixOf (start ++ text).toList =
      ending.toList.reverse.isPrefixOf (text.toList.reverse ++ start.toList.reverse) := by
  rw [List.isSuffixOf, String.toList_append, List.reverse_append]

/-- A warning says by its end that it is not about a skipped call. -/
theorem Unrelated.of_end {start text : String}
    (h : ∀ rest, " reached".toList.reverse.isPrefixOf (text.toList.reverse ++ rest) = false ∧
      " are not followed".toList.reverse.isPrefixOf (text.toList.reverse ++ rest) = false) :
    Unrelated (start ++ text) :=
  ⟨(isSuffixOf_append ..).trans (h _).1, (isSuffixOf_append ..).trans (h _).2⟩

end Skip

/-- Warnings about unsupported constructs are not about skipped calls. -/
theorem Unsupported.unrelated (u : Unsupported) : Skip.Unrelated u.message :=
  .of_end fun _ => ⟨rfl, rfl⟩

namespace State

/-- A function may be entered once more. -/
def Affords (s : State) (o : Options) (key : FunctionKey) : Prop :=
  ∀ budget, o.budget? = some budget → 0 < s.active.count key → s.reentries.count key < budget

/-- The state after a call was skipped. -/
def skipped (s : State) (o : Options) (skip : Skip) : State :=
  { s with
    ceilingWarned := skip.ceilingWarned s
    budgetWarned := skip.budgetWarned s
    warnings := skip.warnings o s }

section
variable {o : Options} {s : State}

/-- A reason that is known is not noted once more. -/
theorem skipped_known (skip : Skip) (h : skip.known s = true) : s.skipped o skip = s := by
  cases s
  cases skip <;> simp_all [skipped, Skip.known, Skip.ceilingWarned, Skip.budgetWarned,
    Skip.warnings]

/-- The first call that nests too deep sets the mark of the ceiling. -/
theorem skipped_tooDeep {site : Site} (h : s.ceilingWarned = false) :
    s.skipped o (.tooDeep site) =
      { s with
        ceilingWarned := true
        warnings := if o.warnings then s.warnings.push (Skip.message o (.tooDeep site))
          else s.warnings } := by
  simp [skipped, Skip.known, Skip.ceilingWarned, Skip.budgetWarned, Skip.warnings, h]

/-- The first call beyond the budget of a function puts it on the list. -/
theorem skipped_spent {fn : Closure} (budget : Nat)
    (h : s.budgetWarned.contains fn.key = false) :
    s.skipped o (.spent fn budget) =
      { s with
        budgetWarned := fn.key :: s.budgetWarned
        warnings := if o.warnings then s.warnings.push (Skip.message o (.spent fn budget))
          else s.warnings } := by
  simp only [skipped, Skip.known, Skip.ceilingWarned, Skip.budgetWarned, Skip.warnings, h,
    Bool.not_false, Bool.and_true, Bool.false_eq_true, if_false]

end

/-! ## Changes -/

/-- The single changes an evaluation makes. Reports are made about places where they may be, and
functions are created from code that may be run, under frames that may be seen. -/
inductive Change (setup : Setup) (scope : Stack → Prop) (code : Nat → Script.Function → Prop)
    (place : Nat → Span → Prop) : State → State → Prop
  /-- Bookkeeping. -/
  | note {s : State} (log : Array Log.Entry) (requests : Array Path) :
      Change setup scope code place s { s with log, requests }
  | warn {s : State} {message : String} : Skip.Unrelated message →
      Change setup scope code place s { s with warnings := s.warnings.push message }
  | skip {s : State} {skip : Skip} : skip.Due setup.options s →
      Change setup scope code place s (s.skipped setup.options skip)
  | report {s : State} {site : Site} {path : Option Path} (message : String) :
      place s.unit site.span → s.Names scope path →
      Change setup scope code place s
        { s with diagnostics := s.diagnostics.push (diagnosticAt s site message path) }
  | throws {s : State} (r : Reference) :
      Change setup scope code place s { s with thrown := s.thrown.union r }
  | object {s : State} (o : ObjectCell) :
      Change setup scope code place s { s with heap := (s.heap.addObject o).2 }
  | array {s : State} (r : Reference) :
      Change setup scope code place s { s with heap := (s.heap.addArray r).2 }
  | frame {s : State} (f : Frame) :
      Change setup scope code place s { s with heap := (s.heap.addFrame f).2 }
  | accessor {s : State} (id : Nat) (a : Accessor) :
      Change setup scope code place s { s with heap := s.heap.markAccessor id a }
  | define {s : State} (frame : Nat) (name : String) (o : Operand) :
      Change setup scope code place s { s with heap := s.heap.define frame name o }
  | setKey {s : State} (r : Reference) (k : Key) (v : Reference) :
      Change setup scope code place s { s with heap := s.heap.setKey r k v }
  | closure {s : State} {fn : Script.Function} {stack : Stack} (name : String) : scope stack →
      code s.unit fn →
      Change setup scope code place s
        { s with heap := (s.heap.addClosure ⟨name, some ⟨s.unit, fn⟩, stack, none⟩).2 }
  | convert {s : State} {root : Host.Datum} {entries : List (String × Host.Datum)} :
      setup.graph.globals root = .ok entries →
      Change setup scope code place s
        (s.withConversion (Host.Conversion.frame setup.graph s.conversion entries).2)

/-- No single change moves an evaluation to another program, depth or anchor. -/
theorem Change.position {setup : Setup} {scope : Stack → Prop}
    {code : Nat → Script.Function → Prop} {place : Nat → Span → Prop} {s s' : State}
    (h : Change setup scope code place s s') : s'.position = s.position := by
  cases h <;> rfl

/-- Entering another state and leaving it again. -/
structure Brackets (inv : State → Prop) (le : State → State → Prop) (s t : State)
    (leave : State → State) : Prop where
  enter : inv t
  leave : ∀ {s'}, inv s' → le t s' → inv (leave s') ∧ le s (leave s')

end State

/-- What an analysis has recorded for whoever asked for it. -/
structure State.Record where
  diagnostics : Array Diagnostic
  warnings : Array String
  ceilingWarned : Bool
  budgetWarned : List FunctionKey

def State.record (s : State) : State.Record :=
  ⟨s.diagnostics, s.warnings, s.ceilingWarned, s.budgetWarned⟩

/-- Failures that have a cause in what is analyzed. -/
def Failure.Expected (setup : Setup) : Failure → Prop
  | .unsupported _ | .invalidGlobals _ | .canceled | .resolver _ | .missingProgram _ => True
  | .callDepthExceeded _ _ => setup.options.maxCallDepth < 0
  | .inCallbacks _ cause => cause.Expected setup
  | .noProgram | .invalidProgram | .internal _ | .outOfFuel => False

/-- Naming the path does not hide that the levels ran out. -/
theorem Failure.outOfFuel_within {f : Failure} (path : String) (h : f = .outOfFuel) :
    f.within path = .outOfFuel := by
  subst h
  rfl

/-- The cause of a failure is the same from wherever it is named. -/
theorem Failure.root_within (f : Failure) (path : String) : (f.within path).root = f.root := by
  cases f <;> rfl

/-- A program is run for some path that the resolver is asked for. -/
def Setup.Implements (setup : Setup) (unit : Nat) : Prop :=
  ∃ resolver path impls impl, setup.resolver = some resolver ∧ resolver path = .ok impls ∧
    impl ∈ impls ∧ impl.program = some unit

/-- The same analysis, strict or not. -/
def Setup.treating (setup : Setup) (strict : Bool) : Setup :=
  { setup with options := { setup.options with strict } }

/-- The same analysis with another ceiling of nested calls. -/
def Setup.limited (setup : Setup) (maxCallDepth : Int) : Setup :=
  { setup with options := { setup.options with maxCallDepth } }

/-- The same analysis, canceled before it begins or not at all. -/
def Setup.canceling (setup : Setup) (canceled : Bool) : Setup := { setup with canceled }

/-- The same analysis, strict or not, with another ceiling of nested calls, and canceled or not. -/
def Setup.varied (setup : Setup) (v : Bool × Int × Bool) : Setup :=
  ((setup.treating v.1).limited v.2.1).canceling v.2.2

/-- An analysis passes over what it passes over. -/
theorem Setup.never_overruled (setup : Setup) (h : setup.options.strict ≠ setup.options.strict) :
    ∀ {u : Unsupported} {s s' : State}, warn u.message setup s = .ok () s' → False := absurd rfl h

/-- An invariant and an order of states that every change keeps. -/
structure Discipline (setup : Setup) where
  /-- Whether the second of two computations belongs to a strict analysis. -/
  strict : Bool := setup.options.strict
  /-- How many calls may nest in the second of two computations. -/
  ceiling : Int := setup.options.maxCallDepth
  /-- Whether the second of two computations belongs to a canceled analysis. -/
  canceled : Bool := setup.canceled
  inv : State → Prop
  le : State → State → Prop
  /-- The failures allowed. -/
  fails : Failure → Prop
  /-- The failures that say that a computation gave up. -/
  lost : Failure → Prop
  /-- The failures that the second of two computations may stop with, given what it and the first
  one recorded. -/
  stops : Failure → State.Record → State.Record → Prop := fun _ _ _ => False
  /-- What the first of two computations recorded if the second one parted from it. -/
  parted : State.Record → Prop := fun _ => False
  /-- The frames that may be seen. -/
  scope : Stack → Prop
  /-- The functions of a program that may be created. -/
  code : Nat → Script.Function → Prop
  /-- The ranges of a program that may be reported on. -/
  place : Nat → Span → Prop := fun _ _ => True
  /-- The programs that may be run. -/
  unit : Nat → Prop
  /-- The blocks of a program that may be entered. -/
  enters : Nat → Int → Prop
  refl : ∀ s, le s s
  trans : ∀ {s₁ s₂ s₃}, le s₁ s₂ → le s₂ s₃ → le s₁ s₃
  position : ∀ {s s'}, le s s' → s'.position = s.position
  change : ∀ {s s'}, inv s → State.Change setup scope code place s s' → inv s' ∧ le s s'
  inUnit : ∀ {s u}, inv s → unit u →
    State.Brackets inv le s { s with unit := u } ({ · with unit := s.unit })
  closure : ∀ {s id fn}, inv s → s.heap.closure? id = some fn →
    scope fn.scope ∧ ∀ k, fn.code = some k → code k.unit k.literal
  push : ∀ {stack} (f), scope stack → scope (f :: stack)
  framed : ∀ {stack}, scope stack → 2 ≤ stack.length ∨ fails (.internal .scopeUnderflow)
  root : ∀ {u}, unit u → enters u Hoisting.root
  opens : ∀ {u p start}, setup.programs[u]? = some p → enters u start →
    (p.hoisting.find? start).isSome ∨ fails (.internal (.noScope start))
  hoisted : ∀ {u start p t fn}, enters u start → setup.programs[u]? = some p →
    t ∈ p.hoisting.templates → fn ∈ t.functions → code u fn
  runnable : ∀ {u fn}, code u fn → unit u
  external : ∀ {u}, setup.Implements u → unit u
  missing : ∀ {s}, inv s → setup.programs[s.unit]? = none → fails (.internal .noProgram)
  expected : ∀ {f}, f.Expected setup → fails f
  fails_within : ∀ {f} (path), fails f → fails (f.within path)
  lost_within : ∀ {f} (path), lost f → lost (f.within path)
  stricter : setup.options.strict = true → strict = true := by exact fun h => h
  overruled : strict ≠ setup.options.strict → ∀ {u : Unsupported} {s s'},
    warn u.message setup s = .ok () s' → stops (.unsupported u) s.record s'.record := by
      exact Setup.never_overruled setup
  stops_le : ∀ {f r s s'}, le s s' → stops f r s.record → stops f r s'.record := by
    exact fun _ h => h
  stops_within : ∀ {f r r'} (path), stops f r r' → stops (f.within path) r r' := by
    exact fun _ h => h
  parted_le : ∀ {s s'}, le s s' → parted s.record → parted s'.record := by
    exact fun _ h => h

namespace Discipline

variable {setup : Setup} (D : Discipline setup)

/-- The analysis of the second of two computations. -/
def twin : Setup := setup.varied (D.strict, D.ceiling, D.canceled)

/-- Both computations are canceled, or neither of them is. -/
class Abreast : Prop where
  canceled : D.canceled = setup.canceled

/-- Both computations have the same ceiling of nested calls, too. -/
class Level : Prop extends D.Abreast where
  ceiling : D.ceiling = setup.options.maxCallDepth

/-- Computations with one ceiling differ in how strict they are at most. -/
theorem twin_eq [h : D.Level] : D.twin = setup.treating D.strict := by
  rw [twin, h.ceiling, h.canceled]
  rfl

/-- Both computations belong to the same analysis, and neither of them leaves the other. -/
class Alone : Prop where
  twin : D.twin = setup
  never : ∀ f r r', ¬ D.stops f r r'
  together : ∀ r, ¬ D.parted r

/-- Calls keep the invariant and the order. -/
class Counting : Prop where
  counted : ∀ {s} (key), D.inv s → s.depth < setup.callLevels →
    State.Brackets D.inv D.le s (s.called key) (State.returned · key)

instance [h : D.Alone] : D.Level where
  canceled := congrArg (·.canceled) h.twin
  ceiling := congrArg (·.options.maxCallDepth) h.twin

/-- A second computation ends as the first one, or was stopped, or has parted from it. -/
def Mirrors {α : Type} (r r' : EStateM.Result Failure State α) (s' : State) : Prop :=
  r' = r ∨ (∃ g t, r' = .error g t ∧ D.stops g t.record s'.record) ∨ D.parted s'.record

/-- From a state, a second computation does what the first one does, unless the first one gives up.
The state stays in order and grows, a result satisfies a condition, and a failure is allowed. -/
def AgreeAt {α : Type} (s : State) (x x' : Run α) (Q : α → Prop) : Prop :=
  match x setup s with
  | .ok a s' => D.Mirrors (.ok a s') (x' D.twin s) s' ∧ D.inv s' ∧ D.le s s' ∧ Q a
  | .error f s' => D.lost f ∨
      D.Mirrors (.error f s') (x' D.twin s) s' ∧ D.inv s' ∧ D.le s s' ∧ D.fails f

/-- Two computations agree from every state in order at a position. -/
structure Agree {α : Type} (p : Position) (x x' : Run α) (Q : α → Prop) : Prop where
  run : ∀ s, D.inv s → s.position = p → D.AgreeAt s x x' Q

/-- A computation keeps the discipline. -/
abbrev Keeps {α : Type} (p : Position) (x : Run α) (Q : α → Prop) : Prop := D.Agree p x x Q

variable {D} {p : Position}

/-- A computation mirrors itself. -/
theorem Mirrors.refl {α : Type} (r : EStateM.Result Failure State α) (s : State) :
    D.Mirrors r r s := .inl rfl

/-- Where nothing is ever stopped or parted, mirroring is equality. -/
theorem Mirrors.eq [D.Alone] {α : Type} {r r' : EStateM.Result Failure State α} {s : State}
    (h : D.Mirrors r r' s) : r' = r :=
  h.resolve_right fun h => h.elim (fun ⟨_, _, _, hstops⟩ => Alone.never _ _ _ hstops)
    (Alone.together _)

/-! ## Composition -/

section
variable {α β : Type} {s : State} {x x' : Run α} {f f' : α → Run β} {Q : α → Prop} {R : β → Prop}

namespace AgreeAt

/-- A result at hand agrees with itself from a state in order. -/
theorem pure {a : α} (hs : D.inv s) (h : Q a) : D.AgreeAt s (Pure.pure a) (Pure.pure a) Q :=
  ⟨.refl _ _, hs, D.refl s, h⟩

/-- One computation after another, from where the first one ends. -/
theorem bindAt (hx : D.AgreeAt s x x' Q)
    (hf : ∀ a t, x setup s = .ok a t → Q a → D.inv t → D.le s t → D.AgreeAt t (f a) (f' a) R) :
    D.AgreeAt s (x >>= f) (x' >>= f') R := by
  unfold AgreeAt at hx ⊢
  cases hxs : x setup s with
  | ok a t =>
    rw [hxs] at hx
    obtain ⟨hx', ht, hle, hq⟩ := hx
    have hf := hf a t hxs hq ht hle
    unfold AgreeAt at hf
    -- what the second computation does from there on
    have hend : ∀ {r : EStateM.Result Failure State β} {u : State}, D.Mirrors r (f' a D.twin t) u →
        D.le t u → D.Mirrors r ((x' >>= f') D.twin s) u := by
      intro r u hm hle
      rcases hx' with heq | ⟨g, v, heq, hstops⟩ | hparted
      · rw [bind_of_ok heq]
        exact hm
      · exact .inr (.inl ⟨g, v, bind_of_error heq, D.stops_le hle hstops⟩)
      · exact .inr (.inr (D.parted_le hle hparted))
    rw [bind_of_ok hxs]
    cases hfs : f a setup t with
    | ok b u =>
      rw [hfs] at hf
      exact ⟨hend hf.1 hf.2.2.1, hf.2.1, D.trans hle hf.2.2.1, hf.2.2.2⟩
    | error e u =>
      rw [hfs] at hf
      refine hf.imp_right fun h => ?_
      exact ⟨hend h.1 h.2.2.1, h.2.1, D.trans hle h.2.2.1, h.2.2.2⟩
  | error e t =>
    rw [hxs] at hx
    rw [bind_of_error hxs]
    refine hx.imp_right fun h => ⟨?_, h.2⟩
    rcases h.1 with heq | ⟨g, v, heq, hstops⟩ | hparted
    · exact .inl (bind_of_error heq)
    · exact .inr (.inl ⟨g, v, bind_of_error heq, hstops⟩)
    · exact .inr (.inr hparted)

/-- One computation after another. -/
theorem bind (hx : D.AgreeAt s x x' Q)
    (hf : ∀ a t, Q a → D.inv t → D.le s t → D.AgreeAt t (f a) (f' a) R) :
    D.AgreeAt s (x >>= f) (x' >>= f') R := hx.bindAt fun a t _ => hf a t

/-- Computations that read the state agree if they agree on that state. -/
theorem get {f f' : State → Run β} (h : D.AgreeAt s (f s) (f' s) R) :
    D.AgreeAt s (MonadState.get >>= f) (MonadState.get >>= f') R := h

/-- Computations that read the setup agree if the second one does the same with either setup. -/
theorem read {f f' : Setup → Run β} (h : D.AgreeAt s (f setup) (f' setup) R)
    (hf : f' D.twin = f' setup := by rfl) :
    D.AgreeAt s (MonadReader.read >>= f) (MonadReader.read >>= f') R := by
  rw [← hf] at h
  exact h

/-- Conditions on results may be weakened. -/
theorem imp {R : α → Prop} (h : D.AgreeAt s x x' Q) (hQ : ∀ a, Q a → R a) :
    D.AgreeAt s x x' R := by
  unfold AgreeAt at h ⊢
  cases hxs : x setup s with
  | ok a s' =>
    rw [hxs] at h
    exact ⟨h.1, h.2.1, h.2.2.1, hQ a h.2.2.2⟩
  | error e s' =>
    rw [hxs] at h
    exact h

/-- What agreement says where both computations belong to one analysis. -/
theorem alone [D.Alone] (h : D.AgreeAt s x x' Q) :
    match x setup s with
    | .ok a s' => x' setup s = .ok a s' ∧ D.inv s' ∧ D.le s s' ∧ Q a
    | .error f s' => D.lost f ∨ x' setup s = .error f s' ∧ D.inv s' ∧ D.le s s' ∧ D.fails f := by
  unfold AgreeAt at h
  rw [Alone.twin (D := D)] at h
  cases hxs : x setup s with
  | ok a s' =>
    rw [hxs] at h
    exact ⟨h.1.eq, h.2⟩
  | error e s' =>
    rw [hxs] at h
    exact h.imp_right fun h => ⟨h.1.eq, h.2⟩

/-- Two computations that agree do the same if they belong to one analysis and cannot give up. -/
theorem eq [D.Alone] (hlost : ∀ f, ¬ D.lost f) (h : D.AgreeAt s x x' Q) :
    x' setup s = x setup s := by
  have h := h.alone
  cases hxs : x setup s with
  | ok a s' =>
    rw [hxs] at h
    exact h.1
  | error e s' =>
    rw [hxs] at h
    exact (h.resolve_left (hlost e)).1

/-- What a result is known to be may be used. -/
theorem of_result (h : D.AgreeAt s x x' Q) :
    D.AgreeAt s x x' fun a => ∃ s', x setup s = .ok a s' := by
  unfold AgreeAt at h ⊢
  cases hxs : x setup s with
  | ok a s' =>
    rw [hxs] at h
    exact ⟨h.1, h.2.1, h.2.2.1, s', rfl⟩
  | error e s' =>
    rw [hxs] at h
    exact h

/-- Computations that end with changes of the state. -/
theorem of_changes (hs : D.inv s) (h : ∃ a s', (∀ v, x (setup.varied v) s = .ok a s') ∧
      Relation.ReflTransGen (State.Change setup D.scope D.code D.place) s s' ∧ Q a) :
    D.AgreeAt s x x Q := by
  obtain ⟨a, s', heq, hchange, hq⟩ := h
  have hkeeps : D.inv s' ∧ D.le s s' := by
    clear heq hq
    induction hchange with
    | refl => exact ⟨hs, D.refl s⟩
    | tail _ hc ih =>
      obtain ⟨hinv, hle⟩ := D.change ih.1 hc
      exact ⟨hinv, D.trans ih.2 hle⟩
  have hfirst : x setup s = .ok a s' :=
    heq (setup.options.strict, setup.options.maxCallDepth, setup.canceled)
  unfold AgreeAt
  rw [hfirst]
  exact ⟨.inl (heq (D.strict, D.ceiling, D.canceled)), hkeeps.1, hkeeps.2, hq⟩

/-- Computations that go on from a later state. -/
theorem of_later {t : State} {y y' : Run α} (hle : D.le s t) (hx : ∀ setup, x setup s = y setup t)
    (hx' : ∀ setup, x' setup s = y' setup t) (h : D.AgreeAt t y y' Q) : D.AgreeAt s x x' Q := by
  unfold AgreeAt at h ⊢
  rw [hx, hx']
  cases hys : y setup t with
  | ok a s' =>
    rw [hys] at h
    exact ⟨h.1, h.2.1, D.trans hle h.2.2.1, h.2.2.2⟩
  | error e s' =>
    rw [hys] at h
    exact h.imp_right fun h => ⟨h.1, h.2.1, D.trans hle h.2.2.1, h.2.2.2⟩

end AgreeAt

namespace Agree

/-- A result at hand agrees with itself. -/
theorem pure {a : α} (h : Q a) : D.Agree p (Pure.pure a) (Pure.pure a) Q :=
  ⟨fun _ hs _ => .pure hs h⟩

/-- A failure that is allowed agrees with itself. -/
theorem throw {e : Failure} (h : ∀ s, D.inv s → s.position = p → D.fails e) :
    D.Agree p (throw e) (throw e) Q :=
  ⟨fun s hs hp => .inr ⟨.refl _ _, hs, D.refl s, h s hs hp⟩⟩

/-- Failures with a cause in what is analyzed are allowed by every discipline. -/
theorem throw_expected {e : Failure} (h : e.Expected setup) :
    D.Agree p (MonadExcept.throw e) (MonadExcept.throw e) Q := throw fun _ _ _ => D.expected h

/-- Conditions on results may be weakened. -/
theorem imp {R : α → Prop} (h : D.Agree p x x' Q) (hQ : ∀ a, Q a → R a) : D.Agree p x x' R :=
  ⟨fun s hs hp => (h.run s hs hp).imp hQ⟩

/-- What agreement says from each state where both computations belong to one analysis. -/
theorem alone [D.Alone] (h : D.Agree p x x' Q) (s : State) (hs : D.inv s) (hp : s.position = p) :
    match x setup s with
    | .ok a s' => x' setup s = .ok a s' ∧ D.inv s' ∧ D.le s s' ∧ Q a
    | .error f s' => D.lost f ∨ x' setup s = .error f s' ∧ D.inv s' ∧ D.le s s' ∧ D.fails f :=
  (h.run s hs hp).alone

/-- The first of two computations that agree keeps the discipline. -/
theorem left [D.Alone] (h : D.Agree p x x' Q) : D.Keeps p x Q := by
  refine ⟨fun s hs hp => ?_⟩
  have h := h.run s hs hp
  unfold AgreeAt at h ⊢
  rw [Alone.twin (D := D)] at h ⊢
  cases hxs : x setup s with
  | ok a s' =>
    rw [hxs] at h
    exact ⟨.refl _ _, h.2⟩
  | error e s' =>
    rw [hxs] at h
    exact h.imp_right fun h => ⟨.refl _ _, h.2⟩

/-- One computation after another. -/
theorem bind (hx : D.Agree p x x' Q) (hf : ∀ a, Q a → D.Agree p (f a) (f' a) R) :
    D.Agree p (x >>= f) (x' >>= f') R :=
  ⟨fun s hs hp => (hx.run s hs hp).bind fun a t hq ht hle =>
    (hf a hq).run t ht ((D.position hle).trans hp)⟩

/-- A computation whose result does not matter, before another. -/
theorem seq {y y' : Run β} (hx : D.Agree p x x' Q) (hy : D.Agree p y y' R) :
    D.Agree p (x >>= fun _ => y) (x' >>= fun _ => y') R := hx.bind fun _ _ => hy

/-- Computations that read the setup agree if they do so with the first one's. -/
theorem read {f f' : Setup → Run β} (h : D.Agree p (f setup) (f' setup) R)
    (hf : f' D.twin = f' setup := by rfl) :
    D.Agree p (MonadReader.read >>= f) (MonadReader.read >>= f') R :=
  ⟨fun s hs hp => (h.run s hs hp).read hf⟩

/-- What depends on the state is compared from that state. -/
theorem getAt {f f' : State → Run β}
    (h : ∀ s, D.inv s → s.position = p → D.AgreeAt s (f s) (f' s) R) :
    D.Agree p (MonadState.get >>= f) (MonadState.get >>= f') R := ⟨h⟩

/-- Computations that read the state agree if they agree on every state in order. -/
theorem get {f f' : State → Run β}
    (h : ∀ s, D.inv s → s.position = p → D.Agree p (f s) (f' s) R) :
    D.Agree p (MonadState.get >>= f) (MonadState.get >>= f') R :=
  getAt fun s hs hp => (h s hs hp).run s hs hp

/-- Computations that end with changes of the state. -/
theorem of_changes (h : ∀ s, D.inv s → s.position = p → ∃ a s',
      (∀ v, x (setup.varied v) s = .ok a s') ∧
      Relation.ReflTransGen (State.Change setup D.scope D.code D.place) s s' ∧ Q a) :
    D.Agree p x x Q := ⟨fun s hs hp => .of_changes hs (h s hs hp)⟩

/-- Computations that end with one change of the state. -/
theorem of_change (h : ∀ s, D.inv s → s.position = p → ∃ a s',
      (∀ v, x (setup.varied v) s = .ok a s') ∧
      State.Change setup D.scope D.code D.place s s' ∧ Q a) : D.Agree p x x Q :=
  of_changes fun s hs hp => by
    obtain ⟨a, s', heq, hchange, hq⟩ := h s hs hp
    exact ⟨a, s', heq, .single hchange, hq⟩

/-- Computations that read the state. -/
theorem of_read (h : ∀ s, D.inv s → s.position = p →
      ∃ a, (∀ v, x (setup.varied v) s = .ok a s) ∧ Q a) : D.Agree p x x Q :=
  of_changes fun s hs hp => by
    obtain ⟨a, heq, hq⟩ := h s hs hp
    exact ⟨a, s, heq, .refl, hq⟩

/-- A single change keeps the discipline. -/
theorem modify {f : State → State}
    (h : ∀ s, D.inv s → s.position = p → State.Change setup D.scope D.code D.place s (f s)) :
    D.Keeps p (MonadStateOf.modifyGet fun s => ((), f s) : Run Unit) fun _ => True :=
  of_change fun s hs hp => ⟨(), f s, fun _ => rfl, h s hs hp, trivial⟩

end Agree

end

namespace Agree

/-! ## Loops -/

section
variable {α β : Type}

/-- Loops agree if their rounds do. -/
theorem forM {xs : List α} {f f' : α → Run Unit}
    (h : ∀ x ∈ xs, D.Agree p (f x) (f' x) fun _ => True) :
    D.Agree p (xs.forM f) (xs.forM f') fun _ => True := by
  induction xs with
  | nil => exact .pure trivial
  | cons x xs ih =>
    rw [List.forM_eq_forM, List.forM_cons, List.forM_cons]
    exact (h x (by simp)).seq (ih fun y hy => h y (List.mem_cons_of_mem _ hy))

/-- Loops that carry a value agree if their rounds do. -/
theorem foldlM {xs : List α} {f f' : β → α → Run β} {b : β}
    (h : ∀ x ∈ xs, ∀ b, D.Agree p (f b x) (f' b x) fun _ => True) :
    D.Agree p (xs.foldlM f b) (xs.foldlM f' b) fun _ => True := by
  induction xs generalizing b with
  | nil => exact .pure trivial
  | cons x xs ih =>
    rw [List.foldlM_cons, List.foldlM_cons]
    exact (h x (by simp) b).bind fun _ _ => ih fun y hy => h y (List.mem_cons_of_mem _ hy)

/-- Loops that collect results agree if their rounds do. -/
theorem mapM {xs : List α} {f f' : α → Run β}
    (h : ∀ x ∈ xs, D.Agree p (f x) (f' x) fun _ => True) :
    D.Agree p (xs.mapM f) (xs.mapM f') fun _ => True := by
  induction xs with
  | nil => exact .pure trivial
  | cons x xs ih =>
    rw [List.mapM_cons, List.mapM_cons]
    refine (h x (by simp)).bind fun _ _ => ?_
    exact (ih fun y hy => h y (List.mem_cons_of_mem _ hy)).bind fun _ _ => .pure trivial

end

/-! ## Brackets -/

section
variable {α : Type} {x x' : Run α} {Q : α → Prop}

/-- A computation in brackets keeps the discipline if it does so where the brackets lead. Leaving
them does not change what was recorded. -/
theorem bracket {q : Position} {y y' : Run α} {t : State → State} {leave : State → State → State}
    (hb : ∀ s, D.inv s → s.position = p →
      State.Brackets D.inv D.le s (t s) (leave s) ∧ (t s).position = q)
    (hy : ∀ setup s, y setup s = x.restoring (leave s) setup (t s))
    (hy' : ∀ setup s, y' setup s = x'.restoring (leave s) setup (t s))
    (hleave : ∀ s u, (leave s u).record = u.record)
    (hx : D.Agree q x x' Q) : D.Agree p y y' Q := by
  refine ⟨fun s hs hp => ?_⟩
  obtain ⟨hbr, hq⟩ := hb s hs hp
  have hx := hx.run (t s) hbr.enter hq
  -- what both computations do outside of the brackets
  have hmirrors : ∀ {u : State}, D.Mirrors (x setup (t s)) (x' D.twin (t s)) u →
      D.Mirrors (x.restoring (leave s) setup (t s)) (x'.restoring (leave s) D.twin (t s))
        (leave s u) := by
    intro u h
    rw [Run.restoring, Run.restoring]
    rcases h with heq | ⟨g, v, heq, hstops⟩ | hparted
    · rw [heq]
      exact .refl _ _
    · rw [heq]
      exact .inr (.inl ⟨g, _, rfl, by rwa [hleave, hleave]⟩)
    · exact .inr (.inr (by rwa [hleave]))
  unfold AgreeAt at hx ⊢
  rw [hy, hy']
  cases hxs : x setup (t s) with
  | ok a u =>
    have hleft : x.restoring (leave s) setup (t s) = .ok a (leave s u) := by
      rw [Run.restoring, hxs]
    rw [hxs, hleft] at hmirrors
    rw [hxs] at hx
    rw [hleft]
    obtain ⟨hx', hu, hle, hqa⟩ := hx
    exact ⟨hmirrors hx', (hbr.leave hu hle).1, (hbr.leave hu hle).2, hqa⟩
  | error e u =>
    have hleft : x.restoring (leave s) setup (t s) = .error e (leave s u) := by
      rw [Run.restoring, hxs]
    rw [hxs, hleft] at hmirrors
    rw [hxs] at hx
    rw [hleft]
    rcases hx with hlost | ⟨hx', hu, hle, hfails⟩
    · exact .inl hlost
    · exact .inr ⟨hmirrors hx', (hbr.leave hu hle).1, (hbr.leave hu hle).2, hfails⟩

/-- Code of another program agrees if it does so where that program is the current one. -/
theorem inUnit {u : Nat} (hu : D.unit u) (hx : D.Agree { p with unit := u } x x' Q) :
    D.Agree p (x.inUnit u) (x'.inUnit u) Q :=
  bracket (t := fun s => { s with unit := u }) (fun _ hs hp => ⟨D.inUnit hs hu, hp ▸ rfl⟩)
    (fun _ _ => rfl) (fun _ _ => rfl) (fun _ _ => rfl) hx

/-- The bodies of calls agree if they do so one level deeper. -/
theorem counted [hD : D.Counting] {key : FunctionKey} (hd : p.depth < setup.callLevels)
    (hx : D.Agree { p with depth := p.depth + 1 } x x' Q) :
    D.Agree p (x.counted key) (x'.counted key) Q :=
  bracket (t := fun s => s.called key)
    (fun s hs hp => ⟨hD.counted key hs (by rw [← hp] at hd; exact hd), hp ▸ rfl⟩)
    (fun _ _ => rfl) (fun _ _ => rfl) (fun _ _ => rfl) hx

/-- Code behind a call agrees if it does so below the anchor of that call. -/
theorem anchored {a : Span} (hb : ∀ s, D.inv s → s.position = p →
      State.Brackets D.inv D.le s { s with anchors := a :: s.anchors }
        ({ · with anchors := s.anchors }))
    (hx : D.Agree { p with anchors := a :: p.anchors } x x' Q) :
    D.Agree p (x.anchored a) (x'.anchored a) Q :=
  bracket (t := fun s => { s with anchors := a :: s.anchors })
    (fun s hs hp => ⟨hb s hs hp, hp ▸ rfl⟩) (fun _ _ => rfl) (fun _ _ => rfl) (fun _ _ => rfl) hx

/-- Naming the path that a failure comes from keeps the discipline. -/
theorem within {path : String} (hx : D.Agree p x x' Q) :
    D.Agree p (x.within path) (x'.within path) Q := by
  refine ⟨fun s hs hp => ?_⟩
  have hx := hx.run s hs hp
  unfold AgreeAt at hx ⊢
  rw [Run.within, Run.within]
  cases hxs : x setup s with
  | ok a t =>
    rw [hxs] at hx
    refine ⟨?_, hx.2⟩
    rcases hx.1 with heq | ⟨g, v, heq, hstops⟩ | hparted
    · rw [heq]
      exact .refl _ _
    · rw [heq]
      exact .inr (.inl ⟨_, v, rfl, D.stops_within path hstops⟩)
    · exact .inr (.inr hparted)
  | error e t =>
    rw [hxs] at hx
    refine hx.imp (D.lost_within path) fun h => ?_
    refine ⟨?_, h.2.1, h.2.2.1, D.fails_within path h.2.2.2⟩
    rcases h.1 with heq | ⟨g, v, heq, hstops⟩ | hparted
    · rw [heq]
      exact .refl _ _
    · rw [heq]
      exact .inr (.inl ⟨_, v, rfl, D.stops_within path hstops⟩)
    · exact .inr (.inr hparted)

end

/-! ## Elementary computations -/

/-- An operand that is known is what it is known to be. -/
theorem deref (o : Operand) :
    D.Keeps p (Run.deref o) fun r => ∀ r', o = .known r' → r = r' := by
  refine .of_read fun s _ _ => ⟨o.now s, fun _ => deref_eq _ o s, ?_⟩
  rintro r' rfl
  rfl

/-- Reading all operands at once keeps the discipline. -/
theorem derefAll (os : List Operand) : D.Keeps p (Run.derefAll os) fun _ => True :=
  .of_read fun s _ _ => ⟨_, fun _ => Run.bind_of_ok (mapM_deref os s), trivial⟩

/-- Reading operands one by one keeps the discipline. -/
theorem mapM_deref (os : List Operand) : D.Keeps p (os.mapM Run.deref) fun _ => True :=
  .of_read fun s _ _ => ⟨_, fun _ => FrozenGlobals.mapM_deref os s, trivial⟩

/-- Nothing holds nothing. -/
theorem getKey (r : Reference) (k : Key) :
    D.Keeps p (Run.getKey r k) fun r' => r = .empty → r' = .empty := by
  refine .of_read fun s _ _ => ⟨s.heap.getKey r k, fun _ => rfl, ?_⟩
  rintro rfl
  rfl

/-- Looking for the frame that binds a name keeps the discipline. -/
theorem owner? (stack : Stack) (name : String) :
    D.Keeps p (Run.owner? stack name) fun _ => True :=
  .of_read fun s _ _ => ⟨s.heap.owner? stack name, fun _ => rfl, trivial⟩

/-- Looking a name up keeps the discipline. -/
theorem lookup (name : String) (stack : Stack) :
    D.Keeps p (Run.lookup name stack) fun _ => True :=
  .of_read fun s _ _ => ⟨_, fun _ => lookup_eq _ name stack s, trivial⟩

/-- Where a report would go is known from the position. -/
theorem anchor (span : Span) : D.Keeps p (Run.anchor span) fun a => a = p.anchor span :=
  .of_read fun s _ hp => ⟨_, fun _ => rfl, by rw [← hp]; rfl⟩

/-- Logging keeps the discipline. -/
theorem log {level : Log.Level} {entry : State → String × Log.Fields} :
    D.Keeps p (Run.log level entry) fun _ => True := by
  unfold Run.log
  refine .read ?_
  cases setup.options.sink? with
  | none => exact .pure trivial
  | some logger => exact .modify fun s _ _ => .note _ s.requests

/-- A warning that is not about a skipped call keeps the discipline. -/
theorem warn {message : String}
    (h : Skip.Unrelated message := by exact .of_end fun _ => ⟨rfl, rfl⟩) :
    D.Keeps p (Run.warn message) fun _ => True := by
  unfold Run.warn
  refine log.seq (.read ?_)
  split
  · exact .modify fun s _ _ => .warn h
  · exact .pure trivial

/-- Constructs that cannot be modelled are passed over only if the analysis is not strict. If the
second computation belongs to a strict one, it stops there. -/
theorem passOver (code : UnsupportedCode) (kind : Script.NodeKind) (span : Span) :
    D.Keeps p (Run.unsupported code kind span) fun _ => setup.options.strict = false := by
  have hwarns : ∀ setup : Setup, setup.options.strict = false →
      Run.unsupported code kind span setup =
        Run.warn (Unsupported.message ⟨code, kind, span⟩) setup := by
    intro setup h
    funext s
    unfold Run.unsupported
    rw [read_bind, if_neg (by simp [h])]
  have hthrows : ∀ (setup : Setup) (s : State), setup.options.strict = true →
      Run.unsupported code kind span setup s = .error (.unsupported ⟨code, kind, span⟩) s := by
    intro setup s h
    unfold Run.unsupported
    rw [read_bind, if_pos h]
    rfl
  refine ⟨fun s hs hp => ?_⟩
  have htwin : D.twin.options.strict = D.strict := rfl
  cases hstrict : setup.options.strict with
  | true =>
    unfold AgreeAt
    rw [hthrows _ _ hstrict, hthrows _ _ (htwin.trans (D.stricter hstrict))]
    exact .inr ⟨.refl _ _, hs, D.refl s, D.expected trivial⟩
  | false =>
    have hwarn : D.AgreeAt s (Run.warn (Unsupported.message ⟨code, kind, span⟩)) _ _ :=
      (warn (Unsupported.unrelated _)).run s hs hp
    obtain ⟨entries, heq⟩ := warn_eq setup (Unsupported.message ⟨code, kind, span⟩) s
    unfold AgreeAt at hwarn ⊢
    rw [hwarns _ hstrict, heq]
    rw [heq] at hwarn
    cases htwice : D.strict with
    | false =>
      rw [hwarns _ (htwin.trans htwice)]
      exact ⟨hwarn.1, hwarn.2.1, hwarn.2.2.1, rfl⟩
    | true =>
      rw [hthrows _ _ (htwin.trans htwice)]
      exact ⟨.inr (.inl ⟨_, s, rfl, D.overruled (by simp [htwice, hstrict]) heq⟩), hwarn.2.1,
        hwarn.2.2.1, rfl⟩

/-- A construct that is not supported ends both computations, or is noted by both. -/
theorem unsupported (code : UnsupportedCode) (kind : Script.NodeKind) (span : Span) :
    D.Keeps p (Run.unsupported code kind span) fun _ => True :=
  (passOver code kind span).imp fun _ _ => trivial

/-- Both computations are found to be canceled, or neither of them is. -/
theorem checkCanceled [h : D.Abreast] : D.Keeps p Run.checkCanceled fun _ => True := by
  unfold Run.checkCanceled
  refine .read ?_ (by rw [show D.twin.canceled = setup.canceled from h.canceled])
  split
  · exact .throw_expected trivial
  · exact .pure trivial

end Agree

/-- A report is made where it may be, about something that it may be about. -/
theorem AgreeAt.report {s : State} (hs : D.inv s) {site : Site} {path : Option Path}
    (message : String) (hplace : D.place s.unit site.span) (hpath : s.Names D.scope path) :
    D.AgreeAt s (Run.report site message path) (Run.report site message path) fun _ => True := by
  obtain ⟨hinv, hle⟩ := D.change hs (.report message hplace hpath)
  let span := s.anchors.head?.getD site.span
  let entry : State → String × Log.Fields := fun _ => ("Violation: " ++ message,
    [("start", .ofInt span.start), ("end", .ofInt span.stop), ("node", .text site.kind.name)])
  have hlog : D.Keeps s.position (Run.log .info entry) fun _ => True := Agree.log
  exact .of_later hle (fun _ => rfl) (fun _ => rfl) (hlog.run _ hinv rfl)

namespace Agree

/-- A report about nothing in particular. -/
theorem report {site : Site} (message : String) (hplace : D.place p.unit site.span) :
    D.Keeps p (Run.report site message none) fun _ => True :=
  ⟨fun s hs hp => .report hs message
    ((show s.unit = p.unit from congrArg Position.unit hp) ▸ hplace) .nothing⟩

/-- A check reports a container of the globals. -/
theorem checkGlobal (r : Reference) {site : Site} (violation : Violation)
    (hplace : D.place p.unit site.span) :
    D.Keeps p (Run.checkGlobal r site violation) fun _ => True := by
  refine .getAt fun s hs hp => ?_
  cases hfound : s.provenance.findAny? r with
  | none => exact .pure hs trivial
  | some path =>
    obtain ⟨v, -, hv⟩ := List.exists_of_findSome?_eq_some hfound
    have hunit : s.unit = p.unit := congrArg Position.unit hp
    refine (AgreeAt.report hs _ (hunit ▸ hplace) (.container hv)).bind fun _ t _ ht _ => ?_
    exact .pure ht trivial

/-- A check reports a name that the globals bind. -/
theorem checkGlobalName (name : String) {stack : Stack} (hs : D.scope stack) {site : Site}
    (violation : Violation) (hplace : D.place p.unit site.span) :
    D.Keeps p (Run.checkGlobalName name stack site violation) fun _ => True := by
  unfold Run.checkGlobalName Run.owner?
  simp only [bind_assoc, pure_bind]
  refine .getAt fun s hinv hp => ?_
  cases hfound : s.heap.owner? stack name with
  | none => exact .pure hinv trivial
  | some frame =>
    dsimp only
    split
    · next hglobal =>
      have hunit : s.unit = p.unit := congrArg Position.unit hp
      exact .report hinv _ (hunit ▸ hplace) (.binding hs (by simpa using hglobal) hfound)
    · exact .pure hinv trivial

/-- A new object is one change. -/
theorem newObject (o : ObjectCell) : D.Keeps p (Run.newObject o) fun _ => True :=
  .of_change fun _ _ _ => ⟨_, _, fun _ => rfl, .object o, trivial⟩

/-- A new array is one change. -/
theorem newArray (r : Reference) : D.Keeps p (Run.newArray r) fun _ => True :=
  .of_change fun _ _ _ => ⟨_, _, fun _ => rfl, .array r, trivial⟩

/-- A new frame is one change. -/
theorem newFrame (f : Frame) : D.Keeps p (Run.newFrame f) fun _ => True :=
  .of_change fun _ _ _ => ⟨_, _, fun _ => rfl, .frame f, trivial⟩

/-- A new function is one change, if its code may run and its frames may be seen. -/
theorem newFunction {fn : Script.Function} {stack : Stack} (hs : D.scope stack)
    (hc : D.code p.unit fn) : D.Keeps p (Run.newFunction fn stack) fun _ => True :=
  .of_change fun s _ hp =>
    ⟨_, _, fun _ => rfl, .closure _ hs (by rw [← hp] at hc; exact hc), trivial⟩

/-- A binding is one change. -/
theorem define (frame : Nat) (name : String) (o : Operand) :
    D.Keeps p (Run.define frame name o) fun _ => True :=
  .modify fun _ _ _ => .define frame name o

/-- A write is one change. -/
theorem setKey (r : Reference) (k : Key) (v : Reference) :
    D.Keeps p (Run.setKey r k v) fun _ => True :=
  .modify fun _ _ _ => .setKey r k v

/-- The conversion of globals is one change, or the globals are not valid. -/
theorem newGlobals (root : Host.Datum) : D.Keeps p (Run.newGlobals root) fun _ => True := by
  unfold Run.newGlobals
  refine .read ?_
  cases h : setup.graph.globals root with
  | error fault => exact .throw_expected trivial
  | ok entries =>
    exact .of_change fun s _ _ =>
      ⟨(Host.Conversion.frame setup.graph s.conversion entries).1, _, fun _ => rfl, .convert h,
        trivial⟩

/-! ## Frames -/

/-- The frames that an evaluation sees include one. -/
theorem top {stack : Stack} (hs : D.scope stack) : D.Keeps p (Run.top stack) fun _ => True := by
  cases stack with
  | cons frame rest => exact .pure trivial
  | nil => exact .throw fun _ _ _ => (D.framed hs).resolve_left (by simp)

/-- A name is bound again where it was bound, or in the innermost frame. -/
theorem rebind (name : String) (r : Reference) {stack : Stack} (hs : D.scope stack) :
    D.Keeps p (Run.rebind name r stack) fun _ => True := by
  unfold Run.rebind
  refine (owner? stack name).bind fun frame _ => ?_
  cases frame with
  | some frame => exact define ..
  | none =>
    cases h : Stack.programFrame? stack with
    | some frame => exact define ..
    | none =>
      refine .throw fun _ _ _ => (D.framed hs).resolve_left fun hlen => ?_
      have hne : stack ≠ [] := List.ne_nil_of_length_pos (by omega)
      have := Stack.programFrame?_isSome stack hne
      rw [h] at this
      cases this

/-- The template of a scope is found where the scope may be entered, and its functions may run. -/
theorem template {start : Int} (he : D.enters p.unit start) :
    D.Keeps p (Run.template start) fun t => ∀ fn ∈ t.functions, D.code p.unit fn := by
  unfold Run.template
  refine .read (.get fun s hs hp => ?_)
  have hunit : s.unit = p.unit := by rw [← hp]; rfl
  cases h : setup.programs[s.unit]? with
  | none => exact .throw fun _ _ _ => D.missing hs h
  | some prepared =>
    dsimp only
    cases ht : prepared.hoisting.find? start with
    | none =>
      refine .throw fun _ _ _ => (D.opens h (hunit ▸ he)).resolve_left ?_
      simp [ht]
    | some t =>
      refine .pure fun fn hfn => ?_
      rw [← hunit] at he ⊢
      exact D.hoisted he h (List.mem_of_find?_eq_some ht) hfn

/-- A frame for a template goes on top of frames that may be seen, or of the globals. -/
theorem instantiate {t : Script.ScopeTemplate} {stack : Stack}
    (hs : ∀ frame, D.scope (frame :: stack)) (ht : ∀ fn ∈ t.functions, D.code p.unit fn) :
    D.Keeps p (Run.instantiate t stack) D.scope := by
  unfold Run.instantiate
  refine (newFrame _).bind fun frame _ => ?_
  refine (Agree.forM fun fn hfn => ?_).seq (.pure (hs frame))
  cases fn.name with
  | none => exact .pure trivial
  | some id => exact (newFunction (hs frame) (ht fn hfn)).bind fun _ _ => define ..

/-- A new frame may be seen if the frames below it may. -/
theorem pushFrame {stack : Stack} (hs : D.scope stack) :
    D.Keeps p (Run.pushFrame stack) D.scope :=
  (newFrame _).bind fun frame _ => .pure (D.push frame hs)

end Agree

end Discipline

end FrozenGlobals
