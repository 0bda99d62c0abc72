import FrozenGlobals.Analysis
import FrozenGlobals.Proofs.Analysis.Traced

/-!
# Scope stacks

A walk over statements is given the frames that are visible, and hands them on. Here it keeps them
in a store instead (`Walk`): what enters a scope puts its frame on top in the store, and puts back
what it found there when it ends or fails (`Walk.entering`). Walking with a store does what walking
without one does, and leaves the stack in the store as it was (`Walk.walk_eq`).
-/

namespace FrozenGlobals

open Run
open Script (Stmt Block Case Catch)

/-- Computations with a scope stack in a store. -/
abbrev Walk (α : Type) := ReaderT Setup (EStateM Failure (State × Stack)) α

namespace Walk

/-- An outcome with a stack beside its state. -/
def beside {α : Type} (stack : Stack) :
    EStateM.Result Failure State α → EStateM.Result Failure (State × Stack) α
  | .ok a s => .ok a (s, stack)
  | .error f s => .error f (s, stack)

/-- Runs what sees the stack in the store. -/
def seeing {α : Type} (x : Stack → Run α) : Walk α := fun setup (s, stack) =>
  beside stack (x stack setup s)

/-- Walks with another stack in the store, and puts the one before back, whether the walk ends or
fails. -/
def entering {α : Type} (push : Stack → Run Stack) (x : Walk α) : Walk α := fun setup (s, saved) =>
  match push saved setup s with
  | .error f s => .error f (s, saved)
  | .ok inner s =>
      match x setup (s, inner) with
      | .ok a (s, _) => .ok a (s, saved)
      | .error f (s, _) => .error f (s, saved)

/-! ## Statements -/

section
variable (E : Evaluator) (walk : Bool → Stmt → Walk Reference)

/-- Walks statements one after another. -/
def walkAll (fold : Bool) (body : List Stmt) : Walk Reference :=
  body.foldlM (fun result s => return result.union (← walk fold s)) .empty

/-- Walks a block in a scope of its own. -/
def walkBlock (fold : Bool) (b : Block) : Walk Reference := do
  seeing fun _ => checkCanceled
  let t ← seeing fun _ => template b.start
  seeing fun stack => log .debug fun _ => ("Entering block",
    [("block", .ofInt b.start), ("frames", .ofNat stack.length), ("vars", .ofNat t.vars.length),
     ("funcs", .ofNat t.functions.length)])
  entering (instantiate t) (walkAll walk fold b.body)

/-- Walks a clause of a `switch`. -/
def walkClause (fold : Bool) (result : Reference) : Case → Walk Reference
  | .mk _ test body => do
      seeing (E.visit? test)
      return result.union (← walkAll walk fold body)

/-- Walks the clauses of a `switch`. -/
def walkCases (fold : Bool) (cases : List Case) : Walk Reference :=
  cases.foldlM (walkClause E walk fold) .empty

/-- Walks a `catch` clause in a scope for its parameter. -/
def walkCatch (fold : Bool) (handler : Option Catch) : Walk Reference :=
  match handler with
  | none => return .empty
  | some (.mk _ parameter body) => entering pushFrame do
      match parameter with
      | none => pure ()
      | some p => seeing (E.bind .lexical p .thrown)
      walkBlock walk fold body

/-- Walks a statement. Statements in which no statements stand see the stack and nothing else. -/
def walkStep (fold : Bool) (s : Stmt) : Walk Reference := do
  match s with
  | .block b => walkBlock walk fold b
  | .ifElse _ test yes no =>
      seeing (E.visit test)
      let yes ← walk fold yes
      match no with
      | none => return yes
      | some no => return yes.union (← walk fold no)
  | .forLoop _ init test update body => entering pushFrame do
      seeing (E.forInit init)
      seeing (E.visit? test)
      let result ← walk fold body
      seeing (E.visit? update)
      return result
  | .forEach span kind target source body => entering pushFrame do
      let source ← seeing (E.value source)
      let value ← seeing fun _ => match kind with
        | .forOf => getKey source .any
        | .forIn => pure .anyPrimitive
      seeing (E.forTarget target (.known value) ⟨s.kind, span⟩)
      walk fold body
  | .whileLoop _ test body =>
      seeing (E.visit test)
      walk fold body
  | .doWhile _ body test =>
      let result ← walk fold body
      seeing (E.visit test)
      return result
  | .switchOn span subject cases =>
      seeing (E.visit subject)
      let t ← seeing fun _ => template span.start
      entering (instantiate t) (walkCases E walk fold cases)
  | .tryCatch _ body handler finalizer =>
      let result ← walkBlock walk fold body
      let result := result.union (← walkCatch E walk fold handler)
      match finalizer with
      | none => return result
      | some b => return result.union (← walkBlock walk fold b)
  | .labelled _ _ body => walk fold body
  | .withObject span object body =>
      seeing (E.visit object)
      seeing fun _ => warn ("with statement at " ++ span.render
        ++ ": property lookups through its object are not tracked")
      walk fold body
  | s => seeing (E.walkStep fold s)

end

/-- Walks with a store, as deep as the levels allow. -/
def walk : Nat → Bool → Stmt → Walk Reference
  | 0, _, _ => seeing fun _ => throw .outOfFuel
  | fuel + 1, fold, s => walkStep (.ofFuel fuel) (walk fuel) fold s

/-! ## Composition -/

section
variable {α β : Type}

/-- A result at hand does not look at the stack. -/
theorem pure_seeing (a : α) : (pure a : Walk α) = seeing fun _ => pure a := rfl

/-- Walks one after another see the same stack. -/
theorem seeing_bind (x : Stack → Run α) (f : α → Stack → Run β) :
    (seeing x >>= fun a => seeing (f a)) = seeing fun stack => x stack >>= fun a => f a stack := by
  funext setup ⟨s, stack⟩
  show EStateM.bind (seeing x setup) (fun a => seeing (f a) setup) (s, stack) =
    beside stack (EStateM.bind (x stack setup) (fun a => f a stack setup) s)
  unfold EStateM.bind seeing
  dsimp only
  cases x stack setup s <;> rfl

/-- What is seen inside of a scope is seen with its frame on top. -/
theorem entering_seeing (push : Stack → Run Stack) (x : Stack → Run α) :
    entering push (seeing x) = seeing fun stack => push stack >>= x := by
  funext setup ⟨s, stack⟩
  show _ = beside stack (EStateM.bind (push stack setup) (fun inner => x inner setup) s)
  unfold EStateM.bind entering seeing
  dsimp only
  cases push stack setup s with
  | error f t => rfl
  | ok inner t =>
    dsimp only
    cases x inner setup t <;> rfl

/-- A loop sees the same stack in all its rounds. -/
theorem foldlM_seeing {g : β → α → Walk β} {f : β → α → Stack → Run β}
    (h : ∀ b x, g b x = seeing (f b x)) (xs : List α) (b : β) :
    xs.foldlM g b = seeing fun stack => xs.foldlM (fun b x => f b x stack) b := by
  induction xs generalizing b with
  | nil => rfl
  | cons x xs ih =>
    simp only [List.foldlM_cons, h, ih]
    exact seeing_bind (f b x) _

end

/-! ## Walks with and without a store -/

section
variable {E : Evaluator} {walk : Bool → Stmt → Walk Reference}
  (hwalk : ∀ fold s, walk fold s = seeing (E.walk fold s))
include hwalk

/-- Statements in sequence leave the stack as it was. -/
theorem walkAll_eq (fold : Bool) (body : List Stmt) :
    walkAll walk fold body = seeing (E.walkAll fold body) := by
  refine foldlM_seeing (fun result s => ?_) body Reference.empty
  simp only [hwalk, pure_seeing, seeing_bind]

/-- A block leaves the stack as it was. -/
theorem walkBlock_eq (fold : Bool) (b : Block) :
    walkBlock walk fold b = seeing (E.walkBlock fold b) := by
  simp only [walkBlock, walkAll_eq hwalk, entering_seeing, seeing_bind]
  rfl

/-- The clauses of a `switch` leave the stack as it was. -/
theorem walkCases_eq (fold : Bool) (cases : List Case) :
    walkCases E walk fold cases = seeing (E.walkCases fold cases) := by
  refine foldlM_seeing ?_ cases Reference.empty
  rintro result ⟨start, test, body⟩
  simp only [walkClause, walkAll_eq hwalk, pure_seeing, seeing_bind]

/-- A `catch` clause leaves the stack as it was. -/
theorem walkCatch_eq (fold : Bool) (handler : Option Catch) :
    walkCatch E walk fold handler = seeing (E.walkCatch fold handler) := by
  cases handler with
  | none => rfl
  | some handler =>
    obtain ⟨start, parameter, body⟩ := handler
    cases parameter <;>
      simp only [walkCatch, walkBlock_eq hwalk, entering_seeing, seeing_bind] <;> rfl

/-- A statement leaves the stack in the store as it was. -/
theorem walkStep_eq (fold : Bool) (s : Stmt) :
    walkStep E walk fold s = seeing (E.walkStep fold s) := by
  cases s with
  | block b => exact walkBlock_eq hwalk fold b
  | ifElse span test yes no =>
    cases no <;> simp only [walkStep, hwalk, pure_seeing, seeing_bind] <;> rfl
  | forLoop span init test update body =>
    simp only [walkStep, hwalk, pure_seeing, entering_seeing, seeing_bind]
    rfl
  | forEach span kind target source body =>
    cases kind <;> simp only [walkStep, hwalk, entering_seeing, seeing_bind] <;> rfl
  | switchOn span subject cases =>
    simp only [walkStep, walkCases_eq hwalk, entering_seeing, seeing_bind]
    rfl
  | tryCatch span body handler finalizer =>
    cases finalizer <;> simp only [walkStep, walkBlock_eq hwalk, walkCatch_eq hwalk, pure_seeing,
      seeing_bind] <;> rfl
  | whileLoop span test body | doWhile span body test | withObject span object body =>
    simp only [walkStep, hwalk, pure_seeing, seeing_bind]
    rfl
  | labelled span label body => exact hwalk fold body
  | _ => rfl

end

/-- Walking with a store does what walking without one does, and leaves the stack as it found it,
whether it ends or fails. -/
theorem walk_eq (fuel : Nat) (fold : Bool) (s : Stmt) :
    walk fuel fold s = seeing ((Evaluator.ofFuel fuel).walk fold s) := by
  induction fuel generalizing fold s with
  | zero => rfl
  | succ fuel ih => exact walkStep_eq ih fold s

end Walk

end FrozenGlobals
