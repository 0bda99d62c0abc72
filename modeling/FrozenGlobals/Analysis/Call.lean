import FrozenGlobals.Analysis.Member
import FrozenGlobals.Analysis.Native
import FrozenGlobals.Analysis.Scope

/-!
# Calls

A call evaluates the callee and the arguments and then follows every possibility of the callee. How
deep calls nest is limited, and so is how often a function is entered again while it runs; calls
beyond the limits yield nothing.

A call of a member of the globals is also followed into the external code registered for it. What is
found there is reported at the call in the analyzed program.
-/

namespace FrozenGlobals

open Script (Expr Binding Span)

/-- The levels of nested calls after which an analysis without a ceiling gives up. -/
def hardCallDepth : Nat := 10000

/-- How often a function may be entered again, if that is limited. The product is taken in words of
64 bits. -/
def Options.budget? (o : Options) : Option Nat :=
  let budget := Int.bmod (o.maxCallDepth * 1000) (Nat.pow 2 64)
  if 0 < o.maxCallDepth && 0 < budget then some budget.toNat else none

/-- How many positions a spread argument fills. No built-in reads past the fourth argument. -/
def spreadSlots : Nat := 4

/-- How many calls nest before evaluation moves to a stack of its own. -/
def callsPerStack : Nat := 64

/-- The name of a function in messages. -/
def Closure.displayName (c : Closure) : String :=
  if c.name.isEmpty then "<anonymous>" else c.name

/-- An expression without the marks of optional chaining around it. -/
def unwrapOptional : Expr → Expr
  | .optional inner => unwrapOptional inner
  | .optionalChain inner => unwrapOptional inner
  | e => e

namespace Evaluator

open Run

/-! ## Arguments and parameters -/

/-- Evaluates arguments. A spread and everything behind it fold into one reference, which fills the
positions that are left. -/
def arguments (E : Evaluator) (callee : Operand) (stack : Stack) :
    List Expr → Option Reference → Run (List Operand)
  | [], none => return []
  | [], some tail => return List.replicate spreadSlots (.known tail)
  | .spread inner :: rest, tail => do
      let source ← E.resolve inner stack
      unless (← deref callee).onlyNative do unsupported .spreadArgument .spread inner.span
      let items ← elements (← deref source)
      arguments E callee stack rest (some ((tail.getD .empty).union items))
  | e :: rest, none => do
      let arg ← E.resolve e stack
      return arg :: (← arguments E callee stack rest none)
  | e :: rest, some tail => do
      let arg ← E.value e stack
      arguments E callee stack rest (some (tail.union arg))

/-- Binds parameters to arguments, and yields the arguments left over. A default may take the place
of any argument. -/
def bindItems (E : Evaluator) (frame : Nat) (stack : Stack) :
    List Binding → List Operand → Run (List Operand)
  | [], args => return args
  | b :: rest, args => do
      let passed : Operand := args.head?.getD (.known .undefined)
      let value ← match b.init with
        | none => pure passed
        | some init => do
            let fallback ← E.resolve init stack
            pure (Operand.known ((← deref passed).union (← deref fallback)))
      match b.target with
      | .leaf (.identifier id) => define frame id.name value
      | target =>
          unsupported .paramBinding target.kind target.span
          E.bind .lexical target value stack
      bindItems E frame stack rest (args.drop 1)

/-- Pushes the frame of a function's parameters. Functions other than arrows also bind their own
name and `arguments`. -/
def bindParams (E : Evaluator) (self : Value) (fn : Closure) (code : Code) (args : List Operand) :
    Run Stack := do
  let frame ← newFrame .empty
  let stack := frame :: fn.scope
  unless code.literal.isArrow do
    unless fn.name.isEmpty do define frame fn.name (.known (.single self))
    define frame "arguments" (.known (← arrayOf (← derefAll args)))
  let left ← E.bindItems frame stack code.literal.params.items args
  match code.literal.params.rest with
  | none => pure ()
  | some (.leaf (.identifier id)) =>
      define frame id.name (.known (← arrayOf (← derefAll left)))
  | some rest => unsupported .paramBinding rest.kind rest.span
  return stack

/-! ## Functions -/

/-- The fields of entries about a call. -/
def callFields (fn : Closure) (site : Site) (s : State) : Log.Fields :=
  [("depth", .ofNat s.depth), ("callee", .text fn.name), ("at", .text site.span.render)]

/-- Whether a call is followed. -/
def admits (fn : Closure) (site : Site) : Run Bool := do
  let options := (← read).options
  let s ← get
  if 0 ≤ options.maxCallDepth then
    if options.maxCallDepth ≤ s.depth then
      log .debug fun s => ("Call depth ceiling reached, skipping call", callFields fn site s)
      unless s.ceilingWarned do
        modify ({ · with ceilingWarned := true })
        warn ("call at " ++ site.span.render ++ " not followed: call depth ceiling "
          ++ toString options.maxCallDepth ++ " reached")
      return false
  else if hardCallDepth ≤ s.depth then
    throw (.callDepthExceeded s.depth site.span)
  match options.budget? with
  | none => return true
  | some budget =>
      if 0 < s.active.count fn.key && budget ≤ s.reentries.count fn.key then
        unless s.budgetWarned.contains fn.key do
          modify fun s => { s with budgetWarned := fn.key :: s.budgetWarned }
          warn ("invocation budget of " ++ toString budget ++ " recursive calls to "
            ++ fn.displayName ++ " exhausted; further recursive calls are not followed")
        return false
      else return true

/-- Runs the body of a function. -/
def runBody (E : Evaluator) (code : Code) (stack : Stack) : Run Reference :=
  match code.literal.body with
  | .block b => E.walkBlock false b stack
  | .expression value => E.value value stack

/-- Calls a function of a script. -/
def callFunction (E : Evaluator) (id : Nat) (c : CallSite) : Run Reference := do
  checkCanceled
  match (← get).heap.closure? id with
  | none => return .empty
  | some fn =>
      unless ← admits fn c.site do return .empty
      let args ← c.args.mapM deref
      let limit := (← read).options.logLimit
      log .debug fun s =>
        let shown := " ".intercalate (args.map (s.heap.summary limit))
        ("Invoking function with args [" ++ shown ++ "]", callFields fn c.site s)
      match fn.code with
      | none => return .empty
      | some code =>
          let run := counted fn.key (inUnit code.unit do
            E.runBody code (← E.bindParams (.function id) fn code c.args))
          if (← get).depth % callsPerStack + 1 == callsPerStack then run.onFreshStack else run

/-- Calls a value. Primitives and containers cannot be called and yield nothing. -/
def invokeStep (E : Evaluator) (v : Value) (c : CallSite) : Run Reference :=
  match v with
  | .intrinsic i => callIntrinsic i c
  | .builtin b => E.callBuiltin b c
  | .function id => E.callFunction id c
  | _ => return .empty

/-! ## External code -/

/-- Runs an implementation, and calls what it evaluates to. -/
def runImplementation (E : Evaluator) (c : CallSite) (index : Nat) (impl : Implementation) :
    Run Reference := do
  match impl.program with
  | none => throw (.missingProgram index)
  | some unit =>
      let frame ← newGlobals impl.globals
      let handlers ← E.runProgram unit [frame]
      E.invokeAll handlers (c.callback c.args)

/-- Follows a call into the implementations registered for a path. -/
def followCallbacks (E : Evaluator) (resolver : Resolver) (path : Path) (c : CallSite) :
    Run Reference := within path.render do
  modify fun s => { s with requests := s.requests.push path }
  match resolver path with
  | .error text => throw (.resolver text)
  | .ok [] => return .empty
  | .ok impls =>
      log .info fun _ => ("Resolving callbacks",
        [("path", .text path.render), ("implementations", .ofNat impls.length)])
      anchored (← anchor c.site.span) <|
        impls.zipIdx.foldlM (fun result (impl, i) =>
          return result.union (← E.runImplementation c i impl)) .empty

/-! ## Call expressions -/

/-- Evaluates a callee. Yields it, what it was read from, and under which key. -/
def calleeOf (E : Evaluator) (callee : Expr) (stack : Stack) :
    Run (Operand × Option (Operand × Key)) := do
  match unwrapOptional callee with
  | .dot span object name =>
      let member := Expr.dot span object name
      let (receiver, key) ← E.memberTarget member stack
      return (← E.readMember receiver key (.ofExpr member), some (receiver, key))
  | .bracket span object key =>
      let member := Expr.bracket span object key
      let (receiver, key) ← E.memberTarget member stack
      return (← E.readMember receiver key (.ofExpr member), some (receiver, key))
  | callee => return (← E.resolve callee stack, none)

/-- Evaluates a call. -/
def call (E : Evaluator) (span : Span) (callee : Expr) (args : List Expr) (stack : Stack) :
    Run Operand := do
  let (callee, source) ← E.calleeOf callee stack
  let args ← E.arguments callee stack args none
  let c : CallSite := ⟨⟨.call, span⟩, source.map (·.1), args⟩
  let result ← E.invokeAll (← deref callee) c
  match source, (← read).resolver with
  | some (receiver, key), some resolver =>
      if (← deref callee).onlyNative then return .known result
      match (← get).provenance.findAny? (← deref receiver) with
      | none => return .known result
      | some path =>
          let more ← E.followCallbacks resolver (path.child (.ofKey key)) c
          return .known (result.union more)
  | _, _ => return .known result

/-- What constructing with one possibility of the callee gives, if it is known at all. -/
def constructWith (E : Evaluator) (c : CallSite) (v : Value) : Run (Option Reference) := do
  match v with
  | .intrinsic _ => return some (← E.invoke v c)
  | .function _ =>
      let returned ← E.invoke v c
      return some (returned.insert (← newObject .empty))
  | _ => return none

/-- Evaluates a construction. -/
def construct (E : Evaluator) (span : Span) (callee : Expr) (args : List Expr) (stack : Stack) :
    Run Operand := do
  let callee ← E.resolve (unwrapOptional callee) stack
  let args ← E.arguments callee stack args none
  let c : CallSite := ⟨⟨.construct, span⟩, none, args⟩
  let results ← (← deref callee).values.mapM (E.constructWith c)
  unless results.any Option.isSome do
    warn ("new expression at " ++ span.render ++ " is not tracked")
  return .known (.unionAll (results.filterMap id))

end Evaluator

end FrozenGlobals
