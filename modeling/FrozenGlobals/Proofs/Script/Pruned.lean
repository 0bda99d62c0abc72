import FrozenGlobals.Proofs.Script.Parts

/-!
# Pruned syntax trees

A pruning leaves out parts of a syntax tree: the elements of some class bodies (`Pruning.empties`),
and marks of optional chaining where they do not matter (`Pruning.keeps`). Everything else stays
where it stands, and so do the ranges of nodes, the kinds of statements and patterns, and the names
that patterns declare. A pruning that leaves out nothing is `Pruning.Full`.
-/

namespace FrozenGlobals.Script

/-- What is left out of a syntax tree. -/
structure Pruning where
  /-- Where an expression stands, as far as that matters. -/
  Place : Type
  /-- It is evaluated. -/
  value : Place
  /-- It is a key. -/
  key : Place
  /-- It is deleted, updated or written to. -/
  target : Place
  /-- A mark of optional chaining stays around an expression. -/
  keeps : Place → Expr → Bool
  keeps_target : ∀ e, keeps target e = true
  /-- A class loses its elements. -/
  empties : Class → Bool

section
variable (P : Pruning)

/-! ## Trees -/

mutual

/-- The expression, pruned where it stands. -/
def Expr.pruned : Expr → P.Place → Expr
  | .optional inner, place =>
      if P.keeps place inner then .optional (inner.pruned place) else inner.pruned place
  | .optionalChain inner, place =>
      if P.keeps place inner then .optionalChain (inner.pruned place) else inner.pruned place
  | .template span tag parts, _ => .template span (prunedExpr? tag) (prunedExprs parts)
  | .array span items, _ => .array span (prunedHoles items)
  | .object span properties, _ => .object span (prunedProperties properties)
  | .function fn, _ => .function fn.pruned
  | .classLiteral cls, _ => .classLiteral cls.pruned
  | .call span callee arguments, _ =>
      .call span (callee.pruned P.value) (prunedExprs arguments)
  | .construct span callee arguments, _ =>
      .construct span (callee.pruned P.value) (prunedExprs arguments)
  | .dot span object name, _ => .dot span (object.pruned P.value) name
  | .bracket span object key, _ => .bracket span (object.pruned P.value) (key.pruned P.key)
  | .privateDot span object name, _ => .privateDot span (object.pruned P.value) name
  | .assign span op target value, _ => .assign span op target.pruned (value.pruned P.value)
  | .unary span op operand, _ =>
      .unary span op (operand.pruned (if op = .delete then P.target else P.value))
  | .update span operand, _ => .update span (operand.pruned P.target)
  | .binary span op left right, _ =>
      .binary span op (left.pruned P.value) (right.pruned P.value)
  | .conditional span test yes no, _ =>
      .conditional span (test.pruned P.value) (yes.pruned P.value) (no.pruned P.value)
  | .sequence span items, _ => .sequence span (prunedExprs items)
  | .spread inner, _ => .spread (inner.pruned P.value)
  | .yield span argument, _ => .yield span (prunedExpr? argument)
  | .await span argument, _ => .await span (argument.pruned P.value)
  | e, _ => e

def prunedExpr? : Option Expr → Option Expr
  | none => none
  | some e => some (e.pruned P.value)

def prunedExprs : List Expr → List Expr
  | [] => []
  | e :: es => e.pruned P.value :: prunedExprs es

def prunedHoles : List (Option Expr) → List (Option Expr)
  | [] => []
  | e :: es => prunedExpr? e :: prunedHoles es

def Pattern.pruned : Pattern → Pattern
  | .leaf target => .leaf (target.pruned P.target)
  | .array span items rest => .array span (prunedItems items) (prunedPattern? rest)
  | .object span properties rest =>
      .object span (prunedPatternProperties properties) (prunedPattern? rest)

def prunedPattern? : Option Pattern → Option Pattern
  | none => none
  | some p => some p.pruned

def PatternItem.pruned : PatternItem → PatternItem
  | .mk target default => .mk target.pruned (prunedExpr? default)

def prunedItem? : Option PatternItem → Option PatternItem
  | none => none
  | some i => some i.pruned

def prunedItems : List (Option PatternItem) → List (Option PatternItem)
  | [] => []
  | i :: is => prunedItem? i :: prunedItems is

def PatternProperty.pruned : PatternProperty → PatternProperty
  | .short name default => .short name (prunedExpr? default)
  | .keyed key computed value => .keyed (key.pruned P.key) computed value.pruned

def prunedPatternProperties : List PatternProperty → List PatternProperty
  | [] => []
  | p :: ps => p.pruned :: prunedPatternProperties ps

def Property.pruned : Property → Property
  | .short name default => .short name (prunedExpr? default)
  | .keyed key computed kind value =>
      .keyed (key.pruned P.key) computed kind (value.pruned P.value)
  | .spread inner => .spread (inner.pruned P.value)

def prunedProperties : List Property → List Property
  | [] => []
  | p :: ps => p.pruned :: prunedProperties ps

def Function.pruned : Function → Function
  | .mk span isArrow name params body => .mk span isArrow name params.pruned body.pruned

def Params.pruned : Params → Params
  | .mk span items rest => .mk span (prunedBindings items) (prunedPattern? rest)

def Body.pruned : Body → Body
  | .block b => .block b.pruned
  | .expression value => .expression (value.pruned P.value)

def Binding.pruned : Binding → Binding
  | .mk target init => .mk target.pruned (prunedExpr? init)

def prunedBindings : List Binding → List Binding
  | [] => []
  | b :: bs => b.pruned :: prunedBindings bs

def Class.pruned : Class → Class
  | .mk span name superclass elements =>
      .mk span name (prunedExpr? superclass)
        (if P.empties (.mk span name superclass elements) then [] else prunedElements elements)

def ClassElement.pruned : ClassElement → ClassElement
  | .field start key init => .field start (key.pruned P.key) (prunedExpr? init)
  | .method start key body => .method start (key.pruned P.key) body.pruned
  | .staticBlock start block => .staticBlock start block.pruned

def prunedElements : List ClassElement → List ClassElement
  | [] => []
  | e :: es => e.pruned :: prunedElements es

def Stmt.pruned : Stmt → Stmt
  | .block b => .block b.pruned
  | .expression value => .expression (value.pruned P.value)
  | .declareVar span bindings => .declareVar span (prunedBindings bindings)
  | .declareLexical span bindings => .declareLexical span (prunedBindings bindings)
  | .declareFunction fn => .declareFunction fn.pruned
  | .declareClass cls => .declareClass cls.pruned
  | .returnWith span argument => .returnWith span (prunedExpr? argument)
  | .throwWith span argument => .throwWith span (argument.pruned P.value)
  | .ifElse span test yes no =>
      .ifElse span (test.pruned P.value) yes.pruned (prunedStmt? no)
  | .forLoop span init test update body =>
      .forLoop span (prunedForInit? init) (prunedExpr? test) (prunedExpr? update)
        body.pruned
  | .forEach span kind into source body =>
      .forEach span kind into.pruned (source.pruned P.value) body.pruned
  | .whileLoop span test body => .whileLoop span (test.pruned P.value) body.pruned
  | .doWhile span body test => .doWhile span body.pruned (test.pruned P.value)
  | .switchOn span subject cases =>
      .switchOn span (subject.pruned P.value) (prunedCases cases)
  | .tryCatch span body handler finalizer =>
      .tryCatch span body.pruned (prunedCatch? handler) (prunedBlock? finalizer)
  | .labelled span label body => .labelled span label body.pruned
  | .withObject span object body => .withObject span (object.pruned P.value) body.pruned
  | s => s

def prunedStmt? : Option Stmt → Option Stmt
  | none => none
  | some s => some s.pruned

def prunedStmts : List Stmt → List Stmt
  | [] => []
  | s :: ss => s.pruned :: prunedStmts ss

def Block.pruned : Block → Block
  | .mk span body => .mk span (prunedStmts body)

def prunedBlock? : Option Block → Option Block
  | none => none
  | some b => some b.pruned

def ForInit.pruned : ForInit → ForInit
  | .expression value => .expression (value.pruned P.value)
  | .declareVar bindings => .declareVar (prunedBindings bindings)
  | .declareLexical span bindings => .declareLexical span (prunedBindings bindings)

def prunedForInit? : Option ForInit → Option ForInit
  | none => none
  | some i => some i.pruned

def ForTarget.pruned : ForTarget → ForTarget
  | .declareVar binding => .declareVar binding.pruned
  | .declareLexical start target => .declareLexical start target.pruned
  | .assign target => .assign target.pruned

def Case.pruned : Case → Case
  | .mk start test body => .mk start (prunedExpr? test) (prunedStmts body)

def prunedCases : List Case → List Case
  | [] => []
  | c :: cs => c.pruned :: prunedCases cs

def Catch.pruned : Catch → Catch
  | .mk start parameter body => .mk start (prunedPattern? parameter) body.pruned

def prunedCatch? : Option Catch → Option Catch
  | none => none
  | some c => some c.pruned

end

/-! ## Lists and parts that may be missing -/

/-- An expression that may be missing is pruned if it is there. It is used for its value. -/
@[simp] theorem prunedExpr?_eq (e : Option Expr) :
    prunedExpr? P e = e.map (·.pruned P P.value) := by cases e <;> rfl

/-- The rest of a pattern is pruned if there is one. -/
@[simp] theorem prunedPattern?_eq (p : Option Pattern) :
    prunedPattern? P p = p.map (Pattern.pruned P) := by cases p <;> rfl

/-- A hole of an array pattern stays a hole. -/
@[simp] theorem prunedItem?_eq (i : Option PatternItem) :
    prunedItem? P i = i.map (PatternItem.pruned P) := by cases i <;> rfl

/-- A statement that may be missing is pruned if it is there. -/
@[simp] theorem prunedStmt?_eq (s : Option Stmt) :
    prunedStmt? P s = s.map (Stmt.pruned P) := by cases s <;> rfl

/-- A block that may be missing is pruned if it is there. -/
@[simp] theorem prunedBlock?_eq (b : Option Block) :
    prunedBlock? P b = b.map (Block.pruned P) := by cases b <;> rfl

/-- The start of a loop is pruned if there is one. -/
@[simp] theorem prunedForInit?_eq (i : Option ForInit) :
    prunedForInit? P i = i.map (ForInit.pruned P) := by cases i <;> rfl

/-- A `catch` clause is pruned if there is one. -/
@[simp] theorem prunedCatch?_eq (c : Option Catch) :
    prunedCatch? P c = c.map (Catch.pruned P) := by cases c <;> rfl

/-- The expressions of a list are pruned one by one. -/
@[simp] theorem prunedExprs_eq (es : List Expr) :
    prunedExprs P es = es.map (·.pruned P P.value) := by
  induction es with
  | nil => rfl
  | cons e es ih => rw [prunedExprs, ih, List.map_cons]

/-- The holes of an array literal stay where they are. -/
@[simp] theorem prunedHoles_eq (es : List (Option Expr)) :
    prunedHoles P es = es.map (·.map (·.pruned P P.value)) := by
  induction es with
  | nil => rfl
  | cons e es ih => rw [prunedHoles, ih, prunedExpr?_eq, List.map_cons]

/-- The items of an array pattern are pruned one by one, and its holes stay where they are. -/
@[simp] theorem prunedItems_eq (is : List (Option PatternItem)) :
    prunedItems P is = is.map (·.map (PatternItem.pruned P)) := by
  induction is with
  | nil => rfl
  | cons i is ih => rw [prunedItems, ih, prunedItem?_eq, List.map_cons]

/-- The properties of an object pattern are pruned one by one. -/
@[simp] theorem prunedPatternProperties_eq (ps : List PatternProperty) :
    prunedPatternProperties P ps = ps.map (PatternProperty.pruned P) := by
  induction ps with
  | nil => rfl
  | cons p ps ih => rw [prunedPatternProperties, ih, List.map_cons]

/-- The properties of an object literal are pruned one by one. -/
@[simp] theorem prunedProperties_eq (ps : List Property) :
    prunedProperties P ps = ps.map (Property.pruned P) := by
  induction ps with
  | nil => rfl
  | cons p ps ih => rw [prunedProperties, ih, List.map_cons]

/-- Declarators are pruned one by one. -/
@[simp] theorem prunedBindings_eq (bs : List Binding) :
    prunedBindings P bs = bs.map (Binding.pruned P) := by
  induction bs with
  | nil => rfl
  | cons b bs ih => rw [prunedBindings, ih, List.map_cons]

/-- The elements of a class body that stays are pruned one by one. -/
@[simp] theorem prunedElements_eq (es : List ClassElement) :
    prunedElements P es = es.map (ClassElement.pruned P) := by
  induction es with
  | nil => rfl
  | cons e es ih => rw [prunedElements, ih, List.map_cons]

/-- The statements of a list are pruned one by one. -/
@[simp] theorem prunedStmts_eq (ss : List Stmt) :
    prunedStmts P ss = ss.map (Stmt.pruned P) := by
  induction ss with
  | nil => rfl
  | cons s ss ih => rw [prunedStmts, ih, List.map_cons]

/-- The cases of a `switch` are pruned one by one. -/
@[simp] theorem prunedCases_eq (cs : List Case) :
    prunedCases P cs = cs.map (Case.pruned P) := by
  induction cs with
  | nil => rfl
  | cons c cs ih => rw [prunedCases, ih, List.map_cons]

/-! ## Composite nodes -/

/-- A block stays where it stands. -/
@[simp] theorem Block.span_pruned (b : Block) : (b.pruned P).span = b.span := by
  cases b
  rfl

/-- A block keeps all its statements. -/
@[simp] theorem Block.body_pruned (b : Block) :
    (b.pruned P).body = b.body.map (Stmt.pruned P) := by
  cases b
  simp [Block.pruned, Block.body]

/-- A block is found under the same offset. -/
@[simp] theorem Block.start_pruned (b : Block) : (b.pruned P).start = b.start := by
  simp [Block.start]

/-- A function keeps all its parameters. -/
@[simp] theorem Params.items_pruned (p : Params) :
    (p.pruned P).items = p.items.map (Binding.pruned P) := by
  cases p
  simp [Params.pruned, Params.items]

/-- A function keeps its rest parameter. -/
@[simp] theorem Params.rest_pruned (p : Params) :
    (p.pruned P).rest = p.rest.map (Pattern.pruned P) := by
  cases p
  simp [Params.pruned, Params.rest]

/-- A function stays where it stands. -/
@[simp] theorem Function.span_pruned (fn : Function) : (fn.pruned P).span = fn.span := by
  cases fn
  rfl

/-- An arrow stays an arrow. -/
@[simp] theorem Function.isArrow_pruned (fn : Function) :
    (fn.pruned P).isArrow = fn.isArrow := by
  cases fn
  rfl

/-- A function keeps its name. -/
@[simp] theorem Function.name_pruned (fn : Function) : (fn.pruned P).name = fn.name := by
  cases fn
  rfl

/-- The parameters of a function are pruned with it. -/
@[simp] theorem Function.params_pruned (fn : Function) :
    (fn.pruned P).params = fn.params.pruned P := by
  cases fn
  rfl

/-- The body of a function is pruned with it. -/
@[simp] theorem Function.body_pruned (fn : Function) :
    (fn.pruned P).body = fn.body.pruned P := by
  cases fn
  rfl

/-- The target of a declarator is pruned with it. -/
@[simp] theorem Binding.target_pruned (b : Binding) :
    (b.pruned P).target = b.target.pruned P := by
  cases b
  rfl

/-- The initializer of a declarator is used for its value. -/
@[simp] theorem Binding.init_pruned (b : Binding) :
    (b.pruned P).init = b.init.map (·.pruned P P.value) := by
  cases b
  simp [Binding.pruned, Binding.init]

/-- A class stays where it stands, whether it loses its elements or not. -/
@[simp] theorem Class.span_pruned (cls : Class) : (cls.pruned P).span = cls.span := by
  cases cls
  rfl

/-- A class keeps its name. -/
@[simp] theorem Class.name_pruned (cls : Class) : (cls.pruned P).name = cls.name := by
  cases cls
  rfl

/-- A class keeps its superclass, which is used for its value. -/
@[simp] theorem Class.superclass_pruned (cls : Class) :
    (cls.pruned P).superclass = cls.superclass.map (·.pruned P P.value) := by
  cases cls
  simp [Class.pruned, Class.superclass]

/-! ## Kinds and ranges -/

/-- A function stays a function of its kind. -/
@[simp] theorem Function.kind_pruned (fn : Function) : (fn.pruned P).kind = fn.kind := by
  simp [Function.kind]

/-- Where all marks stay, the kind of an expression does. -/
@[simp] theorem Expr.kind_pruned (e : Expr) : (e.pruned P P.target).kind = e.kind := by
  cases e with
  | function fn => exact fn.kind_pruned P
  | optional inner =>
    rw [Expr.pruned, if_pos (P.keeps_target inner)]
    rfl
  | optionalChain inner =>
    rw [Expr.pruned, if_pos (P.keeps_target inner)]
    rfl
  | _ => rfl

/-- Marks have no range of their own, so leaving them out moves nothing. -/
@[simp] theorem Expr.span_pruned : ∀ (e : Expr) (place : P.Place),
    (e.pruned P place).span = e.span
  | .function fn, _ => fn.span_pruned P
  | .classLiteral cls, _ => cls.span_pruned P
  | .spread inner, _ => inner.span_pruned P.value
  | .optional inner, place => by
    rw [Expr.pruned]
    split <;> exact inner.span_pruned place
  | .optionalChain inner, place => by
    rw [Expr.pruned]
    split <;> exact inner.span_pruned place
  | .identifier _, _ | .string .., _ | .number .., _ | .boolean .., _ | .null _, _ | .regExp _, _
  | .template .., _ | .array .., _ | .object .., _ | .call .., _ | .construct .., _ | .dot .., _
  | .bracket .., _ | .privateDot .., _ | .privateName .., _ | .assign .., _ | .unary .., _
  | .update .., _ | .binary .., _ | .conditional .., _ | .sequence .., _ | .thisValue _, _
  | .superValue _, _ | .newTarget _, _ | .yield .., _ | .await .., _ => rfl

/-- Targets keep their marks, so the kind of a pattern stays. -/
@[simp] theorem Pattern.kind_pruned (p : Pattern) : (p.pruned P).kind = p.kind := by
  cases p with
  | leaf target => exact target.kind_pruned P
  | _ => rfl

/-- A pattern stays where it stands. -/
@[simp] theorem Pattern.span_pruned (p : Pattern) : (p.pruned P).span = p.span := by
  cases p with
  | leaf target => exact target.span_pruned P P.target
  | _ => rfl

/-- The kind of an item is that of its target. -/
@[simp] theorem PatternItem.kind_pruned (i : PatternItem) : (i.pruned P).kind = i.kind := by
  obtain ⟨target, value⟩ := i
  cases value with
  | none => exact target.kind_pruned P
  | some value => rfl

/-- An item stays where it stands. -/
@[simp] theorem PatternItem.span_pruned (i : PatternItem) : (i.pruned P).span = i.span := by
  obtain ⟨target, value⟩ := i
  cases value with
  | none => exact target.span_pruned P
  | some value => simp [PatternItem.pruned, PatternItem.span]

/-- A statement stays a statement of its kind. -/
@[simp] theorem Stmt.kind_pruned (s : Stmt) : (s.pruned P).kind = s.kind := by
  cases s with
  | forEach _ kind _ _ _ => cases kind <;> rfl
  | _ => rfl

/-- A statement stays where it stands. -/
@[simp] theorem Stmt.span_pruned (s : Stmt) : (s.pruned P).span = s.span := by
  cases s with
  | block b => exact b.span_pruned P
  | expression value => exact value.span_pruned P P.value
  | declareFunction fn => exact fn.span_pruned P
  | declareClass cls => exact cls.span_pruned P
  | _ => rfl

/-! ## Names -/

mutual

/-- A pattern binds the same names. What is left out of it is in its defaults and keys. -/
@[simp] theorem Pattern.names_pruned : ∀ p : Pattern, (p.pruned P).names = p.names
  | .leaf target => by
    cases target with
    | optional inner =>
      rw [Pattern.pruned, Expr.pruned, if_pos (P.keeps_target inner)]
      rfl
    | optionalChain inner =>
      rw [Pattern.pruned, Expr.pruned, if_pos (P.keeps_target inner)]
      rfl
    | _ => rfl
  | .array _ items rest => by
    simp only [Pattern.pruned, Pattern.names, itemNames_pruned items,
      restNames_pruned rest]
  | .object _ properties rest => by
    simp only [Pattern.pruned, Pattern.names, propertyNames_pruned properties,
      restNames_pruned rest]

/-- The items of an array pattern bind the same names. -/
theorem itemNames_pruned : ∀ items : List (Option PatternItem),
    itemNames (prunedItems P items) = itemNames items
  | [] => rfl
  | none :: items => itemNames_pruned items
  | some (.mk target value) :: items => by
    simp only [prunedItems, prunedItem?, PatternItem.pruned, itemNames,
      Pattern.names_pruned target, itemNames_pruned items]

/-- The properties of an object pattern bind the same names. -/
theorem propertyNames_pruned : ∀ properties : List PatternProperty,
    propertyNames (prunedPatternProperties P properties) = propertyNames properties
  | [] => rfl
  | .short name value :: properties => by
    simp only [prunedPatternProperties, PatternProperty.pruned, propertyNames,
      propertyNames_pruned properties]
  | .keyed key computed (.mk target value) :: properties => by
    simp only [prunedPatternProperties, PatternProperty.pruned, PatternItem.pruned,
      propertyNames, Pattern.names_pruned target, propertyNames_pruned properties]

/-- The rest of a pattern binds the same names. -/
theorem restNames_pruned : ∀ rest : Option Pattern,
    restNames (prunedPattern? P rest) = restNames rest
  | none => rfl
  | some target => Pattern.names_pruned target

end

/-- Declarators declare the same names. -/
@[simp] theorem Binding.names_pruned (bindings : List Binding) :
    Binding.names (bindings.map (Binding.pruned P)) = Binding.names bindings := by
  simp [Binding.names, Function.comp_def]

/-- Parameters have the same names. -/
@[simp] theorem Params.names_pruned (ps : Params) : (ps.pruned P).names = ps.names := by
  have hrest := restNames_pruned P ps.rest
  rw [prunedPattern?_eq] at hrest
  simp [Params.names, hrest]

/-! ## Templates -/

/-- A template with the functions that it declares pruned. -/
def ScopeTemplate.pruned (t : ScopeTemplate) : ScopeTemplate :=
  { t with functions := t.functions.map (Function.pruned P) }

/-- Names are added to a template whether it is pruned or not. -/
theorem ScopeTemplate.pruned_foldl_addVar (vars : List String) (t : ScopeTemplate) :
    (vars.foldl addVar t).pruned P = vars.foldl addVar (t.pruned P) := by
  induction vars generalizing t with
  | nil => rfl
  | cons name vars ih =>
    rw [List.foldl_cons, ih, List.foldl_cons]
    exact congrArg (vars.foldl addVar) (apply_ite (pruned P) ..)

/-- Functions that are added are pruned as well. -/
theorem ScopeTemplate.pruned_foldl_addFunction (fns : List Function) (t : ScopeTemplate) :
    (fns.foldl addFunction t).pruned P =
      (fns.map (Function.pruned P)).foldl addFunction (t.pruned P) := by
  induction fns generalizing t with
  | nil => rfl
  | cons fn fns ih =>
    rw [List.foldl_cons, ih, List.map_cons, List.foldl_cons]
    simp [addFunction, pruned]

/-! ## Nothing left out -/

/-- A pruning that leaves out nothing. -/
structure Pruning.Full : Prop where
  keeps : ∀ place e, P.keeps place e = true
  empties : ∀ cls, P.empties cls = false

section
variable {P}

mutual

/-- A pruning that leaves out nothing changes no expression. -/
theorem Expr.pruned_full (h : P.Full) : ∀ (e : Expr) {place : P.Place}, e.pruned P place = e
  | .template _ tag parts => congrArg₂ _ (prunedExpr?_full h tag) (prunedExprs_full h parts)
  | .array _ items => congrArg _ (prunedHoles_full h items)
  | .object _ properties => congrArg _ (prunedProperties_full h properties)
  | .function fn => congrArg _ (fn.pruned_full h)
  | .classLiteral cls => congrArg _ (cls.pruned_full h)
  | .call _ callee arguments => congrArg₂ _ (callee.pruned_full h) (prunedExprs_full h arguments)
  | .construct _ callee arguments =>
    congrArg₂ _ (callee.pruned_full h) (prunedExprs_full h arguments)
  | .dot _ object name => congrArg (Expr.dot _ · name) (object.pruned_full h)
  | .bracket _ object key => congrArg₂ _ (object.pruned_full h) (key.pruned_full h)
  | .privateDot _ object name => congrArg (Expr.privateDot _ · name) (object.pruned_full h)
  | .assign _ _ target value => congrArg₂ _ (target.pruned_full h) (value.pruned_full h)
  | .unary _ _ operand => congrArg _ (operand.pruned_full h)
  | .update _ operand => congrArg _ (operand.pruned_full h)
  | .binary _ _ left right => congrArg₂ _ (left.pruned_full h) (right.pruned_full h)
  | .conditional _ test yes no =>
    (congrArg (Expr.conditional _ · _ _) (test.pruned_full h)).trans
      (congrArg₂ _ (yes.pruned_full h) (no.pruned_full h))
  | .sequence _ items => congrArg _ (prunedExprs_full h items)
  | .optional inner => (if_pos (h.keeps _ inner)).trans (congrArg _ (inner.pruned_full h))
  | .optionalChain inner => (if_pos (h.keeps _ inner)).trans (congrArg _ (inner.pruned_full h))
  | .spread inner => congrArg _ (inner.pruned_full h)
  | .yield _ argument => congrArg _ (prunedExpr?_full h argument)
  | .await _ argument => congrArg _ (argument.pruned_full h)
  | .identifier _ | .string .. | .number .. | .boolean .. | .null _ | .regExp _ | .privateName ..
  | .thisValue _ | .superValue _ | .newTarget _ => rfl

/-- An expression that may be missing stays as it is. -/
theorem prunedExpr?_full (h : P.Full) : ∀ e : Option Expr, prunedExpr? P e = e
  | none => rfl
  | some e => congrArg _ (e.pruned_full h)

/-- The expressions of a list stay as they are. -/
theorem prunedExprs_full (h : P.Full) : ∀ es : List Expr, prunedExprs P es = es
  | [] => rfl
  | e :: es => congrArg₂ _ (e.pruned_full h) (prunedExprs_full h es)

/-- The items of an array literal stay as they are. -/
theorem prunedHoles_full (h : P.Full) : ∀ es : List (Option Expr), prunedHoles P es = es
  | [] => rfl
  | e :: es => congrArg₂ _ (prunedExpr?_full h e) (prunedHoles_full h es)

/-- A pattern stays as it is. -/
theorem Pattern.pruned_full (h : P.Full) : ∀ p : Pattern, p.pruned P = p
  | .leaf target => congrArg _ (target.pruned_full h)
  | .array _ items rest => congrArg₂ _ (prunedItems_full h items) (prunedPattern?_full h rest)
  | .object _ properties rest =>
    congrArg₂ _ (prunedPatternProperties_full h properties) (prunedPattern?_full h rest)

/-- The rest of a pattern stays as it is. -/
theorem prunedPattern?_full (h : P.Full) : ∀ p : Option Pattern, prunedPattern? P p = p
  | none => rfl
  | some p => congrArg _ (p.pruned_full h)

/-- An item of an array pattern keeps its default as it is. -/
theorem PatternItem.pruned_full (h : P.Full) : ∀ i : PatternItem, i.pruned P = i
  | .mk target default => congrArg₂ _ (target.pruned_full h) (prunedExpr?_full h default)

/-- An item that may be a hole stays as it is. -/
theorem prunedItem?_full (h : P.Full) : ∀ i : Option PatternItem, prunedItem? P i = i
  | none => rfl
  | some i => congrArg _ (i.pruned_full h)

/-- The items of an array pattern stay as they are. -/
theorem prunedItems_full (h : P.Full) : ∀ is : List (Option PatternItem), prunedItems P is = is
  | [] => rfl
  | i :: is => congrArg₂ _ (prunedItem?_full h i) (prunedItems_full h is)

/-- A property of an object pattern keeps its key and its default as they are. -/
theorem PatternProperty.pruned_full (h : P.Full) : ∀ p : PatternProperty, p.pruned P = p
  | .short _ default => congrArg _ (prunedExpr?_full h default)
  | .keyed key computed value =>
    congrArg₂ (PatternProperty.keyed · computed ·) (key.pruned_full h) (value.pruned_full h)

/-- The properties of an object pattern stay as they are. -/
theorem prunedPatternProperties_full (h : P.Full) :
    ∀ ps : List PatternProperty, prunedPatternProperties P ps = ps
  | [] => rfl
  | p :: ps => congrArg₂ _ (p.pruned_full h) (prunedPatternProperties_full h ps)

/-- A property of an object literal keeps its key and its value as they are. -/
theorem Property.pruned_full (h : P.Full) : ∀ p : Property, p.pruned P = p
  | .short _ default => congrArg _ (prunedExpr?_full h default)
  | .keyed key computed kind value =>
    congrArg₂ (Property.keyed · computed kind ·) (key.pruned_full h) (value.pruned_full h)
  | .spread inner => congrArg _ (inner.pruned_full h)

/-- The properties of an object literal stay as they are. -/
theorem prunedProperties_full (h : P.Full) : ∀ ps : List Property, prunedProperties P ps = ps
  | [] => rfl
  | p :: ps => congrArg₂ _ (p.pruned_full h) (prunedProperties_full h ps)

/-- A function stays as it is. -/
theorem Function.pruned_full (h : P.Full) : ∀ fn : Function, fn.pruned P = fn
  | .mk _ _ _ params body => congrArg₂ _ (params.pruned_full h) (body.pruned_full h)

/-- Parameters stay as they are. -/
theorem Params.pruned_full (h : P.Full) : ∀ ps : Params, ps.pruned P = ps
  | .mk _ items rest => congrArg₂ _ (prunedBindings_full h items) (prunedPattern?_full h rest)

/-- The body of a function stays as it is. -/
theorem Body.pruned_full (h : P.Full) : ∀ b : Body, b.pruned P = b
  | .block b => congrArg _ (b.pruned_full h)
  | .expression value => congrArg _ (value.pruned_full h)

/-- A declarator stays as it is. -/
theorem Binding.pruned_full (h : P.Full) : ∀ b : Binding, b.pruned P = b
  | .mk target init => congrArg₂ _ (target.pruned_full h) (prunedExpr?_full h init)

/-- Declarators stay as they are. -/
theorem prunedBindings_full (h : P.Full) : ∀ bs : List Binding, prunedBindings P bs = bs
  | [] => rfl
  | b :: bs => congrArg₂ _ (b.pruned_full h) (prunedBindings_full h bs)

/-- No class loses its elements. -/
theorem Class.pruned_full (h : P.Full) : ∀ cls : Class, cls.pruned P = cls
  | .mk _ _ superclass elements =>
    congrArg₂ _ (prunedExpr?_full h superclass)
      ((if_neg (by rw [h.empties]; nofun)).trans (prunedElements_full h elements))

/-- An element of a class stays as it is. -/
theorem ClassElement.pruned_full (h : P.Full) : ∀ e : ClassElement, e.pruned P = e
  | .field _ key init => congrArg₂ _ (key.pruned_full h) (prunedExpr?_full h init)
  | .method _ key body => congrArg₂ _ (key.pruned_full h) (body.pruned_full h)
  | .staticBlock _ block => congrArg _ (block.pruned_full h)

/-- The elements of a class stay as they are. -/
theorem prunedElements_full (h : P.Full) :
    ∀ es : List ClassElement, prunedElements P es = es
  | [] => rfl
  | e :: es => congrArg₂ _ (e.pruned_full h) (prunedElements_full h es)

/-- A statement stays as it is. -/
theorem Stmt.pruned_full (h : P.Full) : ∀ s : Stmt, s.pruned P = s
  | .block b => congrArg _ (b.pruned_full h)
  | .expression value => congrArg _ (value.pruned_full h)
  | .declareVar _ bindings => congrArg _ (prunedBindings_full h bindings)
  | .declareLexical _ bindings => congrArg _ (prunedBindings_full h bindings)
  | .declareFunction fn => congrArg _ (fn.pruned_full h)
  | .declareClass cls => congrArg _ (cls.pruned_full h)
  | .returnWith _ argument => congrArg _ (prunedExpr?_full h argument)
  | .throwWith _ argument => congrArg _ (argument.pruned_full h)
  | .ifElse _ test yes no =>
    (congrArg (Stmt.ifElse _ · _ _) (test.pruned_full h)).trans
      (congrArg₂ _ (yes.pruned_full h) (prunedStmt?_full h no))
  | .forLoop _ init test update body =>
    (congrArg₂ (Stmt.forLoop _ · · _ _) (prunedForInit?_full h init)
      (prunedExpr?_full h test)).trans
      (congrArg₂ _ (prunedExpr?_full h update) (body.pruned_full h))
  | .forEach _ kind into source body =>
    (congrArg (Stmt.forEach _ kind · _ _) (into.pruned_full h)).trans
      (congrArg₂ _ (source.pruned_full h) (body.pruned_full h))
  | .whileLoop _ test body => congrArg₂ _ (test.pruned_full h) (body.pruned_full h)
  | .doWhile _ body test => congrArg₂ _ (body.pruned_full h) (test.pruned_full h)
  | .switchOn _ subject cases => congrArg₂ _ (subject.pruned_full h) (prunedCases_full h cases)
  | .tryCatch _ body handler finalizer =>
    (congrArg (Stmt.tryCatch _ · _ _) (body.pruned_full h)).trans
      (congrArg₂ _ (prunedCatch?_full h handler) (prunedBlock?_full h finalizer))
  | .labelled _ _ body => congrArg _ (body.pruned_full h)
  | .withObject _ object body => congrArg₂ _ (object.pruned_full h) (body.pruned_full h)
  | .jump _ | .empty _ | .debugger _ => rfl

/-- A statement that may be missing stays as it is. -/
theorem prunedStmt?_full (h : P.Full) : ∀ s : Option Stmt, prunedStmt? P s = s
  | none => rfl
  | some s => congrArg _ (s.pruned_full h)

/-- The statements of a list stay as they are. -/
theorem prunedStmts_full (h : P.Full) : ∀ ss : List Stmt, prunedStmts P ss = ss
  | [] => rfl
  | s :: ss => congrArg₂ _ (s.pruned_full h) (prunedStmts_full h ss)

/-- A block stays as it is. -/
theorem Block.pruned_full (h : P.Full) : ∀ b : Block, b.pruned P = b
  | .mk _ body => congrArg _ (prunedStmts_full h body)

/-- A block that may be missing stays as it is. -/
theorem prunedBlock?_full (h : P.Full) : ∀ b : Option Block, prunedBlock? P b = b
  | none => rfl
  | some b => congrArg _ (b.pruned_full h)

/-- The start of a loop stays as it is. -/
theorem ForInit.pruned_full (h : P.Full) : ∀ i : ForInit, i.pruned P = i
  | .expression value => congrArg _ (value.pruned_full h)
  | .declareVar bindings => congrArg _ (prunedBindings_full h bindings)
  | .declareLexical _ bindings => congrArg _ (prunedBindings_full h bindings)

/-- A start of a loop that may be missing stays as it is. -/
theorem prunedForInit?_full (h : P.Full) : ∀ i : Option ForInit, prunedForInit? P i = i
  | none => rfl
  | some i => congrArg _ (i.pruned_full h)

/-- The target of a loop over something stays as it is. -/
theorem ForTarget.pruned_full (h : P.Full) : ∀ t : ForTarget, t.pruned P = t
  | .declareVar binding => congrArg _ (binding.pruned_full h)
  | .declareLexical _ target => congrArg _ (target.pruned_full h)
  | .assign target => congrArg _ (target.pruned_full h)

/-- A case of a `switch` stays as it is. -/
theorem Case.pruned_full (h : P.Full) : ∀ c : Case, c.pruned P = c
  | .mk _ test body => congrArg₂ _ (prunedExpr?_full h test) (prunedStmts_full h body)

/-- The cases of a `switch` stay as they are. -/
theorem prunedCases_full (h : P.Full) : ∀ cs : List Case, prunedCases P cs = cs
  | [] => rfl
  | c :: cs => congrArg₂ _ (c.pruned_full h) (prunedCases_full h cs)

/-- A `catch` clause stays as it is. -/
theorem Catch.pruned_full (h : P.Full) : ∀ c : Catch, c.pruned P = c
  | .mk _ parameter body => congrArg₂ _ (prunedPattern?_full h parameter) (body.pruned_full h)

/-- A `catch` clause that may be missing stays as it is. -/
theorem prunedCatch?_full (h : P.Full) : ∀ c : Option Catch, prunedCatch? P c = c
  | none => rfl
  | some c => congrArg _ (c.pruned_full h)

end

/-- It does not change templates either. -/
theorem ScopeTemplate.pruned_full (h : P.Full) (t : ScopeTemplate) : t.pruned P = t := by
  have hid : Function.pruned P = id := funext fun fn => fn.pruned_full h
  simp [ScopeTemplate.pruned, hid]

end

end

end FrozenGlobals.Script
