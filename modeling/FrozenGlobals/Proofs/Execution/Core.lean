import FrozenGlobals.Analysis.Member
import FrozenGlobals.Proofs.Execution.Semantics
import FrozenGlobals.Proofs.Script.Parts

/-!
# The core of the language

Scripts without calls, loops and jumps. `Core true` are its expressions and `Core false` those that
neither assign nor update; `CoreStmt` are its statements. Only objects and keys that are
`Core false` may stand in a member that is assigned to. Names of intrinsics are left out, and so are
property names under which arrays have a method.

`Hoisting.find?_of_undeclaring` says that blocks without declarations on entry have an empty
template, and `CoreStmt.undeclaring` that those of core statements are such blocks.
-/

namespace FrozenGlobals.Execution

open Script (Span Expr Pattern Property Stmt Binding Block Node Hoisting HoistStep ScopeTemplate)
open Number (Binary64)

/-! ## Grammar -/

/-- A name that is no intrinsic. -/
def IsPlainName (name : String) : Prop := Intrinsic.ofName? name = none

/-- A property name under which arrays have no method. -/
def IsPlainKey (name : String) : Prop := Builtin.find? .arrayInstance name = none

instance (name : String) : Decidable (IsPlainName name) :=
  inferInstanceAs (Decidable (Intrinsic.ofName? name = none))

instance (name : String) : Decidable (IsPlainKey name) :=
  inferInstanceAs (Decidable (Builtin.find? .arrayInstance name = none))

def isMember : Expr → Bool
  | .dot .. | .bracket .. => true
  | _ => false

/-- What is asked of members only is not asked of an expression that is none. -/
theorem of_isMember_eq_false {e : Expr} {P : Prop} (h : isMember e = false) (hm : isMember e) : P :=
  absurd (h ▸ hm) Bool.false_ne_true

/-- A property written with a name or a string in front of its value, or as a name alone. -/
def IsPlainProperty : Property → Prop
  | .short id none => IsPlainName id.name ∧ IsPlainKey id.name
  | .keyed (.identifier id) false .value _ => IsPlainKey id.name
  | .keyed (.string _ text) false .value _ => IsPlainKey text
  | _ => False

/-- The value written in a property. -/
def propertyValue? : Property → Option Expr
  | .keyed _ _ _ value => some value
  | _ => none

/-- The expressions of the core. They assign and update only if `writes` is set. -/
inductive Core : (writes : Bool) → Expr → Prop
  | identifier {w id} : IsPlainName id.name → Core w (.identifier id)
  | string {w span text} : Core w (.string span text)
  | number {w span value} : Core w (.number span value)
  | boolean {w span value} : Core w (.boolean span value)
  | null {w span} : Core w (.null span)
  | template {w span parts} : (∀ e ∈ parts, Core w e) → Core w (.template span none parts)
  | array {w span items} : (∀ e, some e ∈ items → Core w e) → Core w (.array span items)
  | object {w span properties} : (∀ p ∈ properties, IsPlainProperty p) →
      (∀ p ∈ properties, ∀ e, propertyValue? p = some e → Core w e) →
      Core w (.object span properties)
  | dot {w span object name} : IsPlainKey name → Core w object → Core w (.dot span object name)
  | bracketString {w span object s text} : IsPlainKey text → Core w object →
      Core w (.bracket span object (.string s text))
  | bracketNumber {w span object s n} : n < 1000000 → Core w object →
      Core w (.bracket span object (.number s (some (.ofNat n))))
  | bracket {w span object key} : Key.ofLiteral? key = none → Core w object → Core w key →
      Core w (.bracket span object key)
  | assignName {span id value} : IsPlainName id.name → Core true value →
      Core true (.assign span .plain (.leaf (.identifier id)) value)
  | assignMember {span target value} : isMember target → Core false target → Core true value →
      Core true (.assign span .plain (.leaf target) value)
  | deleteMember {w span target} : isMember target → Core w target →
      Core w (.unary span .delete target)
  | unary {w span op operand} : op ≠ .delete → Core w operand → Core w (.unary span op operand)
  | updateName {span id} : IsPlainName id.name → Core true (.update span (.identifier id))
  | updateMember {span target} : isMember target → Core true target →
      Core true (.update span target)
  | binary {w span op left right} : Core w left → Core w right →
      Core w (.binary span op left right)
  | conditional {w span test yes no} : Core w test → Core w yes → Core w no →
      Core w (.conditional span test yes no)
  | sequence {w span items} : (∀ e ∈ items, Core w e) → Core w (.sequence span items)

/-- A declarator of a name, with its value if it has one. -/
def CoreBinding : Binding → Prop
  | .mk (.leaf (.identifier id)) init => IsPlainName id.name ∧ ∀ e ∈ init, Core true e
  | _ => False

def isDeclaration : Stmt → Bool
  | .declareLexical .. => true
  | _ => false

/-- The statements of the core. A declaration stands in a block or in the program itself. -/
inductive CoreStmt : Stmt → Prop
  | block {span body} : (∀ s ∈ body, CoreStmt s) → CoreStmt (.block (.mk span body))
  | expression {value} : Core true value → CoreStmt (.expression value)
  | declareLexical {span bindings} : (∀ b ∈ bindings, CoreBinding b) →
      CoreStmt (.declareLexical span bindings)
  | ifThen {span test yes} : Core true test → CoreStmt yes → isDeclaration yes = false →
      CoreStmt (.ifElse span test yes none)
  | ifElse {span test yes no} : Core true test → CoreStmt yes → isDeclaration yes = false →
      CoreStmt no → isDeclaration no = false → CoreStmt (.ifElse span test yes (some no))
  | empty {span} : CoreStmt (.empty span)

/-- The initializers of core declarators are core expressions. -/
theorem CoreBinding.core {b : Binding} (h : CoreBinding b) : ∀ e ∈ b.init, Core true e := by
  unfold CoreBinding at h
  split at h
  · exact h.2
  · exact h.elim

/-! ## Members -/

section
variable {d : Dialect}

attribute [local simp] Dialect.eval Dialect.evalMember

/-- A member is read from its object under its key. -/
theorem eval_member {e : Expr} (h : isMember e) : d.eval e = (do
    let t ← d.evalMember e
    d.readProperty t.1 (← d.keyName t.2)) := by
  cases e with
  | dot span object name =>
    simp only [Dialect.eval, Dialect.evalMember, bind_assoc, pure_bind]
    rfl
  | bracket span object key =>
    simp only [Dialect.eval, Dialect.evalMember, bind_assoc, pure_bind]
  | _ => cases h

/-- An execution assigns to a member after it evaluated the object, the key and the value. -/
theorem eval_assignMember {span : Span} {target value : Expr} (h : isMember target) :
    d.eval (.assign span .plain (.leaf target) value) = (do
      let t ← d.evalMember target
      let v ← d.eval value
      d.writeProperty span t.1 (← d.keyName t.2) v
      return v) := by
  cases target with
  | dot span object name => simp
  | bracket span object key => simp
  | _ => cases h

/-- An execution updates a member after it read it, whatever kind of member it is. -/
theorem eval_updateMember {span : Span} {target : Expr} (h : isMember target) :
    d.eval (.update span target) = (do
      let t ← d.evalMember target
      let key ← d.keyName t.2
      let old ← d.readProperty t.1 key
      let new ← orStop (d.step span (← get) old)
      d.writeProperty span t.1 key (.scalar new.1)
      return .scalar new.2) := by
  cases target with
  | dot span object name => simp
  | bracket span object key => simp
  | _ => cases h

end

end FrozenGlobals.Execution

/-! ## What blocks declare on entry -/

namespace FrozenGlobals.Script

/-- Nothing is hoisted out of a node or of what the pass visits below it. -/
inductive Node.Undeclaring : Node → Prop
  | mk {n : Node} : n.hoistStep.vars = [] → n.hoistStep.functions = [] →
      (∀ c ∈ n.hoistStep.parts, Undeclaring c) → Undeclaring n

/-- The pass opens a scope at a node or below it. -/
inductive Node.Opens : Node → Int → Prop
  | here {n start} : n.hoistStep.opens = some start → Opens n start
  | inside {n c start} : c ∈ n.hoistStep.parts → Opens c start → Opens n start

/-- A node through which the pass goes to the children. -/
theorem Node.Undeclaring.through {n : Node} (hstep : n.hoistStep = .through [] n.children)
    (h : ∀ c ∈ n.children, c.Undeclaring) : n.Undeclaring :=
  .mk (by rw [hstep]; rfl) (by rw [hstep]; rfl) (by
    rw [hstep]
    simpa [HoistStep.parts, HoistStep.through] using h)

/-- A node without children through which the pass goes. -/
theorem Node.Undeclaring.leaf {n : Node} (hstep : n.hoistStep = .through [] []) :
    n.Undeclaring :=
  .mk (by rw [hstep]; rfl) (by rw [hstep]; rfl) (by rw [hstep]; nofun)

namespace Hoisting

/-- No block declares anything on entry. -/
def Plain (h : Hoisting) : Prop := ∀ t ∈ h.templates, t.vars = [] ∧ t.functions = []

/-- Visits nodes one after another. -/
def visitAll (block vars : Int) (cs : List Node) (h : Hoisting) : Hoisting :=
  cs.foldl (fun h c => h.visit block vars c) h

/-- Leaving a template as it is leaves all of them as they are. -/
@[simp] theorem update_self (h : Hoisting) (start : Int) : h.update start (fun t => t) = h := by
  cases h
  simp [update]

/-- Visits one after another do not need to know where the nodes come from. -/
theorem foldl_attach_visit (block vars : Int) (cs : List Node) (h : Hoisting) :
    cs.attach.foldl (fun h c => h.visit block vars c.1) h = h.visitAll block vars cs := by
  simp only [visitAll, List.foldl_attach]

section
variable {n : Node} (hv : n.hoistStep.vars = []) (hf : n.hoistStep.functions = [])
include hv hf

/-- Where no scope is opened, only what is around is visited. -/
theorem visit_eq_of_none (ho : n.hoistStep.opens = none) (h : Hoisting) (block vars : Int) :
    h.visit block vars n = h.visitAll block vars n.hoistStep.around := by
  rw [visit, hv, hf]
  simp only [ho, List.foldl_nil, update_self]
  exact foldl_attach_visit block vars _ h

/-- Where a scope is opened, what is inside is visited after its template was added. -/
theorem visit_eq_of_some {start : Int} (ho : n.hoistStep.opens = some start) (h : Hoisting)
    (block vars : Int) :
    h.visit block vars n =
      ((h.visitAll block vars n.hoistStep.around).add start (n.hoistStep.params.getD [])).visitAll
        start (if n.hoistStep.params.isSome then start else vars) n.hoistStep.inside := by
  rw [visit, hv, hf]
  simp only [ho, List.foldl_nil, update_self]
  rw [← foldl_attach_visit block vars, ← foldl_attach_visit start]

end

/-- The pass from one hoisting to another adds scopes that declare nothing, among them those of some
offsets. -/
structure Adds (h h' : Hoisting) (opened : Int → Prop) : Prop where
  plain : h.Plain → h'.Plain
  kept : ∀ start ∈ h.starts, start ∈ h'.starts
  opened : ∀ start, opened start → start ∈ h'.starts

/-- Visits one after another add what each of them adds. -/
theorem adds_visitAll {cs : List Node}
    (hcs : ∀ c ∈ cs, ∀ h block vars, Adds h (h.visit block vars c) c.Opens)
    (h : Hoisting) (block vars : Int) :
    Adds h (h.visitAll block vars cs) fun start => ∃ c ∈ cs, c.Opens start := by
  induction cs generalizing h with
  | nil =>
    refine ⟨id, fun _ hs => hs, ?_⟩
    rintro _ ⟨_, hc, _⟩
    cases hc
  | cons c cs ih =>
    have h₁ := hcs c List.mem_cons_self h block vars
    have h₂ := ih (fun c' hc' => hcs c' (List.mem_cons_of_mem _ hc')) (h.visit block vars c)
    refine ⟨fun hp => h₂.plain (h₁.plain hp), fun s hs => h₂.kept s (h₁.kept s hs), ?_⟩
    rintro start ⟨c', hc', ho⟩
    rcases List.mem_cons.1 hc' with rfl | hc'
    · exact h₂.kept start (h₁.opened start ho)
    · exact h₂.opened start ⟨c', hc', ho⟩

/-- Adding a template adds one scope that declares nothing. -/
theorem adds_add (h : Hoisting) (start : Int) (params : List String) :
    Adds h (h.add start params) (· = start) where
  plain hp t ht := by
    rcases List.mem_append.1 ht with ht | ht
    · exact hp t ht
    · rw [List.mem_singleton.1 ht]
      exact ⟨rfl, rfl⟩
  kept s hs := by
    simp only [starts, add, List.map_append]
    exact List.mem_append_left _ hs
  opened s hs := by simp [starts, add, hs]

/-- A pass over a node that declares nothing opens the scopes at the node and below it. -/
theorem adds_visit {n : Node} (hn : n.Undeclaring) :
    ∀ h block vars, Adds h (h.visit block vars n) n.Opens := by
  induction hn with
  | @mk n hv hf _ ih =>
    intro h block vars
    have around := adds_visitAll (fun c hc => ih c (List.mem_append_left _ hc)) h block vars
    cases ho : n.hoistStep.opens with
    | none =>
      rw [visit_eq_of_none hv hf ho]
      refine ⟨around.plain, around.kept, fun start hs => ?_⟩
      cases hs with
      | here h => rw [ho] at h; cases h
      | inside hc hs =>
        have hinside : n.hoistStep.inside = [] := n.inside_hoistStep ho
        rw [HoistStep.parts, hinside, List.append_nil] at hc
        exact around.opened start ⟨_, hc, hs⟩
    | some start =>
      rw [visit_eq_of_some hv hf ho]
      have added := adds_add (h.visitAll block vars n.hoistStep.around) start
        (n.hoistStep.params.getD [])
      have inside := adds_visitAll (fun c hc => ih c (List.mem_append_right _ hc))
        ((h.visitAll block vars n.hoistStep.around).add start (n.hoistStep.params.getD []))
        start (if n.hoistStep.params.isSome then start else vars)
      refine ⟨fun hp => inside.plain (added.plain (around.plain hp)),
        fun s hs => inside.kept s (added.kept s (around.kept s hs)), fun s hs => ?_⟩
      cases hs with
      | here h =>
        rw [ho] at h
        cases h
        exact inside.kept start (added.opened start rfl)
      | inside hc hs =>
        rcases List.mem_append.1 hc with hc | hc
        · exact inside.kept s (added.kept s (around.opened s ⟨_, hc, hs⟩))
        · exact inside.opened s ⟨_, hc, hs⟩

/-- In a program that declares nothing on entry, the program itself and every block in it have a
template, and it is empty. -/
theorem find?_of_undeclaring {program : Program}
    (hp : ∀ s ∈ program.body, (Node.stmt s).Undeclaring) {start : Int}
    (hs : start = root ∨ ∃ s ∈ program.body, (Node.stmt s).Opens start) :
    ∃ t, program.hoisting.find? start = some t ∧ t.vars = [] ∧ t.functions = [] := by
  have added := adds_add (Hoisting.mk []) root []
  have visited := @adds_visitAll (program.body.map .stmt)
    (by
      intro c hc
      obtain ⟨s, hs, rfl⟩ := List.mem_map.1 hc
      exact adds_visit (hp s hs))
    ((Hoisting.mk []).add root []) root root
  have heq : program.hoisting =
      ((Hoisting.mk []).add root []).visitAll root root (program.body.map .stmt) := by
    rw [visitAll, List.foldl_map]
    rfl
  have hmem : start ∈ program.hoisting.starts := by
    rw [heq]
    rcases hs with rfl | ⟨s, hs, ho⟩
    · exact visited.kept root (added.opened root rfl)
    · exact visited.opened start ⟨_, List.mem_map_of_mem hs, ho⟩
  obtain ⟨t, ht, htstart⟩ := List.mem_map.1 hmem
  obtain ⟨t', ht'⟩ : ∃ t', program.hoisting.find? start = some t' := by
    rw [← Option.isSome_iff_exists, find?, List.find?_isSome]
    exact ⟨t, ht, beq_iff_eq.2 htstart⟩
  have hplain : program.hoisting.Plain := heq ▸ visited.plain (added.plain nofun)
  exact ⟨t', ht', hplain t' (List.mem_of_find?_eq_some ht')⟩

end Hoisting

end FrozenGlobals.Script

namespace FrozenGlobals.Execution

open Script (Span Expr Pattern Property Stmt Binding Block Node HoistStep)
open Number (Binary64)

/-- Identifiers declare nothing. -/
@[simp] theorem undeclaring_identifier (id : Script.Identifier) :
    (Node.expr (.identifier id)).Undeclaring := .leaf rfl

/-- Strings declare nothing. -/
@[simp] theorem undeclaring_string (span : Span) (text : String) :
    (Node.expr (.string span text)).Undeclaring := .leaf rfl

/-- Numbers declare nothing. -/
@[simp] theorem undeclaring_number (span : Span) (value : Option Binary64) :
    (Node.expr (.number span value)).Undeclaring := .leaf rfl

/-- Plain properties declare nothing if their values do not. -/
theorem undeclaring_property {p : Property} (hp : IsPlainProperty p)
    (hv : ∀ e, propertyValue? p = some e → (Node.expr e).Undeclaring) :
    (Node.property p).Undeclaring := by
  unfold IsPlainProperty at hp
  split at hp
  · exact .through rfl (by simp [Node.children])
  · exact .through rfl (by simp [Node.children, hv _ rfl])
  · exact .through rfl (by simp [Node.children, hv _ rfl])
  · exact hp.elim

/-- Core expressions declare nothing. -/
theorem Core.undeclaring {w : Bool} {e : Expr} (h : Core w e) : (Node.expr e).Undeclaring := by
  induction h with
  | identifier _ | string | number | boolean | null => exact .leaf rfl
  | template _ ih | sequence _ ih | array _ ih =>
    exact .through rfl (by simpa [Node.children, Expr.children] using ih)
  | object h _ ih =>
    refine .through rfl ?_
    simp only [Node.children, Expr.children, List.mem_map]
    rintro _ ⟨p, hp, rfl⟩
    exact undeclaring_property (h p hp) (ih p hp)
  | dot _ _ ih | deleteMember _ _ ih | unary _ _ ih | updateMember _ _ ih =>
    exact .through rfl (by simpa [Node.children, Expr.children] using ih)
  | bracketString _ _ ih | bracketNumber _ _ ih =>
    exact .through rfl (by simp [Node.children, Expr.children, ih])
  | bracket _ _ _ ih₁ ih₂ | binary _ _ ih₁ ih₂ =>
    exact .through rfl (by simp [Node.children, Expr.children, ih₁, ih₂])
  | assignName _ _ ih =>
    exact .through rfl (by simp [Node.children, Expr.children, Node.ofPattern, ih])
  | assignMember _ _ _ ih₁ ih₂ =>
    exact .through rfl (by simp [Node.children, Expr.children, Node.ofPattern, ih₁, ih₂])
  | updateName _ =>
    exact .through rfl (by simp [Node.children, Expr.children])
  | conditional _ _ _ ih₁ ih₂ ih₃ =>
    exact .through rfl (by simp [Node.children, Expr.children, ih₁, ih₂, ih₃])

/-- Core declarators declare nothing on entry. -/
theorem CoreBinding.undeclaring {b : Binding} (h : CoreBinding b) :
    (Node.binding b).Undeclaring := by
  obtain ⟨target, init⟩ := b
  unfold CoreBinding at h
  split at h
  · next id init heq =>
    cases heq
    refine .through rfl ?_
    simp only [Node.children, Node.ofPattern, List.mem_cons, List.mem_map, Option.mem_toList]
    rintro _ (rfl | ⟨e, he, rfl⟩)
    · exact .leaf rfl
    · exact (h.2 e he).undeclaring
  · exact h.elim

/-- Core statements declare nothing on entry of the block they stand in. -/
theorem CoreStmt.undeclaring {s : Stmt} (h : CoreStmt s) : (Node.stmt s).Undeclaring := by
  induction h with
  | block _ ih =>
    refine .mk rfl rfl ?_
    simpa [Node.hoistStep, HoistStep.parts, HoistStep.block, Block.body] using ih
  | expression h =>
    exact .through rfl (by simpa [Node.children, Stmt.children] using h.undeclaring)
  | declareLexical h =>
    refine .through rfl ?_
    simp only [Node.children, Stmt.children, List.mem_map]
    rintro _ ⟨b, hb, rfl⟩
    exact (h b hb).undeclaring
  | ifThen h _ _ ih =>
    exact .through rfl (by simp [Node.children, Stmt.children, h.undeclaring, ih])
  | ifElse h _ _ _ _ ih₁ ih₂ =>
    exact .through rfl (by simp [Node.children, Stmt.children, h.undeclaring, ih₁, ih₂])
  | empty => exact .leaf rfl

end FrozenGlobals.Execution
