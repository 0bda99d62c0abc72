import FrozenGlobals.Proofs.Execution.Expressions

/-!
# Statements

Walking over a statement of the core covers every execution of it (`CoreStmt.simulates`). A
declaration replaces what its name was bound to in the innermost frame and nothing else, so the
frames around still grow; every other statement lets all visible frames grow, which is why the
branch that an execution did not take does no harm.
-/

namespace FrozenGlobals.Execution

open Script (Span Expr Stmt Binding Block Node HoistStep)

/-! ## Declarations -/

section
variable {bs : List Nat} {p g : Nat} {m : Chart} {a : State} {c : Store} {name : String}
  {r : Reference}

/-- The innermost frame. -/
def topFrame (bs : List Nat) (p : Nat) : Nat := bs.headD p

/-- The visible frames begin with the innermost one. -/
theorem stack_eq (bs : List Nat) (p g : Nat) :
    bs ++ [p, g] = topFrame bs p :: (bs ++ [p, g]).tail := by
  cases bs <;> rfl

/-- The innermost frame is found without a change. -/
theorem top_eq (bs : List Nat) (p g : Nat) :
    Run.top (bs ++ [p, g]) = Pure.pure (topFrame bs p) := by
  rw [stack_eq]
  rfl

/-- The innermost frame is not among the frames around it. -/
theorem Ready.top_not_mem (h : Ready (bs ++ [p, g]) a) :
    topFrame bs p ∉ (bs ++ [p, g]).tail := by
  have hn := h.nodup
  rw [stack_eq] at hn
  exact (List.nodup_cons.1 hn).1

/-- The innermost frame exists. -/
theorem Ready.top_lt (h : Ready (bs ++ [p, g]) a) : topFrame bs p < a.heap.frames.size :=
  h.exist _ (by rw [stack_eq]; exact List.mem_cons_self)

/-- The innermost frame is never that of the globals. -/
theorem Ready.top_ne_globals (h : Ready (bs ++ [p, g]) a) : topFrame bs p ≠ g := by
  intro heq
  refine h.top_not_mem ?_
  rw [heq]
  cases bs with
  | nil => simp
  | cons b bs => simp

/-- A declaration lets the frames around grow. -/
theorem Grown.declare (name : String) (r : Reference) (h : Ready (bs ++ [p, g]) a) :
    Grown p g (bs ++ [p, g]).tail a (bindIn a (topFrame bs p) name r) := by
  have hne : ∀ f ∈ (bs ++ [p, g]).tail, f ≠ topFrame bs p := by
    rintro f hf rfl
    exact h.top_not_mem hf
  refine ⟨fun ha => ha.bindIn _ r, by simp [bindIn, Heap.define],
    fun _ ct hct => ⟨ct, hct, .refl ct⟩, ?_, ?_, ?_, rfl, fun _ hd => hd⟩
  · intro f hf n r' hr'
    exact ⟨r', by rw [find?_bindIn_of_ne (hne f hf)]; exact hr', fun _ hu => hu⟩
  · intro f hf n hn
    exact .inl (by rw [find?_bindIn_of_ne (hne f hf)]; exact hn)
  · intro n
    rw [find?_bindIn_of_ne (Ne.symm h.top_ne_globals)]

/-- The frame in which a name was declared covers the scope in which it was. -/
theorem FrameCovers.declare {f : Nat} {scope : Scope} {v : Val}
    (h : FrameCovers m (a.heap.frame f) scope) (hf : f < a.heap.frames.size) (hv : Covers m r v) :
    FrameCovers m ((bindIn a f name r).heap.frame f) (scope.set name (.bound v)) := by
  intro n w hw
  rw [find?_bindIn_self hf]
  by_cases hn : n = name
  · rw [Scope.set, if_pos hn] at hw
    cases hw
    exact ⟨r, if_pos hn, hv⟩
  · rw [Scope.set, if_neg hn] at hw
    rw [if_neg hn]
    exact h n w hw

/-- A declaration leaves what the other frames cover. -/
theorem FrameCovers.elsewhere {f f' : Nat} {scope : Scope}
    (h : FrameCovers m (a.heap.frame f') scope) (name : String) (r : Reference) (hne : f' ≠ f) :
    FrameCovers m ((bindIn a f name r).heap.frame f') scope := by
  intro n w hw
  rw [find?_bindIn_of_ne hne]
  exact h n w hw

/-- Outside of blocks a declaration adds to the scope of the program. -/
theorem declare_of_nil (h : c.blocks = []) (v : Val) :
    c.declare name v = { c with program := c.program.set name (.bound v) } := by
  rw [Store.declare, h]

/-- Inside of blocks a declaration adds to the innermost of them. -/
theorem declare_of_cons {scope : Scope} {scopes : List Scope} (h : c.blocks = scope :: scopes)
    (v : Val) :
    c.declare name v = { c with blocks := scope.set name (.bound v) :: scopes } := by
  rw [Store.declare, h]

/-- A name declared by an execution and by an analysis is covered. -/
theorem Covering.declare (h : Covering bs p g m a c) (ha : Ready (bs ++ [p, g]) a) {v : Val}
    (hv : Covers m r v) :
    Covering bs p g m (bindIn a (topFrame bs p) name r) (c.declare name v) := by
  have hglobals := h.globals.elsewhere name r ha.top_ne_globals.symm
  have hnamed : ∀ n, c.globals n = .absent →
      ((bindIn a (topFrame bs p) name r).heap.frame g).find? n = none := by
    intro n hn
    rw [find?_bindIn_of_ne ha.top_ne_globals.symm]
    exact h.named n hn
  have hlt := ha.top_lt
  have hblocks := h.blocks
  cases bs with
  | nil =>
    -- a declaration of the program
    cases hcb : c.blocks with
    | cons scope scopes =>
      rw [hcb] at hblocks
      cases hblocks
    | nil =>
      rw [declare_of_nil hcb]
      refine ⟨h.cells, h.owned, h.old, hcb ▸ .nil, h.program.declare hlt hv, fun n hn hne => ?_,
        hglobals, hnamed⟩
      rw [find?_bindIn_of_ne ha.top_ne_globals.symm]
      refine h.created n (Scope.absent_of_set hn) ?_
      have hself : ((bindIn a p name r).heap.frame p).find? n = _ := find?_bindIn_self hlt n
      by_cases heq : n = name
      · have : c.program.set name (.bound v) n = .absent := hn
        rw [Scope.set, if_pos heq] at this
        cases this
      · rw [if_neg heq] at hself
        exact hself ▸ hne
  | cons b bs =>
    -- a declaration of a block
    cases hcb : c.blocks with
    | nil =>
      rw [hcb] at hblocks
      cases hblocks
    | cons scope scopes =>
      rw [hcb] at hblocks
      cases hblocks with
      | cons hd htl =>
        have hnot := ha.top_not_mem
        have hp : p ≠ b := by
          rintro rfl
          exact hnot (by simp [topFrame])
        rw [declare_of_cons hcb]
        refine ⟨h.cells, h.owned, h.old, .cons ⟨hd.1.declare hlt hv, fun n hn => ?_⟩ ?_,
          h.program.elsewhere name r hp, fun n hn hne => ?_, hglobals, hnamed⟩
        · have hself : ((bindIn a b name r).heap.frame b).find? n = _ := find?_bindIn_self hlt n
          by_cases heq : n = name
          · rw [Scope.set, if_pos heq] at hn
            cases hn
          · rw [if_neg heq] at hself
            exact hself.trans (hd.2 n (Scope.absent_of_set hn))
        · refine forall₂_imp htl fun f hf scope' hcov => ?_
          have hfb : f ≠ b := by
            rintro rfl
            exact hnot (by simp [topFrame, hf])
          exact ⟨hcov.1.elsewhere name r hfb,
            fun n hn => (find?_bindIn_of_ne hfb n).trans (hcov.2 n hn)⟩
        · rw [find?_bindIn_of_ne ha.top_ne_globals.symm]
          have hother : ((bindIn a b name r).heap.frame p).find? n = _ := find?_bindIn_of_ne hp n
          exact h.created n hn (hother ▸ hne)

end

/-! ## Statements -/

/-- The visible frames that grow under a statement. -/
def keptBy (s : Stmt) (stack : Stack) : Stack := if isDeclaration s then stack.tail else stack

/-- The frames around the innermost one grow under every statement. -/
theorem tail_subset_keptBy (s : Stmt) (stack : Stack) : ∀ f ∈ stack.tail, f ∈ keptBy s stack := by
  intro f hf
  unfold keptBy
  cases isDeclaration s with
  | true => exact hf
  | false => exact List.mem_of_mem_tail hf

section
variable (setup : Setup) (d : Dialect) (p g : Nat)

/-- A walk of the analysis covers every execution of a statement. -/
def SimulatesStmt (E : Evaluator) (s : Stmt) : Prop :=
  ∀ fold bs a, Ready (bs ++ [p, g]) a → ∃ r a',
    E.walk fold s (bs ++ [p, g]) setup a = .ok r a' ∧
    Grown p g (keptBy s (bs ++ [p, g])) a a' ∧
    ∀ m c, Covering bs p g m a c → Leads bs p g a' m c (d.exec s) fun _ _ => True

/-- The blocks of the program that open a scope at an offset declare nothing on entry. -/
def EmptyScope (start : Int) : Prop :=
  ∃ main t, setup.programs[0]? = some main ∧ main.hoisting.find? start = some t ∧ t.vars = [] ∧
    t.functions = []

end

section
variable {setup : Setup} {d : Dialect} {p g : Nat} {n : Nat}

/-- Empty statements are covered. -/
theorem simulates_empty {span : Span} :
    SimulatesStmt setup d p g (.ofFuel (n + 1)) (.empty span) := by
  intro fold bs a _
  refine ⟨.empty, a, rfl, .refl a, fun m c hcov => ?_⟩
  rw [Dialect.exec]
  exact .pure hcov trivial

/-- Expression statements are covered if their expressions are. -/
theorem simulates_expression {value : Expr} (hv : Simulates setup d p g (.ofFuel n) value) :
    SimulatesStmt setup d p g (.ofFuel (n + 1)) (.expression value) := by
  intro fold bs a ha
  obtain ⟨r, a₁, heq, hg, hlead⟩ := hv bs a ha
  have hvalue : (Evaluator.ofFuel n).value value (bs ++ [p, g]) setup a = .ok r a₁ :=
    Run.bind_of_ok heq
  refine ⟨_, a₁, Run.bind_of_ok hvalue, hg, fun m c hcov => ?_⟩
  rw [Dialect.exec]
  exact (hlead m c hcov).andThen
    fun m₁ c₁ _ _ hcov₁ _ => .pure hcov₁ trivial

/-- A declaration creates no container and mutates nothing. -/
theorem declare_next (c : Store) (name : String) (v : Val) :
    (c.declare name v).next = c.next ∧ (c.declare name v).cells = c.cells ∧
      (c.declare name v).mutations = c.mutations := by
  cases hcb : c.blocks with
  | nil =>
    rw [declare_of_nil hcb]
    exact ⟨rfl, rfl, rfl⟩
  | cons scope scopes =>
    rw [declare_of_cons hcb]
    exact ⟨rfl, rfl, rfl⟩

/-- What a declaration binds in an execution is bound by the analysis in the innermost frame. -/
theorem Leads.declare {bs : List Nat} {a : State} {m : Chart} {c : Store} {name : String}
    {r : Reference} {v : Val} (h : Covering bs p g m a c) (ha : Ready (bs ++ [p, g]) a)
    (hv : Covers m r v) :
    Leads bs p g (bindIn a (topFrame bs p) name r) m c (modify (·.declare name v) : Exec Unit)
      fun _ _ => True := by
  obtain ⟨hnext, hcells, hmut⟩ := declare_next c name v
  refine .change hmut ⟨Nat.le_of_eq hnext.symm, fun _ _ => rfl, fun x _ _ => ?_⟩ (h.declare ha hv)
    trivial
  rw [hcells]

/-- The analysis binds a declared name in the innermost frame. -/
theorem bind_lexical (bs : List Nat) (p g : Nat) (id : Script.Identifier) (r : Reference)
    (a : State) : (Evaluator.ofFuel (n + 1)).bind .lexical (.leaf (.identifier id)) (.known r)
      (bs ++ [p, g]) setup a = .ok () (bindIn a (topFrame bs p) id.name r) := by
  show (do Run.define (← Run.top (bs ++ [p, g])) id.name (.known r)) setup a = _
  rw [top_eq]
  rfl

/-- A declarator binds its name in the innermost frame. -/
theorem declare_runs {b : Binding} (hb : CoreBinding b)
    (hinit : ∀ e ∈ b.init, Simulates setup d p g (.ofFuel (n + 1)) e) {bs : List Nat} {a : State}
    (ha : Ready (bs ++ [p, g]) a) : ∃ a',
      (Evaluator.ofFuel (n + 1)).declare .lexical (bs ++ [p, g]) b setup a = .ok () a' ∧
      Grown p g (bs ++ [p, g]).tail a a' ∧
      ∀ m c, Covering bs p g m a c → Leads bs p g a' m c (d.declare b) fun _ _ => True := by
  unfold CoreBinding at hb
  split at hb
  · next id init =>
    cases init with
    | none =>
      refine ⟨_, bind_lexical (n := n) bs p g id .undefined a, .declare id.name _ ha,
        fun m c hcov => ?_⟩
      exact .declare hcov ha (.scalar m _ _)
    | some e =>
      obtain ⟨r, a₁, heq, hg, hlead⟩ := hinit e rfl bs a ha
      have ha₁ := ha.grown hg
      refine ⟨_, (Run.bind_of_ok heq).trans (bind_lexical (n := n) bs p g id r a₁),
        (hg.subset fun f hf => List.mem_of_mem_tail hf).trans (.declare id.name r ha₁),
        fun m c hcov => ?_⟩
      exact (hlead m c hcov).bind (.declare id.name r ha₁)
        fun m₁ c₁ v _ hcov₁ hv => .declare hcov₁ ha₁ hv
  · exact hb.elim

/-- Declarators one after another. -/
theorem declareAll_runs {bindings : List Binding} (hb : ∀ b ∈ bindings, CoreBinding b)
    (hinit : ∀ b ∈ bindings, ∀ e ∈ b.init, Simulates setup d p g (.ofFuel (n + 1)) e)
    {bs : List Nat} {a : State} (ha : Ready (bs ++ [p, g]) a) : ∃ a',
      bindings.forM ((Evaluator.ofFuel (n + 1)).declare .lexical (bs ++ [p, g])) setup a =
        .ok () a' ∧
      Grown p g (bs ++ [p, g]).tail a a' ∧
      ∀ m c, Covering bs p g m a c →
        Leads bs p g a' m c (bindings.forM d.declare) fun _ _ => True := by
  induction bindings generalizing a with
  | nil => exact ⟨a, rfl, .refl a, fun m c hcov => .pure hcov trivial⟩
  | cons b bindings ih =>
    obtain ⟨a₁, heq₁, hg₁, hlead₁⟩ :=
      declare_runs (hb b List.mem_cons_self) (hinit b List.mem_cons_self) ha
    obtain ⟨a₂, heq₂, hg₂, hlead₂⟩ := ih (fun b' hb' => hb b' (List.mem_cons_of_mem _ hb'))
      (fun b' hb' => hinit b' (List.mem_cons_of_mem _ hb')) (ha.grown hg₁)
    refine ⟨a₂, (Run.bind_of_ok heq₁).trans heq₂, hg₁.trans hg₂, fun m c hcov => ?_⟩
    exact (hlead₁ m c hcov).bind hg₂ fun m₁ c₁ _ _ hcov₁ _ => hlead₂ m₁ c₁ hcov₁

/-- Lexical declarations are covered if their initializers are. -/
theorem simulates_declareLexical {span : Span} {bindings : List Binding}
    (hb : ∀ b ∈ bindings, CoreBinding b)
    (hinit : ∀ b ∈ bindings, ∀ e ∈ b.init, Simulates setup d p g (.ofFuel (n + 1)) e) :
    SimulatesStmt setup d p g (.ofFuel (n + 2)) (.declareLexical span bindings) := by
  intro fold bs a ha
  obtain ⟨a₁, heq, hg, hlead⟩ := declareAll_runs hb hinit ha
  refine ⟨.empty, a₁, Run.bind_of_ok heq, hg, fun m c hcov => ?_⟩
  rw [Dialect.exec]
  exact hlead m c hcov

/-- A declaration without declarators is covered. -/
theorem simulates_declareNothing {span : Span} :
    SimulatesStmt setup d p g (.ofFuel (n + 1)) (.declareLexical span []) := by
  intro fold bs a _
  refine ⟨.empty, a, rfl, .refl a, fun m c hcov => ?_⟩
  rw [Dialect.exec]
  exact .pure hcov trivial

/-! ## Branches -/

/-- A conditional without `else` is covered, be its test true or not. -/
theorem simulates_ifThen {span : Span} {test : Expr} {yes : Stmt}
    (ht : Simulates setup d p g (.ofFuel n) test)
    (hy : SimulatesStmt setup d p g (.ofFuel n) yes) (hyd : isDeclaration yes = false) :
    SimulatesStmt setup d p g (.ofFuel (n + 1)) (.ifElse span test yes none) := by
  intro fold bs a ha
  obtain ⟨r₁, a₁, heq₁, hg₁, hlead₁⟩ := ht bs a ha
  have ha₁ := ha.grown hg₁
  obtain ⟨r₂, a₂, heq₂, hg₂, hlead₂⟩ := hy fold bs a₁ ha₁
  rw [keptBy, hyd] at hg₂
  have hvisit : (Evaluator.ofFuel n).visit test (bs ++ [p, g]) setup a = .ok () a₁ :=
    Run.bind_of_ok heq₁
  refine ⟨r₂, a₂, (Run.bind_of_ok hvisit).trans (Run.bind_of_ok heq₂), hg₁.trans hg₂,
    fun m c hcov => ?_⟩
  rw [Dialect.exec]
  refine (hlead₁ m c hcov).bind hg₂ fun m₁ c₁ v _ hcov₁ _ => ?_
  cases d.isTrue v with
  | true => exact hlead₂ m₁ c₁ hcov₁
  | false => exact .pure (hcov₁.grown ha₁ hg₂) trivial

/-- Either branch of a conditional is covered. -/
theorem simulates_ifElse {span : Span} {test : Expr} {yes no : Stmt}
    (ht : Simulates setup d p g (.ofFuel n) test)
    (hy : SimulatesStmt setup d p g (.ofFuel n) yes) (hyd : isDeclaration yes = false)
    (hn : SimulatesStmt setup d p g (.ofFuel n) no) (hnd : isDeclaration no = false) :
    SimulatesStmt setup d p g (.ofFuel (n + 1)) (.ifElse span test yes (some no)) := by
  intro fold bs a ha
  obtain ⟨r₁, a₁, heq₁, hg₁, hlead₁⟩ := ht bs a ha
  have ha₁ := ha.grown hg₁
  obtain ⟨r₂, a₂, heq₂, hg₂, hlead₂⟩ := hy fold bs a₁ ha₁
  rw [keptBy, hyd] at hg₂
  have ha₂ := ha₁.grown hg₂
  obtain ⟨r₃, a₃, heq₃, hg₃, hlead₃⟩ := hn fold bs a₂ ha₂
  rw [keptBy, hnd] at hg₃
  have hvisit : (Evaluator.ofFuel n).visit test (bs ++ [p, g]) setup a = .ok () a₁ :=
    Run.bind_of_ok heq₁
  refine ⟨r₂.union r₃, a₃, ?_, hg₁.trans (hg₂.trans hg₃), fun m c hcov => ?_⟩
  · exact (Run.bind_of_ok hvisit).trans ((Run.bind_of_ok heq₂).trans (Run.bind_of_ok heq₃))
  · rw [Dialect.exec]
    refine (hlead₁ m c hcov).bind (hg₂.trans hg₃) fun m₁ c₁ v _ hcov₁ _ => ?_
    cases d.isTrue v with
    | true => exact (hlead₂ m₁ c₁ hcov₁).grown ha₂ hg₃
    | false => exact hlead₃ m₁ c₁ (hcov₁.grown ha₁ hg₂)

/-! ## Blocks -/

/-- Statements one after another. All but the innermost of the visible frames grow. -/
theorem walkAll_runs {E : Evaluator} {body : List Stmt}
    (h : ∀ s ∈ body, SimulatesStmt setup d p g E s) (fold : Bool) (bs : List Nat) {a : State}
    (ha : Ready (bs ++ [p, g]) a) : ∃ r a',
      E.walkAll fold body (bs ++ [p, g]) setup a = .ok r a' ∧
      Grown p g (bs ++ [p, g]).tail a a' ∧
      ∀ m c, Covering bs p g m a c → Leads bs p g a' m c (d.execAll body) fun _ _ => True := by
  unfold Evaluator.walkAll
  generalize Reference.empty = r₀
  induction body generalizing a r₀ with
  | nil =>
    refine ⟨r₀, a, rfl, .refl a, fun m c hcov => ?_⟩
    rw [Dialect.execAll]
    exact .pure hcov trivial
  | cons s body ih =>
    obtain ⟨r₁, a₁, heq₁, hg₁, hlead₁⟩ := h s List.mem_cons_self fold bs a ha
    have hg₁' := hg₁.subset (tail_subset_keptBy s _)
    obtain ⟨r₂, a₂, heq₂, hg₂, hlead₂⟩ :=
      ih (fun s' hs' => h s' (List.mem_cons_of_mem _ hs')) (ha.grown hg₁) (r₀.union r₁)
    refine ⟨r₂, a₂, ?_, hg₁'.trans hg₂, fun m c hcov => ?_⟩
    · have hwalk : (do return r₀.union (← E.walk fold s (bs ++ [p, g])) : Run Reference) setup a =
          .ok (r₀.union r₁) a₁ := Run.bind_of_ok heq₁
      rw [List.foldlM_cons, Run.bind_of_ok hwalk]
      exact heq₂
    · rw [Dialect.execAll]
      exact (hlead₁ m c hcov).bind hg₂ fun m₁ c₁ _ _ hcov₁ _ => hlead₂ m₁ c₁ hcov₁

/-- A new frame binds names to nothing but what is known. -/
theorem Plain.addFrame {a : State} (h : Plain a) :
    Plain { a with heap := (a.heap.addFrame .empty).2 } := by
  refine ⟨h.closures, fun f b hb => ?_, h.unit, h.anchors⟩
  rw [Heap.frame_addFrame] at hb
  split at hb
  · cases hb
  · exact h.known f b hb

/-- A new frame leaves the others alone. -/
theorem Grown.addFrame {stack : Stack} {a : State} (ha : Ready stack a) (hg : g ∈ stack) :
    Grown p g stack a { a with heap := (a.heap.addFrame .empty).2 } := by
  have hsame : ∀ f ∈ stack, (a.heap.addFrame .empty).2.frame f = a.heap.frame f := by
    intro f hf
    rw [Heap.frame_addFrame, if_neg (Nat.ne_of_lt (ha.exist f hf))]
  refine ⟨Plain.addFrame, ?_, fun _ ct hct => ⟨ct, hct, .refl ct⟩, ?_, ?_, ?_, rfl, fun _ hd => hd⟩
  · simp [Heap.addFrame]
  · intro f hf name r hr
    exact ⟨r, by rw [hsame f hf]; exact hr, fun _ hu => hu⟩
  · intro f hf name hn
    exact .inl (by rw [hsame f hf]; exact hn)
  · intro name
    rw [hsame g hg]

/-- A new frame becomes visible. -/
theorem Ready.addFrame {stack : Stack} {a : State} (ha : Ready stack a) :
    Ready (a.heap.frames.size :: stack) { a with heap := (a.heap.addFrame .empty).2 } := by
  refine ⟨ha.plain.addFrame, List.nodup_cons.2 ⟨fun hmem => ?_, ha.nodup⟩, fun f hf => ?_⟩
  · exact Nat.lt_irrefl _ (ha.exist _ hmem)
  · rcases List.mem_cons.1 hf with rfl | hf
    · simp [Heap.addFrame]
    · have hlt := ha.exist f hf
      simp only [Heap.addFrame, Array.size_push]
      omega

/-- Entering a block that declares nothing adds an empty frame. -/
theorem instantiate_eq (setup : Setup) {t : Script.ScopeTemplate} (hv : t.vars = [])
    (hf : t.functions = []) (stack : Stack) (a : State) :
    Run.instantiate t stack setup a =
      .ok (a.heap.frames.size :: stack) { a with heap := (a.heap.addFrame .empty).2 } := by
  have hframe : Run.newFrame .empty setup a =
      .ok a.heap.frames.size { a with heap := (a.heap.addFrame .empty).2 } := rfl
  unfold Run.instantiate
  rw [hv, hf]
  exact Run.bind_of_ok hframe

/-- The template of a scope that declares nothing is found. -/
theorem template_eq {start : Int} (h : EmptyScope setup start) {a : State} (ha : Plain a) :
    ∃ t, Run.template start setup a = .ok t a ∧ t.vars = [] ∧ t.functions = [] := by
  obtain ⟨main, t, hmain, ht, hv, hf⟩ := h
  refine ⟨t, ?_, hv, hf⟩
  unfold Run.template
  rw [Run.read_bind, Run.get_bind, ha.unit, hmain]
  simp only [ht]
  rfl

end

section
variable {bs : List Nat} {p g : Nat} {m : Chart} {a : State} {c : Store} {f : Nat}

/-- A block opens an empty scope, which its empty frame covers. -/
theorem Covering.enter (h : Covering bs p g m a c) (hf : a.heap.frame f = .empty)
    (names : List String) :
    Covering (f :: bs) p g m a { c with blocks := .declaring names :: c.blocks } := by
  refine ⟨h.cells, h.owned, h.old, .cons ⟨fun n v hv => ?_, fun n _ => ?_⟩ h.blocks, h.program,
    h.created, h.globals, h.named⟩
  · unfold Scope.declaring at hv
    split at hv <;> cases hv
  · rw [hf]
    rfl

/-- After a block the scopes around it are covered as before. -/
theorem Covering.leave (h : Covering (f :: bs) p g m a c) :
    Covering bs p g m a { c with blocks := c.blocks.tail } := by
  have hblocks := h.blocks
  cases hcb : c.blocks with
  | nil =>
    rw [hcb] at hblocks
    cases hblocks
  | cons scope scopes =>
    rw [hcb] at hblocks
    cases hblocks with
    | cons _ htl =>
      exact ⟨h.cells, h.owned, h.old, htl, h.program, h.created, h.globals, h.named⟩

/-- What happens in a block happens to the store around it. -/
theorem Leads.inBlock {x : Exec Unit} {scope : Scope}
    (h : Leads (f :: bs) p g a m { c with blocks := scope :: c.blocks } x fun _ _ => True) :
    Leads bs p g a m c (do
      modify fun s => { s with blocks := scope :: s.blocks }
      x
      modify fun s => { s with blocks := s.blocks.tail }) fun _ _ => True := by
  have hb : (do
      modify fun s => { s with blocks := scope :: s.blocks }
      x
      modify fun s => { s with blocks := s.blocks.tail } : Exec Unit) c =
        (x >>= fun _ => modify fun s => { s with blocks := s.blocks.tail })
          { c with blocks := scope :: c.blocks } := rfl
  cases hx : x { c with blocks := scope :: c.blocks } with
  | ok v c₁ =>
    have hrep := h.reported
    rw [endOf_of_ok hx] at hrep
    obtain ⟨m', hl, hcov, _⟩ := h.ends v c₁ hx
    have hleave := hb.trans (bind_ok hx)
    exact .of_ok hleave hrep ⟨m', ⟨hl.next, hl.same, hl.kept⟩, hcov.leave, trivial⟩
  | error e c₁ =>
    have hrep := h.reported
    rw [endOf, hx] at hrep
    refine ⟨?_, fun v c' heq => ?_⟩
    · rw [endOf, hb, bind_error hx]
      exact hrep
    · rw [hb, bind_error hx] at heq
      cases heq

end

section
variable {setup : Setup} {d : Dialect} {p g : Nat} {n : Nat}

/-- Blocks that declare nothing on entry are covered if their statements are. -/
theorem simulates_block (hcancel : setup.canceled = false) {span : Span} {body : List Stmt}
    (hscope : EmptyScope setup span.start)
    (h : ∀ s ∈ body, SimulatesStmt setup d p g (.ofFuel n) s) :
    SimulatesStmt setup d p g (.ofFuel (n + 1)) (.block (.mk span body)) := by
  intro fold bs a ha
  obtain ⟨t, htemplate, hv, hf⟩ := template_eq hscope ha.plain
  obtain ⟨a₁, hlog, hnotes⟩ := Run.log_eq setup .debug (fun _ => ("Entering block",
    [("block", .ofInt span.start), ("frames", .ofNat (bs ++ [p, g]).length),
     ("vars", .ofNat t.vars.length), ("funcs", .ofNat t.functions.length)])) a
  have hg₁ : Grown p g (bs ++ [p, g]) a a₁ := .of_notes hnotes
  have ha₁ := ha.grown hg₁
  have hinst := instantiate_eq setup hv hf (bs ++ [p, g]) a₁
  have hg₂ : Grown p g (bs ++ [p, g]) a₁ _ := .addFrame ha₁ (by simp)
  have hframe : (a₁.heap.addFrame .empty).2.frame a₁.heap.frames.size = .empty := by
    rw [Heap.frame_addFrame, if_pos rfl]
  obtain ⟨r, a₃, hwalk, hg₃, hlead⟩ := walkAll_runs h fold (a₁.heap.frames.size :: bs) ha₁.addFrame
  refine ⟨r, a₃, ?_, hg₁.trans (hg₂.trans hg₃), fun m c hcov => ?_⟩
  · have hcheck : Run.checkCanceled setup a = .ok () a := by
      unfold Run.checkCanceled
      rw [Run.read_bind, hcancel]
      rfl
    refine (Run.bind_of_ok hcheck).trans ((Run.bind_of_ok htemplate).trans ?_)
    exact (Run.bind_of_ok hlog).trans ((Run.bind_of_ok hinst).trans hwalk)
  · rw [Dialect.exec]
    refine .inBlock (hlead m _ ?_)
    exact ((hcov.grown ha hg₁).grown ha₁ hg₂).enter hframe _

/-- An analysis with levels enough covers every execution of a statement of the core. -/
theorem CoreStmt.simulates (hcancel : setup.canceled = false) {s : Stmt} (h : CoreStmt s)
    (hscope : ∀ start, (Node.stmt s).Opens start → EmptyScope setup start)
    (hn : (Node.stmt s).height ≤ n) : SimulatesStmt setup d p g (.ofFuel n) s := by
  have hstep : ∀ {s : Stmt}, (∀ n, (Node.stmt s).height ≤ n + 1 →
      SimulatesStmt setup d p g (.ofFuel (n + 1)) s) →
      ∀ n, (Node.stmt s).height ≤ n → SimulatesStmt setup d p g (.ofFuel n) s := by
    intro s hsim n hn
    cases n with
    | zero => exact absurd hn (Nat.not_le_of_gt (Node.height_pos _))
    | succ n => exact hsim n hn
  have hchild : ∀ {s : Stmt} {c : Node} {n : Nat}, (Node.stmt s).height ≤ n + 1 →
      c ∈ s.children → c.height ≤ n := by
    intro s c n hn hc
    have hlt := Node.height_lt_of_mem_children (n := .stmt s) hc
    omega
  induction h generalizing n with
  | @block span body _ ih =>
    refine hstep (fun n hn => ?_) n hn
    refine simulates_block hcancel (hscope span.start (.here rfl)) fun s hs => ?_
    refine ih s hs (fun start ho => hscope start (.inside ?_ ho))
      (hchild hn (by simpa [Stmt.children] using hs))
    simpa [Node.hoistStep, HoistStep.parts, HoistStep.block, Block.body] using hs
  | expression hv =>
    refine hstep (fun n hn => simulates_expression (hv.simulates ?_)) n hn
    exact hchild hn (by simp [Stmt.children])
  | @declareLexical span bindings hb =>
    refine hstep (fun n hn => ?_) n hn
    cases bindings with
    | nil => exact simulates_declareNothing
    | cons b₀ bindings =>
      have hbinding : ∀ b ∈ b₀ :: bindings, ∀ c ∈ (Node.binding b).children, c.height < n := by
        intro b hmem c hc
        have hle : (Node.binding b).height ≤ n :=
          hchild hn (by simpa [Stmt.children] using hmem)
        exact Nat.lt_of_lt_of_le (Node.height_lt_of_mem_children hc) hle
      obtain ⟨k, rfl⟩ : ∃ k, n = k + 1 := by
        obtain ⟨target, init⟩ := b₀
        have := hbinding (.mk target init) List.mem_cons_self (.ofPattern target)
          (by simp [Node.children])
        exact ⟨n - 1, by omega⟩
      refine simulates_declareLexical hb fun b hmem e he => ?_
      refine ((hb b hmem).core e he).simulates (Nat.le_of_lt (hbinding b hmem _ ?_))
      obtain ⟨target, init⟩ := b
      simpa [Node.children, Binding.init] using .inr he
  | ifThen ht _ hyd ih =>
    refine hstep (fun n hn => ?_) n hn
    refine simulates_ifThen (ht.simulates (hchild hn (by simp [Stmt.children])))
      (ih (fun start ho => hscope start (.inside ?_ ho)) (hchild hn (by simp [Stmt.children]))) hyd
    simp [Node.hoistStep, HoistStep.parts, HoistStep.through, Node.children, Stmt.children]
  | ifElse ht _ hyd _ hnd ih₁ ih₂ =>
    refine hstep (fun n hn => ?_) n hn
    refine simulates_ifElse (ht.simulates (hchild hn (by simp [Stmt.children])))
      (ih₁ (fun start ho => hscope start (.inside ?_ ho)) (hchild hn (by simp [Stmt.children])))
      hyd
      (ih₂ (fun start ho => hscope start (.inside ?_ ho)) (hchild hn (by simp [Stmt.children])))
      hnd
    · simp [Node.hoistStep, HoistStep.parts, HoistStep.through, Node.children, Stmt.children]
    · simp [Node.hoistStep, HoistStep.parts, HoistStep.through, Node.children, Stmt.children]
  | empty => exact hstep (fun n _ => simulates_empty) n hn

end

end FrozenGlobals.Execution
