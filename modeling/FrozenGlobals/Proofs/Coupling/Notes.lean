import FrozenGlobals.Proofs.Coupling.Reports

/-!
# What is noted has no influence

An analysis notes diagnostics, warnings and log entries, and nothing it does depends on what it has
noted. Two analyses that differ in their notes only, and in the settings of what is noted, match
value by value: `Notes.lawful`. `Setup.analyze_noting` says what that means for reports.
-/

namespace FrozenGlobals

open Run
open Script (Stmt)

/-- Setups that differ in the settings of what is noted only. -/
structure Setup.Alike (A B : Setup) : Prop where
  programs : B.programs = A.programs
  graph : B.graph = A.graph
  resolver : B.resolver = A.resolver
  canceled : B.canceled = A.canceled
  maxCallDepth : B.options.maxCallDepth = A.options.maxCallDepth
  strict : B.options.strict = A.options.strict

/-- How the diagnostics and warnings that two analyses have noted may differ. -/
structure Notes (A B : Setup) where
  diagnostics : Array Diagnostic → Array Diagnostic → Prop
  warnings : Array String → Array String → Prop
  report : ∀ {ds ds'} (d : Diagnostic), diagnostics ds ds' → diagnostics (ds.push d) (ds'.push d)
  warn : ∀ {ws ws'} (message : String), warnings ws ws' →
    warnings (if A.options.warnings then ws.push message else ws)
      (if B.options.warnings then ws'.push message else ws')

namespace Notes

variable {A B : Setup} (N : Notes A B)

/-- Contents that differ in what was noted only. -/
structure Differ (c c' : Content) : Prop where
  heap : c'.heap = c.heap
  provenance : c'.provenance = c.provenance
  known : c'.known = c.known
  thrown : c'.thrown = c.thrown
  diagnostics : N.diagnostics c.diagnostics c'.diagnostics
  warnings : N.warnings c.warnings c'.warnings

/-- Analyses that differ in what was noted only. -/
def matching : Matching A B where
  empties _ _ := false
  value v v' := v' = v
  content := N.Differ
  exact := True
  hides _ := False
  clear _ _ := True

variable {N}

theorem same : N.matching.Same := fun _ _ => Iff.rfl

theorem operands_iff {o o' : Operand} : N.matching.coupling.Operands () o o' ↔ o' = o :=
  Matching.operands_iff_of_same same

theorem closure_emptied (fn : Closure) : fn.emptied (fun _ _ => false) = fn := by
  obtain ⟨name, code, scope, accessor⟩ := fn
  cases code <;> simp [Closure.emptied, Script.Function.pruned_full Script.Pruning.full_emptying]

/-- The same change of both heaps. -/
theorem Differ.changeHeap {c c' : Content} (h : N.Differ c c') (f : Heap → Heap) :
    N.Differ { c with heap := f c.heap } { c' with heap := f c'.heap } :=
  { h with heap := congrArg f h.heap }

/-- Globals are converted alike. -/
theorem couples_newGlobals (hsetup : A.Alike B) {u : Nat} {w : N.matching.coupling.Stage}
    (root : Host.Datum) :
    N.matching.coupling.Couples u w (newGlobals root) (newGlobals root) fun _ f f' => f' = f := by
  refine ⟨fun w₁ _ s t ⟨hc, hp⟩ hu => ?_⟩
  have hconversion : t.conversion = s.conversion := by
    unfold State.conversion
    rw [show t.heap = s.heap from hc.heap, show t.provenance = s.provenance from hc.provenance,
      show t.known = s.known from hc.known]
  rw [newGlobals_eq, newGlobals_eq, hsetup.graph, hconversion]
  cases A.graph.globals root with
  | error fault => exact rfl
  | ok entries =>
    exact ⟨(), trivial,
      ⟨{ hc with heap := rfl, provenance := rfl, known := rfl }, { hp with }⟩, hu, rfl⟩

/-- Analyses that are set up alike match. -/
theorem lawful (hsetup : A.Alike B) : N.matching.Lawful where
  maxCallDepth := hsetup.maxCallDepth
  strict := hsetup.strict
  canceled := hsetup.canceled
  resolver := hsetup.resolver
  external _ :=
    { ref := same.refs_iff.1
      provenance := fun h => h.1.provenance
      request := fun path => Matching.Lawful.change fun s t hc hp hu => ⟨(), _, (), _, rfl, rfl, hc,
        { hp with requests := congrArg (·.push path) hp.requests }, hu, trivial⟩
      anchored := fun span h => Matching.Lawful.couples_anchored span h
      newGlobals := fun root => (couples_newGlobals hsetup root).imp
        fun _ f f' _ hf v p hp => ⟨by rw [hf], trivial⟩ }
  programs u := by
    rw [hsetup.programs]
    refine rel_self (fun p => ⟨?_, fun _ _ _ _ => rel_self (fun t => ⟨?_, fun _ _ => trivial⟩) _⟩) _
    · exact (List.map_id'' (fun s => s.pruned_full Script.Pruning.full_emptying) _).symm
    · exact (t.pruned_full Script.Pruning.full_emptying).symm
  kind {v v'} h := by
    obtain rfl : v' = v := h
    rfl
  native h _ := h
  primitive _ := rfl
  intrinsic _ := rfl
  builtin _ := rfl
  unique {v v' u u'} h h' := by
    obtain rfl : v' = v := h
    obtain rfl : u' = u := h'
    rfl
  part _ _ := trivial
  literal _ := trivial
  params _ := trivial
  body _ := trivial
  identifier _ h := h
  thrown h := same.refs_iff.2 h.thrown
  object {c c' id id'} h hv := by
    cases hv
    rw [h.heap]
    exact same.cells_iff.2 rfl
  array {c c' id id'} h hv := by
    cases hv
    rw [h.heap]
    exact ⟨same.refs_iff.2 rfl, rfl⟩
  closure {c c' id id'} h hv := by
    cases hv
    rw [h.heap]
    exact rel_self (fun fn => Naming.closures_iff.2
      ⟨(closure_emptied fn).symm, fun _ _ => trivial⟩) _
  binding {c c' f name} h _ := by
    rw [h.heap]
    exact rel_self (fun _ => operands_iff.2 rfl) _
  path {c c' v v'} h hv := by
    obtain rfl : v' = v := hv
    rw [h.provenance]
    exact ⟨rfl, fun _ => rfl⟩
  flatten {c c' r r'} h hr := by
    rw [h.heap, same.refs_iff.1 hr]
    exact same.refs_iff.2 rfl
  throws {c c' r r'} h hr := by
    obtain rfl := same.refs_iff.1 hr
    exact { h with thrown := congrArg (·.union r') h.thrown }
  report {c c' d d'} h _ hd := by
    obtain rfl := hd trivial
    exact { h with diagnostics := N.report d' h.diagnostics }
  warn message h := { h with warnings := N.warn message h.warnings }
  write {c c' v v' r r'} k h hv hr := by
    obtain rfl : v' = v := hv
    obtain rfl := same.refs_iff.1 hr
    exact h.changeHeap (·.setKeyOf k r' v')
  newObject {c c' o o'} h ho := by
    obtain rfl := same.cells_iff.1 ho
    exact ⟨congrArg (fun heap : Heap => (heap.addObject o').1) h.heap,
      h.changeHeap fun heap => (heap.addObject o').2⟩
  newArray {c c' r r'} h hr := by
    obtain rfl := same.refs_iff.1 hr
    exact ⟨congrArg (fun heap : Heap => (heap.addArray r').1) h.heap,
      h.changeHeap fun heap => (heap.addArray r').2⟩
  newFrame f h _ := ⟨congrArg (fun heap : Heap => (heap.addFrame f).1) h.heap,
    h.changeHeap fun heap => (heap.addFrame f).2⟩
  newClosure {c c' fn fn'} h hfn := by
    obtain rfl : fn' = fn := (Naming.closures_iff.1 hfn).1.trans (closure_emptied fn)
    exact ⟨congrArg (fun heap : Heap => (heap.addClosure fn').1) h.heap,
      h.changeHeap fun heap => (heap.addClosure fn').2⟩
  mark {c c' id id'} a h hv := by
    cases hv
    exact h.changeHeap (·.markAccessor id a)
  define {c c' o o'} f name h ho := by
    obtain rfl := operands_iff.1 ho
    exact h.changeHeap (·.define f name o')

end Notes

/-! ## Settings -/

/-- The warnings that are kept of all that there are. -/
def Options.kept (o : Options) (warnings : Array String) : Array String :=
  if o.warnings then warnings else #[]

theorem Options.kept_push (o : Options) (warnings : Array String) (message : String) :
    (if o.warnings then (o.kept warnings).push message else o.kept warnings) =
      o.kept (warnings.push message) := by
  unfold kept
  split <;> rfl

namespace Setup

/-- The setup with other settings of what is noted. -/
def noting (setup : Setup) (warnings : Bool) (logLevel : Option Log.Level)
    (logger : Option Log.Logger) (logLimit : Int) : Setup :=
  { setup with options := { setup.options with warnings, logLevel, logger, logLimit } }

/-- Two analyses have the same diagnostics, and keep what they keep of the same warnings. -/
def notes (A B : Setup) : Notes A B where
  diagnostics ds ds' := ds' = ds
  warnings ws ws' := ∃ all, ws = A.options.kept all ∧ ws' = B.options.kept all
  report d h := by rw [h]
  warn {ws ws'} message h := by
    obtain ⟨all, rfl, rfl⟩ := h
    exact ⟨all.push message, A.options.kept_push .., B.options.kept_push ..⟩

/-- Settings of what is noted have no influence: with any of them, whatever a logger makes of the
entries that it is handed, the analysis ends with the same failure or with the same diagnostics.
There are no warnings if they are not kept, and otherwise they do not depend on what is logged. -/
theorem analyze_noting (setup : Setup) (warnings : Bool) (logLevel : Option Log.Level)
    (logger : Option Log.Logger) (logLimit : Int) (globals : Host.Datum) :
    let noting := setup.noting warnings logLevel logger logLimit
    (∃ f, (setup.analyze globals).1 = .error f ∧ (noting.analyze globals).1 = .error f) ∨
    ∃ r r', (setup.analyze globals).1 = .ok r ∧ (noting.analyze globals).1 = .ok r' ∧
      r'.diagnostics = r.diagnostics ∧
      (setup.options.warnings = false → r.warnings = []) ∧ (warnings = false → r'.warnings = []) ∧
      (warnings = setup.options.warnings → r'.warnings = r.warnings) := by
  intro noting
  have halike : setup.Alike noting := ⟨rfl, rfl, rfl, rfl, rfl, rfl⟩
  have hlawful : (setup.notes noting).matching.Lawful := Notes.lawful halike
  have hstart : (setup.notes noting).Differ State.start.content State.start.content :=
    ⟨rfl, rfl, rfl, rfl, rfl, #[], (ite_self _).symm, (ite_self _).symm⟩
  have hroot := (Notes.couples_newGlobals (N := setup.notes noting) halike (u := 0) (w := ())
    globals).run () trivial .start .start ⟨hstart, .rfl⟩ rfl
  have hfuel : noting.fuel = setup.fuel := rfl
  rw [analyze_eq, analyze_eq, hfuel]
  rcases hlawful.ends (n := setup.fuel) hroot fun _ _ => trivial with
    ⟨f, h, h'⟩ | ⟨c, c', hc, h, h'⟩
  · exact .inl ⟨f, h, h'⟩
  · have hdiagnostics : c'.diagnostics = c.diagnostics := hc.diagnostics
    have hreported : c'.report.diagnostics = c.report.diagnostics := by
      unfold Content.report
      rw [hdiagnostics]
    obtain ⟨all, hkept, hkept'⟩ := hc.warnings
    refine .inr ⟨_, _, h, h', hreported, fun hoff => ?_, fun hoff => ?_, fun heq => ?_⟩
    · show c.warnings.toList = []
      rw [hkept, Options.kept, hoff]
      rfl
    · show c'.warnings.toList = []
      rw [hkept', Options.kept, show noting.options.warnings = false from hoff]
      rfl
    · show c'.warnings.toList = c.warnings.toList
      rw [hkept, hkept', Options.kept, Options.kept,
        show noting.options.warnings = setup.options.warnings from heq]

end Setup

/-- The program `with (g) { g.x = 1; }`. The global `g` is an empty object. -/
def writeInWith : Setup where
  options := Options.standard
  programs := #[.ofProgram ⟨"script", "with (g) \x7b g.x = 1; \x7d",
    [.withObject ⟨0, 21⟩ (.identifier ⟨"g", ⟨6, 7⟩⟩) (.block (.mk ⟨9, 21⟩
      [.expression (.assign ⟨11, 18⟩ .plain
        (.leaf (.dot ⟨11, 14⟩ (.identifier ⟨"g", ⟨11, 12⟩⟩) "x"))
        (.number ⟨17, 18⟩ (some (.ofNat 1))))]))]⟩]
  graph := emptyGlobal
  resolver := none
  canceled := false

/-- Without warnings, and with a logger that keeps what it was handed last, the analysis of
`writeInWith` reports what it reports otherwise. -/
theorem analyze_noting_writeInWith :
    let noting := writeInWith.noting false none (some ⟨fun _ e => #[e]⟩) 0
    ∃ r r', (writeInWith.analyze (.container 0)).1 = .ok r ∧
      (noting.analyze (.container 0)).1 = .ok r' ∧
      r'.diagnostics = r.diagnostics ∧ r.diagnostics.length = 1 ∧
      r.warnings.length = 1 ∧ r'.warnings = [] ∧
      (writeInWith.analyze (.container 0)).2.log = #[] ∧
      (noting.analyze (.container 0)).2.log.map (·.message) = #["Analysis complete"] := by
  intro noting
  have hreport : ((writeInWith.analyze (.container 0)).1.toOption.map fun r =>
      (r.diagnostics.length, r.warnings.length)) = some (1, 1) := by decide +kernel
  rcases Setup.analyze_noting writeInWith false none (some ⟨fun _ e => #[e]⟩) 0 (.container 0) with
    ⟨f, h, -⟩ | ⟨r, r', h, h', hdiagnostics, -, hoff, -⟩
  · rw [h] at hreport
    cases hreport
  · rw [h] at hreport
    have hlengths := Option.some.inj hreport
    exact ⟨r, r', h, h', hdiagnostics, congrArg Prod.fst hlengths, congrArg Prod.snd hlengths,
      hoff rfl, by decide +kernel, by decide +kernel⟩

end FrozenGlobals
