import FrozenGlobals.Proofs.Discipline.Audit

/-!
# Analyses end

The levels of recursion an evaluation is given are never what ends it, as long as external code
makes no calls at its top level; `Setup.Terminates` says what that means.

What is left to be done falls in three ways. Inside a function it is the height of the syntax. A
call of a function is counted, so `Setup.left` falls. Native methods call back without being
counted, but what they pass on shrinks (`CallSite.rank`), so there are few such calls in a row.
External code is not counted either. Without calls at its top level it is left again, or a function
is called, before more external code is reached, so runs of external code are no more than calls,
and one.

`echo` is external code that calls itself at its top level. Its analysis does not end.
-/

namespace FrozenGlobals

open Run Discipline
open Script (Span Node)

/-! ## What an evaluation can come to -/

namespace Setup

/-- The programs that the resolver names are there. -/
def Complete (setup : Setup) : Prop := ∀ u, setup.Implements u → setup.programs[u]?.isSome

/-- What analyses may fail with. Blocks without templates are reached only through parameters that
are passed over. -/
def Fails (setup : Setup) (f : Failure) : Prop :=
  f.Expected setup ∨ setup.options.strict = false ∧ ∃ start, f = .internal (.noScope start)

/-- Where a failure comes from does not change what kind it is. -/
theorem Fails.within {setup : Setup} {f : Failure} (h : setup.Fails f) (path : String) :
    setup.Fails (f.within path) := by
  rcases h with h | ⟨hstrict, start, rfl⟩
  · left
    cases f with
    | internal fault => exact h
    | outOfFuel => exact h
    | _ => exact h
  · exact .inr ⟨hstrict, start, rfl⟩

end Setup

/-- Calls are not followed beyond the limit. -/
structure State.Limited (setup : Setup) (s s' : State) : Prop where
  position : s'.position = s.position
  calls : setup.callLevels ≤ s.depth → s'.calls = s.calls

/-- A call that ends is followed within the limit. -/
theorem State.Limited.returned {setup : Setup} {s s' : State} {key : FunctionKey}
    (hd : s.depth < setup.callLevels) (h : (s.called key).Limited setup s') :
    s.Limited setup (s'.returned key) := by
  refine ⟨?_, fun hle => absurd hd (Nat.not_lt_of_le hle)⟩
  have hp : s'.position = ⟨s.unit, s.depth + 1, s.anchors⟩ := h.position
  simp only [State.position, State.returned, Position.mk.injEq] at hp ⊢
  exact ⟨hp.1, by omega, hp.2.2⟩

/-- Code of the programs runs until it ends or fails for a cause. -/
def Discipline.ending {setup : Setup} (hc : setup.Complete) : Discipline setup where
  inv s := s.Coded setup ∧ setup.programs[s.unit]?.isSome
  le := State.Limited setup
  fails := setup.Fails
  lost _ := False
  scope stack := 2 ≤ stack.length
  code := setup.HasFunction
  unit u := setup.programs[u]?.isSome
  enters u start := setup.options.strict = true → ∀ prepared, setup.programs[u]? = some prepared →
    (prepared.hoisting.find? start).isSome
  refl s := ⟨rfl, fun _ => rfl⟩
  trans {s₁ s₂ s₃} h h' := by
    have hdepth : s₂.depth = s₁.depth := congrArg Position.depth h.position
    refine ⟨h'.position.trans h.position, fun hd => (h'.calls ?_).trans (h.calls hd)⟩
    rw [hdepth]
    exact hd
  position h := h.position
  change {s s'} hs h := by
    have hunit : s'.unit = s.unit := congrArg Position.unit h.position
    refine ⟨⟨hs.1.change h, ?_⟩, h.position, fun _ => ?_⟩
    · rw [hunit]
      exact hs.2
    · cases h <;> rfl
  inUnit {s u} hs hu := by
    refine ⟨⟨hs.1, hu⟩, fun {s'} hs' h => ⟨⟨hs'.1, hs.2⟩, ?_, h.calls⟩⟩
    have hp : s'.position = ⟨u, s.depth, s.anchors⟩ := h.position
    simp only [State.position, Position.mk.injEq] at hp ⊢
    exact ⟨trivial, hp.2⟩
  closure hs h := hs.1 _ _ h
  push := @Stack.two_le_cons
  framed h := .inl h
  root _ _ prepared _ := by
    rw [prepared.hoisting_eq]
    exact prepared.program.find?_root_isSome
  opens {u prepared start} hu he := by
    cases hstrict : setup.options.strict with
    | true => exact .inl (he hstrict prepared hu)
    | false => exact .inr (.inr ⟨hstrict, start, rfl⟩)
  hoisted _ hu ht hfn := Setup.hasFunction_of_hoisted hu ht hfn
  runnable h := h.isSome
  external h := hc _ h
  missing {s} hs h := by
    have := hs.2
    rw [h] at this
    cases this
  expected h := .inl h
  fails_within path h := h.within path
  lost_within _ h := h

instance {setup : Setup} (hc : setup.Complete) : (Discipline.ending hc).Alone :=
  ⟨rfl, fun _ _ _ => id, fun _ => id⟩

instance {setup : Setup} (hc : setup.Complete) : (Discipline.ending hc).Counting :=
  ⟨fun _ hs hd => ⟨⟨hs.1, hs.2⟩, fun hs' h => ⟨⟨hs'.1, hs'.2⟩, h.returned hd⟩⟩⟩

/-! ## What is left to be done -/

/-- Nothing in a node is a call, other than in functions. -/
def Script.Node.CallFree (n : Node) : Prop :=
  ∀ span callee args, ¬ n.Within (.expr (.call span callee args))

/-- What is run with a node that makes no calls makes none. -/
theorem Script.Node.CallFree.within {n c : Node} (h : n.CallFree) (hc : n.Within c) : c.CallFree :=
  fun span callee args hcall => h span callee args (hc.trans hcall)

namespace Setup

/-- External code makes no calls at its top level. -/
def Quiet (setup : Setup) : Prop :=
  ∀ u prepared s, setup.Implements u → setup.programs[u]? = some prepared →
    s ∈ prepared.program.body → (Node.stmt s).CallFree

/-- How many more calls and runs of external code may be nested. -/
def left (setup : Setup) (p : Position) : Nat :=
  (setup.callLevels - p.depth) +
    if setup.resolver.isSome then setup.callLevels + 1 - p.anchors.length else 0

/-- The levels of recursion that calls and runs of external code may still need. -/
def levels (setup : Setup) (p : Position) : Nat := setup.left p * (setup.height + 16)

variable {setup : Setup} {p : Position}

/-- A call uses up some of the levels that are left. -/
theorem levels_called (hd : p.depth < setup.callLevels) (u : Nat) :
    setup.levels (p.called u) + (setup.height + 16) = setup.levels p := by
  have hleft : setup.left p = setup.left (p.called u) + 1 := by
    unfold left Position.called
    dsimp only
    split <;> omega
  rw [levels, levels, hleft, Nat.add_mul, Nat.one_mul]

/-- A run of external code uses up some of the levels that are left. -/
theorem levels_anchored (hr : setup.resolver.isSome) (hd : p.anchors.length ≤ setup.callLevels)
    (span : Span) (u : Nat) :
    setup.levels { p.anchored span with unit := u } + (setup.height + 16) = setup.levels p := by
  have hleft : setup.left p = setup.left { p.anchored span with unit := u } + 1 := by
    unfold left Position.anchored
    rw [if_pos hr, if_pos hr]
    simp only [List.length_cons]
    omega
  rw [levels, levels, hleft, Nat.add_mul, Nat.one_mul]

end Setup

/-- What may be evaluated with a number of levels. Calls are made under no more runs of external
code than counted calls. -/
def Licence.upTo (setup : Setup) (n : Nat) : Licence where
  node p nd := setup.HasNode p.unit nd ∧ p.depth ≤ setup.callLevels ∧
    (p.anchors.length ≤ p.depth ∨ p.anchors.length ≤ p.depth + 1 ∧ nd.CallFree) ∧
    setup.levels p + nd.height + 5 ≤ n
  call p v c := p.depth ≤ setup.callLevels ∧ p.anchors.length ≤ p.depth + 1 ∧
    (setup.levels p + c.rank + 2 ≤ n ∨ v.kind = .primitive ∧ setup.levels p + 1 ≤ n)

namespace Licence

variable {setup : Setup} {n : Nat} {p : Position}

/-- What is within a node takes no more than the node. -/
theorem covers_upTo {nd : Node} (h : (upTo setup n).node p nd) : (upTo setup n).Covers p nd := by
  obtain ⟨hnode, hd, ha, hn⟩ := h
  refine fun c hc => ⟨hnode.within hc, hd, ha.imp_right fun h => ⟨h.1, h.2.within hc⟩, ?_⟩
  have := hc.height_le
  omega

/-- Calls may be followed into quiet external code while levels are left. -/
theorem follows_upTo (hc : setup.Complete) (hq : setup.Quiet) (hr : setup.resolver.isSome)
    (hd : p.depth ≤ setup.callLevels) (ha : p.anchors.length ≤ p.depth)
    (hn : setup.levels p ≤ n) (span : Span) :
    (upTo setup n).Follows (Discipline.ending hc) p span where
  program _ _ := Nat.le_refl 2
  anchor s hs _ := by
    refine ⟨hs, fun {s'} hs' h => ⟨hs', ?_, h.calls⟩⟩
    have hp : s'.position = ⟨s.unit, s.depth, p.anchor span :: s.anchors⟩ := h.position
    simp only [State.position, Position.mk.injEq] at hp ⊢
    exact ⟨hp.1, hp.2.1, trivial⟩
  implement {u prepared s} hu hprepared hs := by
    have hlevels := Setup.levels_anchored hr (Nat.le_trans ha hd) span u
    have hnode := Setup.hasNode_stmt hprepared hs
    have hheight := hnode.height_le
    refine covers_upTo ⟨hnode, hd, .inr ⟨?_, hq u prepared s hu hprepared hs⟩, by omega⟩
    simpa [Position.anchored] using ha
  handler v c := by
    have hlevels := Setup.levels_anchored hr (Nat.le_trans ha hd) span p.unit
    have hrank := c.rank_le
    have hsame : ({ p.anchored span with unit := p.unit } : Position) = p.anchored span := rfl
    rw [hsame] at hlevels
    refine ⟨hd, ?_, .inl (by omega)⟩
    simpa [Position.anchored] using ha

/-- What a node asks for takes fewer levels than the node. -/
theorem lifts_upTo (hc : setup.Complete) (hq : setup.Quiet) (n : Nat) :
    (upTo setup (n + 1)).Lifts (upTo setup n) (Discipline.ending hc) where
  opens h ho hstrict prepared hu := h.1.find?_isSome hstrict ho hu
  part {p nd c} h hmem := by
    obtain ⟨hnode, hd, ha, hn⟩ := h
    have hwithin : nd.Within c := .of_part hmem (.refl c)
    have hheight := Node.height_lt_of_mem_children (Node.mem_children_of_mem_parts hmem)
    refine covers_upTo ⟨hnode.within hwithin, hd, ?_, by omega⟩
    exact ha.imp_right fun h => ⟨h.1, h.2.within hwithin⟩
  place _ _ := trivial
  site _ := .inr trivial
  call {p nd v c} h _ := by
    obtain ⟨_, hd, ha, hn⟩ := h
    have hrank := c.rank_le
    have hheight := nd.height_pos
    exact ⟨hd, by omega, .inl (by omega)⟩
  function h := h.1.function
  native {p b c} h v c' _ hpass := by
    obtain ⟨hd, ha, hn⟩ := h
    have hn : setup.levels p + c.rank + 2 ≤ n + 1 := hn.resolve_right nofun
    refine ⟨hd, ha, ?_⟩
    rcases hpass with hrank | hprim
    · exact .inl (by omega)
    · exact .inr ⟨hprim, by omega⟩
  enter {p id c} h := by
    intro u fn nd hcode hlt hmem
    obtain ⟨_, ha, hn⟩ := h
    have hn : setup.levels p + c.rank + 2 ≤ n + 1 := hn.resolve_right nofun
    have hlevels := Setup.levels_called hlt u
    have hnode := hcode nd hmem
    have hheight := hnode.height_le
    exact covers_upTo ⟨hnode, hlt, .inl ha, by omega⟩
  follow {p span callee args} hr h := by
    obtain ⟨_, hd, ha, hn⟩ := h
    have ha : p.anchors.length ≤ p.depth :=
      ha.resolve_right fun h => h.2 span callee args (.refl _)
    exact follows_upTo hc hq hr hd ha (by omega) span

end Licence

/-! ## Evaluations -/

/-- With levels enough, more of them and an audit make no difference. -/
theorem Evaluator.agrees_ending {setup : Setup} (hc : setup.Complete) (hq : setup.Quiet)
    {ok : State → State → Prop} [DecidableRel ok] (hok : ∀ s s', s.depth ≤ setup.callLevels →
      s.anchors.length ≤ s.depth + 1 → s.Limited setup s' → ok s s') {n m : Nat} (h : n ≤ m) :
    Agrees (Discipline.ending hc) (Licence.upTo setup n) (ofFuel n) (audited ok m) := by
  have hposition : ∀ {p : Position} {s s' : State}, p.depth ≤ setup.callLevels →
      p.anchors.length ≤ p.depth + 1 → s.position = p → s.Limited setup s' → ok s s' := by
    rintro p s s' hd ha rfl hle
    exact hok s s' hd ha hle
  induction n generalizing m with
  | zero =>
    have hnode : ∀ {p nd}, ¬ (Licence.upTo setup 0).node p nd := fun h => by
      have := h.2.2.2
      omega
    have hcall : ∀ {p v c}, ¬ (Licence.upTo setup 0).call p v c := fun h => by
      have := h.2.2
      omega
    exact ⟨fun h => absurd h hnode, fun _ h => absurd h hnode, fun _ _ h => absurd h hnode,
      fun _ h => absurd h hnode, fun h => absurd h hcall⟩
  | succ n ih =>
    obtain ⟨m, rfl⟩ : ∃ k, m = k + 1 := ⟨m - 1, by omega⟩
    refine ((ih (Nat.le_of_succ_le_succ h)).step (Licence.lifts_upTo hc hq n)).auditing ?_ ?_
    · intro p nd s s' hn _ hp _ hle
      obtain ⟨_, hd, ha, _⟩ := hn
      exact hposition hd (by omega) hp hle
    · intro p v c s s' hn _ hp _ hle
      exact hposition hn.1 hn.2.1 hp hle

namespace Setup

/-- An analysis ends by itself: the bounds on levels are never what ends it, and more of them make
no difference, nor do audits. -/
structure Terminates (setup : Setup) (globals : Host.Datum) (ok : State → State → Prop)
    [DecidableRel ok] : Prop where
  converts : ∀ c path d, Host.Conversion.Converts setup.graph c (.datum path d)
    (Host.Conversion.convert setup.graph (Host.Conversion.depth setup.graph) c path d).1
    (Host.Conversion.convert setup.graph (Host.Conversion.depth setup.graph) c path d).2
  outcome : ∀ f, (setup.analyze globals).1 = .error f →
    setup.Fails f ∨ f = .invalidProgram ∧ setup.programs[0]? = none
  evaluation : ∀ frame s, newGlobals globals setup .start = .ok frame s →
    setup.programs[0]?.isSome → ∀ n, setup.fuel ≤ n →
    (Evaluator.audited ok n).runProgram 0 [frame] setup s =
      setup.evaluator.runProgram 0 [frame] setup s

variable {setup : Setup}

/-- The levels an analysis is given are enough. -/
theorem levels_le_fuel (setup : Setup) {h : Nat} (hh : h ≤ setup.height) :
    setup.levels ⟨0, 0, []⟩ + h + 5 ≤ setup.fuel := by
  have hleft : setup.left ⟨0, 0, []⟩ ≤ setup.callLevels + setup.callbackLevels + 1 := by
    have hpow : 1 ≤ Nat.pow 2 40 := Nat.one_le_two_pow
    unfold left callbackLevels
    split
    · simp only [List.length_nil]
      omega
    · omega
  have hlevels : setup.levels ⟨0, 0, []⟩ ≤
      (setup.callLevels + setup.callbackLevels + 1) * (setup.height + 16) :=
    Nat.mul_le_mul_right _ hleft
  have hfuel : setup.fuel = (setup.callLevels + setup.callbackLevels + 1) * (setup.height + 16) +
      (setup.height + 16) := by
    rw [fuel, Nat.add_mul _ 1, Nat.one_mul, ← Nat.add_one_mul]
  omega

/-- An analysis that fails does so in some state. -/
theorem error_of_outcome {α : Type} {x : Run α} {f : Failure}
    (h : (x.outcome setup).1 = .error f) : ∃ s, x setup .start = .error f s := by
  unfold Run.outcome at h
  cases hx : x setup .start with
  | ok a s =>
    rw [hx] at h
    cases h
  | error e s =>
    rw [hx] at h
    cases h
    exact ⟨s, rfl⟩

/-- An analysis ends by itself if external code makes no calls at its top level. -/
theorem terminates (hg : setup.graph.Grounded) (hc : setup.Complete) (hq : setup.Quiet)
    {ok : State → State → Prop} [DecidableRel ok] (hok : ∀ s s', s.depth ≤ setup.callLevels →
      s.anchors.length ≤ s.depth + 1 → s.Limited setup s' → ok s s') (globals : Host.Datum) :
    setup.Terminates globals ok := by
  have hrun : ∀ (hmain : setup.programs[0]?.isSome) (frame n : Nat), setup.fuel ≤ n →
      (Discipline.ending hc).Agree ⟨0, 0, []⟩ (setup.evaluator.runProgram 0 [frame])
        ((Evaluator.audited ok n).runProgram 0 [frame]) fun _ => True := by
    intro hmain frame n hn
    refine (Evaluator.agrees_ending hc hq hok hn).runProgram hmain (fun _ => Nat.le_refl 2)
      fun hprepared hs => ?_
    have hnode := hasNode_stmt hprepared hs
    exact ⟨hnode, Nat.zero_le _, .inl (Nat.le_refl _), setup.levels_le_fuel hnode.height_le⟩
  refine ⟨Host.Conversion.convert_converts hg, fun f hf => ?_, fun frame s hs hmain n hn => ?_⟩
  · obtain ⟨s, hs⟩ := error_of_outcome hf
    cases hmain : setup.programs[0]? with
    | none =>
      rw [report, hmain] at hs
      cases hs
      exact .inr ⟨rfl, rfl⟩
    | some main =>
      have hmain' : setup.programs[0]?.isSome := by simp [hmain]
      have hreport : (Discipline.ending hc).Keeps ⟨0, 0, []⟩ (setup.report globals)
          fun _ => True := by
        unfold Setup.report
        rw [hmain]
        refine (Agree.newGlobals globals).bind fun frame _ => Agree.log.seq ?_
        refine (hrun hmain' frame setup.fuel (Nat.le_refl _)).left.bind fun _ _ => ?_
        exact .get fun _ _ _ => Agree.log.seq (.pure trivial)
      have h := hreport.alone .start ⟨State.coded_start setup, hmain'⟩ rfl
      rw [hs] at h
      exact .inl (h.resolve_left id).2.2.2
  · have hglobals := (Agree.newGlobals globals).alone .start
      (show (Discipline.ending hc).inv _ from ⟨State.coded_start setup, hmain⟩) rfl
    rw [hs] at hglobals
    have h := (hrun hmain frame n hn).alone s hglobals.2.1 hglobals.2.2.1.position
    cases heq : setup.evaluator.runProgram 0 [frame] setup s with
    | ok a s' =>
      rw [heq] at h
      exact h.1
    | error e s' =>
      rw [heq] at h
      exact (h.resolve_left id).1

/-- Without external code every analysis ends by itself, with a report or with an error that has its
cause in what is analyzed; the one exception is that blocks without templates may be entered if the
analysis is not strict. Each activity starts within the limit of nested calls, and at the limit it
follows no call. -/
theorem terminates_without_resolver (hg : setup.graph.Grounded) (hr : setup.resolver = none)
    (globals : Host.Datum) :
    setup.Terminates globals fun s s' => s.depth ≤ setup.callLevels ∧
      (s.depth = setup.callLevels → s'.calls = s.calls) := by
  have himpl : ∀ u, ¬ setup.Implements u := by
    rintro u ⟨resolver, _, _, _, h, _⟩
    rw [hr] at h
    cases h
  refine terminates hg (fun u hu => absurd hu (himpl u)) (fun u _ _ hu => absurd hu (himpl u))
    (fun s s' hd _ h => ⟨hd, fun heq => h.calls (Nat.le_of_eq heq.symm)⟩) globals

end Setup

/-- The program `const a = []; a.push(a.map); a.map(a.map);`, in which a native method is called
back by itself. -/
def selfMapped : Setup where
  options := { Options.standard with maxCallDepth := 1 }
  programs := #[.ofProgram ⟨"script", "const a = []; a.push(a.map); a.map(a.map);",
    [.declareLexical ⟨0, 12⟩
      [.mk (.leaf (.identifier ⟨"a", ⟨6, 7⟩⟩)) (some (.array ⟨10, 12⟩ []))],
     .expression (.call ⟨14, 27⟩ (.dot ⟨14, 20⟩ (.identifier ⟨"a", ⟨14, 15⟩⟩) "push")
      [.dot ⟨21, 26⟩ (.identifier ⟨"a", ⟨21, 22⟩⟩) "map"]),
     .expression (.call ⟨29, 41⟩ (.dot ⟨29, 34⟩ (.identifier ⟨"a", ⟨29, 30⟩⟩) "map")
      [.dot ⟨35, 40⟩ (.identifier ⟨"a", ⟨35, 36⟩⟩) "map"])]⟩]
  graph := ⟨#[.object [] false]⟩
  resolver := none
  canceled := false

/-- The native method that calls itself back ends: its analysis terminates with a report. -/
theorem terminates_without_resolver_selfMapped :
    selfMapped.graph.Grounded ∧ selfMapped.resolver = none ∧
    (selfMapped.analyze (.container 0)).1.toBool = true ∧
    selfMapped.Terminates (.container 0) fun s s' => s.depth ≤ selfMapped.callLevels ∧
      (s.depth = selfMapped.callLevels → s'.calls = s.calls) := by
  have hg : selfMapped.graph.Grounded := Host.Graph.grounded_of_shared (by decide)
  exact ⟨hg, rfl, by decide +kernel, Setup.terminates_without_resolver hg rfl (.container 0)⟩

/-- The program `const f = ([a = function () {}]) => a(); f([]);`, not strict. The default in the
parameter is a function whose body has no template. -/
def patternDefault : Setup where
  options := { Options.standard with maxCallDepth := 2, strict := false }
  programs := #[.ofProgram ⟨"script", "const f = ([a = function () \x7b\x7d]) => a(); f([]);",
    [.declareLexical ⟨0, 39⟩ [.mk (.leaf (.identifier ⟨"f", ⟨6, 7⟩⟩))
      (some (.function (.mk ⟨10, 39⟩ true none
        (.mk ⟨10, 32⟩ [.mk (.array ⟨11, 31⟩
          [some (.mk (.leaf (.identifier ⟨"a", ⟨12, 13⟩⟩))
            (some (.function (.mk ⟨16, 30⟩ false none (.mk ⟨25, 27⟩ [] none)
              (.block (.mk ⟨28, 30⟩ []))))))] none) none] none)
        (.expression (.call ⟨36, 39⟩ (.identifier ⟨"a", ⟨36, 37⟩⟩) [])))))],
     .expression (.call ⟨41, 46⟩ (.identifier ⟨"f", ⟨41, 42⟩⟩) [.array ⟨43, 45⟩ []])]⟩]
  graph := ⟨#[.object [] false]⟩
  resolver := none
  canceled := false

/-- The analysis of `patternDefault` ends neither with a report nor with an error of its own. -/
theorem patternDefault_faults : patternDefault.graph.Grounded ∧ patternDefault.resolver = none ∧
    (patternDefault.analyze (.container 0)).1 = .error (.internal (.noScope 28)) := by
  refine ⟨Host.Graph.grounded_of_shared (by decide), rfl, ?_⟩
  have hfault : (match (patternDefault.analyze (.container 0)).1 with
      | .ok _ => none
      | .error f => some f) = some (.internal (.noScope 28)) := by decide +kernel
  revert hfault
  cases (patternDefault.analyze (.container 0)).1 with
  | ok report => exact nofun
  | error f => exact fun h => congrArg Except.error (Option.some.inj h)

/-! ## External code -/

/-- If external code makes no calls at its top level, every analysis ends by itself. Each activity
starts within the limit of nested calls, under at most one run of external code more than calls. -/
theorem Setup.terminates_of_quiet {setup : Setup} (hg : setup.graph.Grounded)
    (hc : setup.Complete) (hq : setup.Quiet) (globals : Host.Datum) :
    setup.Terminates globals fun s _ =>
      s.anchors.length ≤ s.depth + 1 ∧ s.depth ≤ setup.callLevels :=
  terminates hg hc hq (fun _ _ hd ha _ => ⟨ha, hd⟩) globals

/-- A resolver for one path names one program. -/
theorem Setup.Implements.eq_of_only {setup : Setup} {path : Path} {unit u : Nat}
    (h : setup.Implements u) (hr : setup.resolver = some (.only path unit)) : u = unit := by
  obtain ⟨resolver, p, impls, impl, hr', himpls, hmem, hu⟩ := h
  cases hr.symm.trans hr'
  cases himpls
  split at hmem
  · rw [List.mem_singleton.1 hmem] at hu
    exact (Option.some.inj hu).symm
  · cases hmem

/-- A resolver for one path is complete if its program is there. -/
theorem Setup.complete_of_only {setup : Setup} {path : Path} {unit : Nat}
    (hr : setup.resolver = some (.only path unit)) (hu : setup.programs[unit]?.isSome) :
    setup.Complete := fun u h => by
  rw [h.eq_of_only hr]
  exact hu

/-- The handler that returns a global makes no calls at its top level. -/
theorem quiet_handledCall : handledCall.Quiet := by
  intro u prepared s hu hprepared hs span callee args hcall
  rw [hu.eq_of_only rfl] at hprepared
  cases hprepared
  cases List.mem_singleton.1 hs
  rcases Relation.ReflTransGen.cases_head hcall with heq | ⟨n, hn, hcall⟩
  · cases heq
  · rw [List.mem_singleton.1 hn] at hcall
    rcases Relation.ReflTransGen.cases_head hcall with heq | ⟨n, hn, _⟩
    · cases heq
    · cases hn

/-- The analysis that follows `g.f();` into its handler ends by itself, with a report. -/
theorem terminates_of_quiet_handledCall :
    handledCall.graph.Grounded ∧ handledCall.Complete ∧ handledCall.Quiet ∧
    (handledCall.analyze (.container 0)).1.toBool = true ∧
    handledCall.Terminates (.container 0) fun s _ =>
      s.anchors.length ≤ s.depth + 1 ∧ s.depth ≤ handledCall.callLevels := by
  have hg : handledCall.graph.Grounded := grounded_emptyGlobal
  have hc : handledCall.Complete := Setup.complete_of_only rfl rfl
  exact ⟨hg, hc, quiet_handledCall, by decide +kernel,
    Setup.terminates_of_quiet hg hc quiet_handledCall (.container 0)⟩

/-- The call `g.f()`. -/
def echoCall : Script.Expr :=
  .call ⟨0, 5⟩ (.dot ⟨0, 3⟩ (.identifier ⟨"g", ⟨0, 1⟩⟩) "f") []

/-- The program `g.f();`. The same program is registered for `g.f`, and runs against the same
globals. -/
def echo : Setup where
  options := { Options.standard with maxCallDepth := 1 }
  programs := #[.ofProgram ⟨"script", "g.f();", [.expression echoCall]⟩,
    .ofProgram ⟨"handler", "g.f();", [.expression echoCall]⟩]
  graph := emptyGlobal
  resolver := some (.only [.key "g", .key "f"] 1)
  canceled := false

/-- A computation gives up, after a number of requests in all. -/
def GivesUp {α : Type} (x : Run α) (s : State) (k : Nat) : Prop :=
  ∃ s', x echo s = .error .outOfFuel s' ∧ k ≤ s'.requests.size

namespace GivesUp

variable {α β : Type} {x : Run α} {f : α → Run β} {s : State} {k : Nat}

/-- What gives up still gives up if something were to follow. -/
theorem bind (h : GivesUp x s k) : GivesUp (x >>= f) s k := by
  obtain ⟨s', hx, hk⟩ := h
  refine ⟨s', ?_, hk⟩
  show EStateM.bind (x echo) (fun a => f a echo) s = _
  rw [EStateM.bind, hx]

/-- What goes on to give up gives up. -/
theorem after {a : α} {s₁ : State} (hx : x echo s = .ok a s₁) (h : GivesUp (f a) s₁ k) :
    GivesUp (x >>= f) s k := by
  obtain ⟨s', hf, hk⟩ := h
  exact ⟨s', (bind_of_ok hx).trans hf, hk⟩

/-- Giving up in another program is giving up. -/
theorem inUnit {u : Nat} (h : GivesUp x { s with unit := u } k) :
    GivesUp (x.inUnit u) s k := by
  obtain ⟨s', hx, hk⟩ := h
  refine ⟨{ s' with unit := s.unit }, ?_, hk⟩
  show Run.restoring x _ echo { s with unit := u } = _
  rw [Run.restoring, hx]

/-- Giving up below a call is giving up. -/
theorem anchored {span : Span} (h : GivesUp x { s with anchors := span :: s.anchors } k) :
    GivesUp (x.anchored span) s k := by
  obtain ⟨s', hx, hk⟩ := h
  refine ⟨{ s' with anchors := s.anchors }, ?_, hk⟩
  show Run.restoring x _ echo { s with anchors := span :: s.anchors } = _
  rw [Run.restoring, hx]

/-- Giving up is not hidden by the path of the implementation. -/
theorem within {path : String} (h : GivesUp x s k) : GivesUp (x.within path) s k := by
  obtain ⟨s', hx, hk⟩ := h
  refine ⟨s', ?_, hk⟩
  rw [Run.within, hx]
  rfl

end GivesUp

/-- What the runs of the program have in common. -/
structure Echoes (frame : Nat) (s : State) : Prop where
  known : s.known.lookup 1 = some (.object 0)
  path : s.provenance.find? (.object 0) = some [.key "g"]
  slot : s.heap.getKeyOf (.name "f") (.object 0) = .empty
  bound : (s.heap.frame frame).find? "g" = some (.known (.single (.object 0)))
  lt : frame < s.heap.frames.size

/-- The programs run the call on a frame of their own, which is empty. -/
theorem exists_template_echo {u : Nat} (hu : u = 0 ∨ u = 1) : ∃ p t, echo.programs[u]? = some p ∧
    p.program.body = [.expression echoCall] ∧ p.hoisting.find? Script.Hoisting.root = some t ∧
    t.vars = [] ∧ t.functions = [] := by
  have hempty : ∀ p : Prepared, (p.hoisting.find? Script.Hoisting.root).map
        (fun t => (t.vars, t.functions.length)) = some ([], 0) →
      ∃ t, p.hoisting.find? Script.Hoisting.root = some t ∧ t.vars = [] ∧ t.functions = [] := by
    intro p h
    obtain ⟨t, ht, heq⟩ := Option.map_eq_some_iff.1 h
    simp only [Prod.mk.injEq, List.length_eq_zero_iff] at heq
    exact ⟨t, ht, heq⟩
  rcases hu with rfl | rfl
  · obtain ⟨t, ht⟩ := hempty (.ofProgram ⟨"script", "g.f();", [.expression echoCall]⟩) (by cbv)
    exact ⟨_, t, rfl, rfl, ht⟩
  · obtain ⟨t, ht⟩ := hempty (.ofProgram ⟨"handler", "g.f();", [.expression echoCall]⟩) (by cbv)
    exact ⟨_, t, rfl, rfl, ht⟩

namespace Echoes

variable {frame : Nat} {s : State}

/-- More frames leave everything as it is. -/
theorem addFrame (h : Echoes frame s) (f : Frame) :
    Echoes frame { s with heap := (s.heap.addFrame f).2 } where
  known := h.known
  path := h.path
  slot := h.slot
  bound := by
    rw [Heap.frame_addFrame, if_neg (Nat.ne_of_lt h.lt)]
    exact h.bound
  lt := by simpa [Heap.addFrame] using Nat.lt_succ_of_lt h.lt

/-- Globals converted once more bind the same object. -/
theorem newGlobals (h : Echoes frame s) : ∃ s', Run.newGlobals (.container 0) echo s =
    .ok s.heap.frames.size s' ∧ Echoes s.heap.frames.size s' ∧ s'.requests = s.requests := by
  have hconvert : Host.Conversion.convert echo.graph (Host.Conversion.depth echo.graph)
      s.conversion [.key "g"] (.container 1) = (.object 0, s.conversion) := by
    show Host.Conversion.convert echo.graph (_ + 1) _ _ _ = _
    have hknown : s.conversion.known.lookup 1 = some (.object 0) := h.known
    rw [Host.Conversion.convert]
    simp only [hknown]
  have hframe : Host.Conversion.frame echo.graph s.conversion [("g", .container 1)] =
      (s.heap.frames.size, { s.conversion with
        heap := (s.heap.addFrame (Frame.empty.define "g" (.known (.single (.object 0))))).2 }) := by
    rw [Host.Conversion.frame, List.foldl_cons, List.foldl_nil]
    simp only [hconvert]
    rfl
  refine ⟨{ s with
    heap := (s.heap.addFrame (Frame.empty.define "g" (.known (.single (.object 0))))).2 }, ?_,
    ⟨h.known, h.path, h.slot, ?_, ?_⟩, rfl⟩
  · unfold Run.newGlobals
    rw [read_bind, show echo.graph = emptyGlobal from rfl, globals_emptyGlobal]
    show EStateM.Result.ok (Host.Conversion.frame echo.graph s.conversion [("g", .container 1)]).1
      (s.withConversion
        (Host.Conversion.frame echo.graph s.conversion [("g", .container 1)]).2) = _
    rw [hframe]
    rfl
  · rw [Heap.frame_addFrame, if_pos rfl]
    rfl
  · simp [Heap.addFrame]

/-- The call reads nothing from the global object. -/
theorem calleeOf (h : Echoes frame s) {top n : Nat} (ht : (s.heap.frame top).find? "g" = none) :
    (Evaluator.ofFuel (n + 1)).calleeOf
      (.dot ⟨0, 3⟩ (.identifier ⟨"g", ⟨0, 1⟩⟩) "f") [top, frame] echo s =
      .ok (.known .empty, some (.known (.single (.object 0)), .name "f")) s := by
  have hlookup : Run.lookup "g" [top, frame] echo s = .ok (.known (.single (.object 0))) s := by
    rw [Run.lookup_eq, Heap.meaning]
    simp [Heap.lookup?, ht, h.bound]
  have htarget : (Evaluator.ofFuel (n + 1)).memberTarget
      (.dot ⟨0, 3⟩ (.identifier ⟨"g", ⟨0, 1⟩⟩) "f") [top, frame] echo s =
      .ok (.known (.single (.object 0)), .name "f") s := bind_of_ok hlookup
  have hslot : s.heap.getKey (.single (.object 0)) (.name "f") = .empty := by
    rw [Heap.getKey]
    simp only [Reference.single, List.map_cons, List.map_nil, h.slot]
    rfl
  have hread : (Evaluator.ofFuel (n + 1)).readMember (.known (.single (.object 0))) (.name "f")
      (.ofExpr (.dot ⟨0, 3⟩ (.identifier ⟨"g", ⟨0, 1⟩⟩) "f")) echo s = .ok (.known .empty) s := by
    have hget : Run.getKey (.single (.object 0)) (.name "f") echo s = .ok .empty s :=
      congrArg (EStateM.Result.ok · s) hslot
    exact (bind_of_ok (deref_eq echo _ s)).trans (bind_of_ok hget)
  refine (bind_of_ok htarget).trans ?_
  exact bind_of_ok hread

/-- A run of the program runs the call on an empty frame. -/
theorem runProgram (h : Echoes frame s) {E : Evaluator} {u k : Nat} (hu : u = 0 ∨ u = 1)
    (hwalk : ∀ {top s'}, Echoes frame s' → (s'.heap.frame top).find? "g" = none →
      s'.requests = s.requests → GivesUp (E.walk true (.expression echoCall) [top, frame]) s' k) :
    GivesUp (E.runProgram u [frame]) s k := by
  obtain ⟨p, t, hp, hbody, ht, hvars, hfns⟩ := exists_template_echo hu
  have htemplate : Run.template Script.Hoisting.root echo { s with unit := u } =
      .ok t { s with unit := u } := by
    unfold Run.template
    rw [read_bind, get_bind, hp]
    simp only [ht]
    rfl
  have hinstantiate : Run.instantiate t [frame] echo { s with unit := u } =
      .ok [s.heap.frames.size, frame]
        { s with unit := u, heap := (s.heap.addFrame .empty).2 } := by
    unfold Run.instantiate
    rw [hvars, hfns]
    rfl
  have hrun : GivesUp (E.walkAll true [.expression echoCall] [s.heap.frames.size, frame])
      { s with unit := u, heap := (s.heap.addFrame .empty).2 } k := by
    have hechoes := h.addFrame .empty
    refine .bind (.bind (hwalk ⟨h.known, h.path, h.slot, hechoes.bound, hechoes.lt⟩ ?_ rfl))
    rw [Heap.frame_addFrame, if_pos rfl]
    rfl
  unfold Evaluator.runProgram
  refine .inUnit (.after htemplate (.after hinstantiate (.after rfl ?_)))
  rw [hp]
  simp only [hbody]
  exact hrun

/-- Each run of the program leads to another one. -/
theorem givesUp : ∀ (n : Nat) {frame top : Nat} {s : State}, Echoes frame s →
    (s.heap.frame top).find? "g" = none →
    GivesUp ((Evaluator.ofFuel n).walk true (.expression echoCall) [top, frame]) s
      (s.requests.size + (n - 1) / 2)
  | 0, _, _, s, _, _ => ⟨s, rfl, Nat.le_refl _⟩
  | 1, _, _, s, _, _ => ⟨s, rfl, Nat.le_refl _⟩
  | 2, _, _, s, _, _ => ⟨s, rfl, Nat.le_refl _⟩
  | n + 3, frame, top, s, h, ht => by
    have hfollow : GivesUp ((Evaluator.ofFuel (n + 1)).followCallbacks
        (.only [.key "g", .key "f"] 1) [.key "g", .key "f"]
        ⟨⟨.call, ⟨0, 5⟩⟩, some (.known (.single (.object 0))), []⟩) s
        (s.requests.size + (n + 3 - 1) / 2) := by
      have hthere : Echoes frame { s with
          requests := s.requests.push [.key "g", .key "f"]
          anchors := s.anchors.head?.getD ⟨0, 5⟩ :: s.anchors } :=
        ⟨h.known, h.path, h.slot, h.bound, h.lt⟩
      obtain ⟨s', hglobals, hnext, hrequests⟩ := hthere.newGlobals
      have hrun : GivesUp ((Evaluator.ofFuel (n + 1)).runProgram 1 [s.heap.frames.size]) s'
          (s.requests.size + (n + 3 - 1) / 2) := by
        refine hnext.runProgram (.inr rfl) fun hagain htop heq => ?_
        have hsize : (n + 3 - 1) / 2 = 1 + (n + 1 - 1) / 2 := by omega
        have h := givesUp (n + 1) hagain htop
        rw [heq, hrequests, Array.size_push, Nat.add_assoc, ← hsize] at h
        exact h
      unfold Evaluator.followCallbacks
      refine .within (.after rfl ?_)
      rw [Resolver.only, if_pos rfl]
      refine .after (x := log _ _) rfl (.after rfl (.anchored (.bind (.bind ?_))))
      exact .after hglobals (.bind hrun)
    have hpath : s.provenance.findAny? (.single (.object 0)) = some [.key "g"] := by
      simp [Provenance.findAny?, Reference.single, h.path]
    have hcall : GivesUp ((Evaluator.ofFuel (n + 1)).call ⟨0, 5⟩
        (.dot ⟨0, 3⟩ (.identifier ⟨"g", ⟨0, 1⟩⟩) "f") [] [top, frame]) s
        (s.requests.size + (n + 3 - 1) / 2) := by
      refine .after (h.calleeOf ht) (.after rfl (.after rfl (.after rfl (.after rfl ?_))))
      refine .after (x := deref _) rfl ?_
      rw [if_neg (by decide)]
      refine .after (x := get) rfl (.after (x := deref _) rfl ?_)
      rw [hpath]
      exact .bind hfollow
    exact .bind (.bind hcall)

end Echoes

/-- The analysis of `echo` does not end: with whatever levels, they are what ends it, and the more
of them there are, the more often external code is reached from external code. -/
theorem echo_never_ends : echo.graph.Grounded ∧ echo.Complete ∧ echo.options.maxCallDepth = 1 ∧
    ∃ frame s, newGlobals (.container 0) echo .start = .ok frame s ∧ ∀ n, ∃ s',
      (Evaluator.ofFuel n).runProgram 0 [frame] echo s = .error .outOfFuel s' ∧
      (n - 1) / 2 ≤ s'.requests.size := by
  refine ⟨grounded_emptyGlobal, Setup.complete_of_only rfl rfl, rfl, _, _,
    Setup.newGlobals_of_ok globals_emptyGlobal rfl, fun n => ?_⟩
  have hechoes : Echoes (Host.Conversion.frame echo.graph .empty [("g", .container 1)]).1
      (State.start.withConversion
        (Host.Conversion.frame echo.graph .empty [("g", .container 1)]).2) :=
    ⟨by cbv, by cbv, by cbv, by cbv, by cbv⟩
  refine hechoes.runProgram (.inl rfl) fun h ht heq => ?_
  have hwalk := Echoes.givesUp n h ht
  rw [heq] at hwalk
  simpa [State.start, State.withConversion] using hwalk

end FrozenGlobals
