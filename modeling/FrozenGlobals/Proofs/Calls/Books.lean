import FrozenGlobals.Proofs.Discipline.Agree

/-!
# The books of calls

An analysis keeps books of its calls: how many are nested and how many there were, how often each
function is being called and how often it was entered again, and which skipped calls it warned
about. A run is followed here from moment to moment (`Setup.Step`), with the functions that are
being called and all the calls that there were beside the state. At every moment that can be reached
the books are right about these (`Moment.Booked`).
-/

namespace FrozenGlobals

open Relation

/-! ## Tallies -/

namespace Tally

/-- A tally begins with the latest count of a key. -/
theorem count_cons (key k : FunctionKey) (n : Nat) (t : Tally) :
    count ((k, n) :: t) key = if k == key then n else t.count key := by
  unfold count
  rw [List.lookup_cons, BEq.comm]
  cases k == key <;> rfl

/-- Adding a key counts it once more, and the other keys as before. -/
theorem count_add (t : Tally) (k key : FunctionKey) :
    (t.add k).count key = t.count key + if k == key then 1 else 0 := by
  induction t with
  | nil => rw [add, count_cons, show count [] key = 0 from rfl, Nat.zero_add]
  | cons entry t ih =>
    obtain ⟨j, n⟩ := entry
    by_cases hj : j = k
    · rw [add, if_pos (beq_iff_eq.2 hj), count_cons, count_cons, hj]
      split <;> rfl
    · rw [add, if_neg (by simpa using hj), count_cons, count_cons, ih]
      split
      · next hkey => rw [if_neg (by simpa [← eq_of_beq hkey] using Ne.symm hj), Nat.add_zero]
      · rfl

/-- Removing a key counts it once less, and the other keys as before. -/
theorem count_remove (t : Tally) (k key : FunctionKey) :
    (t.remove k).count key = t.count key - if k == key then 1 else 0 := by
  induction t with
  | nil => rw [remove, show count [] key = 0 from rfl, Nat.zero_sub]
  | cons entry t ih =>
    obtain ⟨j, n⟩ := entry
    by_cases hj : j = k
    · rw [remove, if_pos (beq_iff_eq.2 hj), count_cons, count_cons, hj]
      split <;> rfl
    · rw [remove, if_neg (by simpa using hj), count_cons, count_cons, ih]
      split
      · next hkey => rw [if_neg (by simpa [← eq_of_beq hkey] using Ne.symm hj), Nat.sub_zero]
      · rfl

end Tally

/-! ## Warnings about skipped calls -/

namespace Skip

/-- Calls are warned about according to why they are skipped. -/
theorem kind_of_message (o : Options) (skip : Skip) :
    isCeilingWarning (skip.message o) = (skip matches .tooDeep _) ∧
      isBudgetWarning (skip.message o) = (skip matches .spent ..) := by
  cases skip with
  | tooDeep site => exact ⟨isSuffixOf_append .., isSuffixOf_append ..⟩
  | spent fn budget => exact ⟨isSuffixOf_append .., isSuffixOf_append ..⟩

end Skip

namespace State

/-- The warnings about calls that would nest too deep. -/
def ceilingWarnings (s : State) : List String := s.warnings.toList.filter Skip.isCeilingWarning

/-- The warnings about functions that were entered again too often. -/
def budgetWarnings (s : State) : List String := s.warnings.toList.filter Skip.isBudgetWarning

/-- What is kept about calls. -/
structure Books where
  depth : Nat
  calls : Nat
  active : Tally
  reentries : Tally
  ceilingWarned : Bool
  budgetWarned : List FunctionKey
  ceilingWarnings : List String
  budgetWarnings : List String

def books (s : State) : Books where
  depth := s.depth
  calls := s.calls
  active := s.active
  reentries := s.reentries
  ceilingWarned := s.ceilingWarned
  budgetWarned := s.budgetWarned
  ceilingWarnings := s.ceilingWarnings
  budgetWarnings := s.budgetWarnings

/-- A change is entered in the books if it skips a call. -/
theorem Change.books {setup : Setup} {scope : Stack → Prop}
    {code : Nat → Script.Function → Prop} {place : Nat → Script.Span → Prop} {s s' : State}
    (h : Change setup scope code place s s') :
    s'.books = s.books ∨
      ∃ skip, Skip.Due setup.options s skip ∧ s' = s.skipped setup.options skip := by
  cases h with
  | @skip skip hdue => exact .inr ⟨skip, hdue, rfl⟩
  | warn h =>
    refine .inl ?_
    simp [State.books, ceilingWarnings, budgetWarnings, List.filter_append, h.ceiling, h.budget]
  | _ => exact .inl rfl

end State

/-! ## Moments of a run -/

/-- A call that was followed, with the functions that were being called, innermost first. -/
structure Call where
  key : FunctionKey
  around : List FunctionKey
deriving DecidableEq

/-- The function was being called already. -/
def Call.Reenters (key : FunctionKey) (c : Call) : Prop := c.key = key ∧ key ∈ c.around

instance (key : FunctionKey) : DecidablePred (Call.Reenters key) := fun _ =>
  inferInstanceAs (Decidable (_ ∧ _))

/-- A moment of a run: the calls that were followed, the latest first, the functions that are being
called, innermost first, and the state. -/
structure Moment where
  past : List Call
  chain : List FunctionKey
  state : State

namespace Moment

def start : Moment := ⟨[], [], .start⟩

/-- How often a function was entered again. -/
def reentries (m : Moment) (key : FunctionKey) : Nat := m.past.countP (Call.Reenters key)

/-- The budget warnings are about functions that differ. -/
structure WarnedOnce (o : Options) (s : State) (fns : List Closure) : Prop where
  distinct : (fns.map Closure.key).Nodup
  noted : ∀ fn ∈ fns, fn.key ∈ s.budgetWarned
  warnings : s.budgetWarnings = fns.map fun fn => Skip.message o (.spent fn (o.budget?.getD 0))

/-- The books are right. -/
structure Booked (o : Options) (m : Moment) : Prop where
  depth : m.state.depth = m.chain.length
  active : ∀ key, m.state.active.count key = m.chain.count key
  calls : m.state.calls = m.past.length
  reentered : ∀ key, m.state.reentries.count key = m.reentries key
  budget : ∀ budget, o.budget? = some budget → ∀ key, m.reentries key ≤ budget
  ceiling : m.state.ceilingWarnings.length ≤ m.state.ceilingWarned.toNat
  warned : ∃ fns, WarnedOnce o m.state fns

end Moment

/-- What can happen next. Calls nest only so deep, and functions are entered again only so often. -/
inductive Setup.Step (setup : Setup) : Moment → Moment → Prop
  | other {past : List Call} {chain : List FunctionKey} {s s' : State} : s'.books = s.books →
      Step setup ⟨past, chain, s⟩ ⟨past, chain, s'⟩
  | skip {past : List Call} {chain : List FunctionKey} {s : State} {skip : Skip} :
      skip.Due setup.options s →
      Step setup ⟨past, chain, s⟩ ⟨past, chain, s.skipped setup.options skip⟩
  | enter {past : List Call} {chain : List FunctionKey} {s : State} (key : FunctionKey) :
      s.depth < setup.callLevels → s.Affords setup.options key →
      Step setup ⟨past, chain, s⟩ ⟨⟨key, chain⟩ :: past, key :: chain, s.called key⟩
  | leave {past : List Call} {chain : List FunctionKey} {s : State} (key : FunctionKey) :
      Step setup ⟨past, key :: chain, s⟩ ⟨past, chain, s.returned key⟩

namespace Moment.Booked

variable {o : Options} {past : List Call} {chain : List FunctionKey} {s s' : State}

/-- In the beginning the books are right: there were no calls. -/
theorem start (o : Options) : Moment.start.Booked o :=
  ⟨rfl, fun _ => rfl, rfl, fun _ => rfl, fun _ _ _ => Nat.zero_le _, Nat.zero_le _,
    [], .nil, nofun, rfl⟩

/-- The books need not be looked at again where they did not change. -/
theorem of_books (h : Booked o ⟨past, chain, s⟩) (hs : s'.books = s.books) :
    Booked o ⟨past, chain, s'⟩ := by
  simp only [State.books, State.Books.mk.injEq] at hs
  obtain ⟨hdepth, hcalls, hactive, hreentries, hceiling, hbudget, hceilings, hbudgets⟩ := hs
  obtain ⟨fns, hfns⟩ := h.warned
  exact {
    depth := hdepth.trans h.depth
    active := fun key => hactive ▸ h.active key
    calls := hcalls.trans h.calls
    reentered := fun key => hreentries ▸ h.reentered key
    budget := h.budget
    ceiling := hceilings ▸ hceiling ▸ h.ceiling
    warned := ⟨fns, hfns.distinct, hbudget ▸ hfns.noted, hbudgets.trans hfns.warnings⟩ }

/-- The first call that would nest too deep is warned about, and so is the first one of each
function that would be entered again too often. -/
theorem skipped (h : Booked o ⟨past, chain, s⟩) {skip : Skip} (hdue : skip.Due o s) :
    Booked o ⟨past, chain, s.skipped o skip⟩ := by
  cases hknown : skip.known s with
  | true =>
    rw [State.skipped_known skip hknown]
    exact h
  | false =>
    obtain ⟨fns, hfns⟩ := h.warned
    obtain ⟨hceiling, hbudget⟩ := Skip.kind_of_message o skip
    cases skip with
    | tooDeep site =>
      rw [State.skipped_tooDeep hknown]
      refine { h with ceiling := ?_, warned := ⟨fns, hfns.distinct, hfns.noted, ?_⟩ }
      · have hnone : s.ceilingWarnings.length ≤ s.ceilingWarned.toNat := h.ceiling
        rw [show s.ceilingWarned = false from hknown, Bool.toNat_false] at hnone
        have hnone : s.ceilingWarnings = [] := List.length_eq_zero_iff.1 (Nat.le_zero.1 hnone)
        unfold State.ceilingWarnings at hnone ⊢
        cases o.warnings <;> simp [hnone, hceiling]
      · have hsame : s.budgetWarnings = _ := hfns.warnings
        rw [← hsame]
        cases o.warnings <;> simp [State.budgetWarnings, hbudget]
    | spent fn budget =>
      obtain ⟨hspent, -⟩ := hdue
      have hfresh : fn.key ∉ s.budgetWarned := by simpa [Skip.known] using hknown
      rw [State.skipped_spent budget hknown]
      refine { h with ceiling := ?_, warned := ?_ }
      · have hsame : s.ceilingWarnings.length ≤ s.ceilingWarned.toNat := h.ceiling
        cases o.warnings <;> simpa [State.ceilingWarnings, hceiling] using hsame
      · cases hwarnings : o.warnings with
        | false =>
          exact ⟨fns, hfns.distinct, fun f hf => List.mem_cons_of_mem _ (hfns.noted f hf),
            hfns.warnings⟩
        | true =>
          refine ⟨fns ++ [fn], ?_, fun f hf => ?_, ?_⟩
          · rw [List.map_append, List.nodup_append_comm]
            refine List.nodup_cons.2 ⟨fun hmem => ?_, hfns.distinct⟩
            obtain ⟨f, hf, hkey⟩ := List.mem_map.1 hmem
            exact hfresh (hkey ▸ hfns.noted f hf)
          · obtain hf | hf := List.mem_append.1 hf
            · exact List.mem_cons_of_mem _ (hfns.noted f hf)
            · rw [List.mem_singleton.1 hf]
              exact List.mem_cons_self
          · have hsame : s.budgetWarnings = _ := hfns.warnings
            rw [List.map_append, ← hsame, hspent]
            simp [State.budgetWarnings, hbudget]

/-- A call is one more, and around everything in it. -/
theorem called (h : Booked o ⟨past, chain, s⟩) {key : FunctionKey} (hafford : s.Affords o key) :
    Booked o ⟨⟨key, chain⟩ :: past, key :: chain, s.called key⟩ := by
  have hactive : ∀ k, s.active.count k = chain.count k := h.active
  have hreentered : ∀ k, s.reentries.count k = past.countP (Call.Reenters k) := h.reentered
  have hmem : 0 < s.active.count key ↔ key ∈ chain := by rw [hactive, List.count_pos_iff]
  -- the function is counted as entered again if it is being called already
  have hcount : ∀ k, (s.called key).reentries.count k =
      (⟨key, chain⟩ :: past).countP (Call.Reenters k) := by
    intro k
    rw [List.countP_cons, ← hreentered]
    show (if 0 < s.active.count key then s.reentries.add key else s.reentries).count k = _
    by_cases hkey : key = k
    · subst hkey
      by_cases hin : key ∈ chain
      · rw [if_pos (hmem.2 hin), Tally.count_add]
        simp [Call.Reenters, hin]
      · rw [if_neg (mt hmem.1 hin)]
        simp [Call.Reenters, hin]
    · split
      · rw [Tally.count_add]
        simp [Call.Reenters, hkey]
      · simp [Call.Reenters, hkey]
  obtain ⟨fns, hfns⟩ := h.warned
  exact {
    depth := congrArg (· + 1) h.depth
    active := fun k => by
      show (s.active.add key).count k = (key :: chain).count k
      rw [Tally.count_add, hactive, List.count_cons]
    calls := congrArg (· + 1) h.calls
    reentered := hcount
    budget := fun budget hbudget k => by
      have hold : past.countP (Call.Reenters k) ≤ budget := h.budget budget hbudget k
      show (⟨key, chain⟩ :: past).countP (Call.Reenters k) ≤ budget
      rw [List.countP_cons]
      split
      · next hre =>
        obtain ⟨rfl, hin⟩ := of_decide_eq_true hre
        exact hreentered key ▸ hafford budget hbudget (hmem.2 hin)
      · exact hold
    ceiling := h.ceiling
    warned := ⟨fns, hfns.distinct, hfns.noted, hfns.warnings⟩ }

/-- The books stay right when a call ends. -/
theorem returned {key : FunctionKey} (h : Booked o ⟨past, key :: chain, s⟩) :
    Booked o ⟨past, chain, s.returned key⟩ := by
  obtain ⟨fns, hfns⟩ := h.warned
  exact { h with
    depth := Nat.sub_eq_of_eq_add h.depth
    active := fun k => by
      have hactive : s.active.count k = (key :: chain).count k := h.active k
      show (s.active.remove key).count k = chain.count k
      rw [Tally.count_remove, hactive, List.count_cons, Nat.add_sub_cancel]
    warned := ⟨fns, hfns.distinct, hfns.noted, hfns.warnings⟩ }

/-- Whatever happens next, the books stay right. -/
theorem step {setup : Setup} {m m' : Moment} (h : m.Booked setup.options)
    (hstep : setup.Step m m') : m'.Booked setup.options := by
  cases hstep with
  | other hs => exact h.of_books hs
  | skip hdue => exact h.skipped hdue
  | enter key _ hafford => exact h.called hafford
  | leave key => exact h.returned

end Moment.Booked

/-- Where the product with 1000 is a machine word, it is how often functions may be entered
again. -/
theorem Options.budget?_of_word {o : Options} (hpos : 0 < o.maxCallDepth)
    (hword : 1000 * o.maxCallDepth < 2 ^ 63) : o.budget? = some (1000 * o.maxCallDepth).toNat := by
  have hbmod : Int.bmod (o.maxCallDepth * 1000) (Nat.pow 2 64) = 1000 * o.maxCallDepth := by
    rw [Int.mul_comm]
    exact Int.bmod_eq_of_le (by norm_num; omega) (by norm_num; omega)
  unfold Options.budget?
  rw [hbmod]
  simp [hpos]

/-! ## Moments that are reached -/

namespace Setup

/-- A run can come to a moment. -/
def Reached (setup : Setup) (m : Moment) : Prop := ReflTransGen setup.Step .start m

/-- A run goes on from one state to another, with the same functions being called in both, and
follows the same calls in between whatever it followed before. -/
def Leads (setup : Setup) (chain : List FunctionKey) (s s' : State) : Prop :=
  ∃ new, ∀ past, ReflTransGen setup.Step ⟨past, chain, s⟩ ⟨new ++ past, chain, s'⟩

variable {setup : Setup} {m : Moment} {chain : List FunctionKey} {s s' s'' : State}

/-- Wherever a run comes to, the books are right. -/
theorem Reached.booked (h : setup.Reached m) : m.Booked setup.options := by
  induction h with
  | refl => exact .start _
  | tail _ hstep ih => exact ih.step hstep

/-- How often a function is entered again, with a ceiling of nested calls. -/
theorem Reached.reentries_le (h : setup.Reached m) (hpos : 0 < setup.options.maxCallDepth)
    (hword : 1000 * setup.options.maxCallDepth < 2 ^ 63) (key : FunctionKey) :
    (m.reentries key : Int) ≤ 1000 * setup.options.maxCallDepth := by
  have hle := h.booked.budget _ (setup.options.budget?_of_word hpos hword) key
  omega

namespace Leads

/-- A run goes on from a state to itself without calls. -/
theorem refl (chain : List FunctionKey) (s : State) : setup.Leads chain s s := ⟨[], fun _ => .refl⟩

/-- Calls that are followed one after another are followed in sequence. -/
theorem trans (h : setup.Leads chain s s') (h' : setup.Leads chain s' s'') :
    setup.Leads chain s s'' := by
  obtain ⟨new, h⟩ := h
  obtain ⟨new', h'⟩ := h'
  exact ⟨new' ++ new, fun past => (h past).trans (List.append_assoc .. ▸ h' _)⟩

/-- What is not entered in the books is one step of a run. -/
theorem of_books (h : s'.books = s.books) : setup.Leads chain s s' :=
  ⟨[], fun _ => .single (.other h)⟩

/-- States with the same books are as good. -/
theorem congr {t t' : State} (h : setup.Leads chain t t') (ht : t.books = s.books := by rfl)
    (ht' : s'.books = t'.books := by rfl) : setup.Leads chain s s' :=
  (of_books ht).trans (h.trans (of_books ht'))

/-- A change of the state is one step. -/
theorem of_change {scope : Stack → Prop} {code : Nat → Script.Function → Prop}
    {place : Nat → Script.Span → Prop} (h : State.Change setup scope code place s s') :
    setup.Leads chain s s' := by
  obtain hbooks | ⟨skip, hdue, rfl⟩ := h.books
  · exact of_books hbooks
  · exact ⟨[], fun _ => .single (.skip hdue)⟩

/-- A call is followed, with what it leads to. -/
theorem of_call {key : FunctionKey} (hdepth : s.depth < setup.callLevels)
    (hafford : s.Affords setup.options key) (h : setup.Leads (key :: chain) (s.called key) s') :
    setup.Leads chain s (s'.returned key) := by
  obtain ⟨new, h⟩ := h
  refine ⟨new ++ [⟨key, chain⟩], fun past => ?_⟩
  have hinside : ReflTransGen setup.Step ⟨past, chain, s⟩
      ⟨new ++ ⟨key, chain⟩ :: past, key :: chain, s'⟩ := .head (.enter key hdepth hafford) (h _)
  rw [List.append_assoc]
  exact hinside.tail (.leave key)

end Leads

end Setup

end FrozenGlobals
