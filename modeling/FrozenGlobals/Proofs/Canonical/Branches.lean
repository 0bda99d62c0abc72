import FrozenGlobals.Proofs.Canonical.Order
import Mathlib.Data.Finset.Card

/-!
# Branches of canonical text

Canonical text is written by `Heap.writeValue`, whose recursion is on the limit and which hands the
open containers down. `Heap.compose` writes the same text as a program with a store: the containers
in progress, the next number and the depth are changed in place and changed back behind each value,
and the recursion follows the values. Along the way it notes what it writes at each place, and every
container that it opens is put around the notes of what stands inside of it (`Heap.Note`). So the
containers around a note are those of its branch, whatever the store says.

The store and the text need no assumption (`Heap.follows_compose`): a value leaves the containers in
progress and the depth as it found them, and its text is that of `Heap.writeValue`. What the notes
say rests on the store being in order (`Heap.Progress.InOrder`), which opening a container keeps: a
branch opens a container at most once, goes back only to a container that it has open, and is cut
only where it has as many of them open as the limit allows (`Heap.Note.Fits`).

Without the limit writing would end as well. What decreases is the number of containers that are not
in progress, counted among those that the cells of the heap hold (`Heap.isSome_compose`).
-/

namespace FrozenGlobals.Heap

open Relation

/-! ## Writing with a store -/

/-- What is kept while writing: the containers in progress with their numbers, the next free number
and the depth. -/
structure Progress where
  opened : Open
  next : Nat
  depth : Nat

namespace Progress

/-- Nothing is in progress. -/
def start : Progress := ⟨[], 0, 0⟩

/-- Puts a container in progress under the next number. -/
def enter (p : Progress) (v : Value) : Progress :=
  { p with opened := (v, p.next) :: p.opened, next := p.next + 1 }

/-- Takes a container out of those in progress. -/
def leave (p : Progress) (v : Value) : Progress :=
  { p with opened := p.opened.filter fun (w, _) => w ≠ v }

def deeper (p : Progress) : Progress := { p with depth := p.depth + 1 }

def higher (p : Progress) : Progress := { p with depth := p.depth - 1 }

end Progress

/-- What is written at a place. -/
inductive Mark where
  | leaf
  /-- A container, with the number it is put in progress under. -/
  | opens (v : Value) (number : Nat)
  /-- The number of a container that is in progress. -/
  | back (v : Value) (number : Nat)
  /-- The truncation mark. -/
  | cut
deriving DecidableEq

/-- A place of the text: the containers that were opened around it with their numbers, innermost
first, and what is written there. -/
structure Note where
  around : Open
  mark : Mark
deriving DecidableEq

namespace Note

/-- The note with containers put around it. -/
def within (note : Note) (outer : Open) : Note := { note with around := note.around ++ outer }

/-- Containers may be put around a note one after another. -/
theorem within_within (note : Note) (inner outer : Open) :
    (note.within inner).within outer = note.within (inner ++ outer) := by
  simp [within]

end Note

/-- A text and the notes of its places. -/
structure Written where
  text : String
  notes : List Note
deriving DecidableEq

/-- Writers change what is kept, and fail when they run out of fuel. -/
abbrev Writer := StateT Progress Option

/-- Writes a set of possibilities, given how each is written. -/
def composeReference (compose : Value → Writer Written) (r : Reference) : Writer Written := do
  let parts ← r.values.mapM compose
  return ⟨"(" ++ "|".intercalate (sortedOnce (parts.map (·.text))) ++ ")", parts.flatMap (·.notes)⟩

/-- Writes a part behind the text in front of it. -/
def composePart (compose : Value → Writer Written) (part : String × Reference) :
    Writer Written := do
  let written ← composeReference compose part.2
  return { written with text := part.1 ++ written.text }

/-- Writes what stands inside of a container. -/
def composeParts (h : Heap) (compose : Value → Writer Written) (v : Value) : Writer Written := do
  let parts ← (h.parts v).mapM (composePart compose)
  return ⟨h.wrap v (parts.map (·.text)), parts.flatMap (·.notes)⟩

/-- Writes a value unless it is too deep. The fuel bounds the recursion and nothing else. -/
def compose (h : Heap) (limit : Nat) : (fuel : Nat) → Value → Writer Written
  | 0, _ => fun _ => none
  | fuel + 1, v => do
      if limit ≤ (← get).depth then
        return ⟨truncationMark, [⟨[], .cut⟩]⟩
      modify (·.deeper)
      let written ←
        if v.isContainer then
          match (← get).opened.lookup v with
          | some number => pure ⟨"#" ++ toString number, [⟨[], .back v number⟩]⟩
          | none => do
              let number := (← get).next
              modify (·.enter v)
              let inside ← h.composeParts (h.compose limit fuel) v
              modify (·.leave v)
              pure { inside with
                notes := ⟨[], .opens v number⟩ :: inside.notes.map (·.within [(v, number)]) }
        else pure ⟨h.leafText v, [⟨[], .leaf⟩]⟩
      modify (·.higher)
      return written

variable {h : Heap} {limit fuel : Nat} {p : Progress} {v : Value}

/-- At the limit a mark is written instead of a value. -/
theorem compose_cut (hdepth : limit ≤ p.depth) :
    (h.compose limit (fuel + 1) v).run p = some (⟨truncationMark, [⟨[], .cut⟩]⟩, p) := by
  simp [compose, hdepth]

/-- A value that is no container is written as its own text. -/
theorem compose_leaf (hdepth : p.depth < limit) (hv : ¬ v.isContainer = true) :
    (h.compose limit (fuel + 1) v).run p = some (⟨h.leafText v, [⟨[], .leaf⟩]⟩, p) := by
  simp [compose, Nat.not_le.2 hdepth, hv, Progress.deeper, Progress.higher]

/-- A container in progress is written as its number. -/
theorem compose_back (hdepth : p.depth < limit) (hv : v.isContainer = true) {number : Nat}
    (hopen : p.opened.lookup v = some number) :
    (h.compose limit (fuel + 1) v).run p =
      some (⟨"#" ++ toString number, [⟨[], .back v number⟩]⟩, p) := by
  simp [compose, Nat.not_le.2 hdepth, hv, hopen, Progress.deeper, Progress.higher]

/-- Around what a container holds it is in progress, and everything is one deeper. -/
theorem compose_opens (hdepth : p.depth < limit) (hv : v.isContainer = true)
    (hopen : p.opened.lookup v = none) :
    (h.compose limit (fuel + 1) v).run p =
      ((h.composeParts (h.compose limit fuel) v).run (p.deeper.enter v)).map fun (inside, q) =>
        ({ inside with
            notes := ⟨[], .opens v p.next⟩ :: inside.notes.map (·.within [(v, p.next)]) },
          (q.leave v).higher) := by
  simp only [compose, Progress.deeper, Progress.higher]
  simp [Nat.not_le.2 hdepth, hv, hopen, Option.map_eq_bind]

/-! ## One after another -/

section All

variable {α : Type} {f : α → Writer Written} {write : Nat → α → String × Nat} {opened : Open}
  {depth least : Nat} {good : Note → Prop}

/-- A writer that, whatever the next number from `least` on, leaves the containers in progress and
the depth as they are, writes what is expected and notes only what is good. -/
def Follows (write : Nat → α → String × Nat) (opened : Open) (depth least : Nat)
    (good : Note → Prop) (f : α → Writer Written) (a : α) : Prop :=
  ∀ n, least ≤ n → ∀ w q, (f a).run ⟨opened, n, depth⟩ = some (w, q) →
    q = ⟨opened, (write n a).2, depth⟩ ∧ n ≤ q.next ∧ w.text = (write n a).1 ∧
      ∀ note ∈ w.notes, good note

/-- Weaker conditions on notes follow from stronger ones. -/
theorem Follows.mono {good' : Note → Prop} {a : α}
    (hf : Follows write opened depth least good f a) (hgood : ∀ note, good note → good' note) :
    Follows write opened depth least good' f a := fun n hn w q hrun => by
  obtain ⟨hq, hle, htext, hnotes⟩ := hf n hn w q hrun
  exact ⟨hq, hle, htext, fun note hnote => hgood note (hnotes note hnote)⟩

/-- What is written one after another follows what each is written as. -/
theorem follows_mapM {l : List α} (hf : ∀ a ∈ l, Follows write opened depth least good f a)
    {n : Nat} (hn : least ≤ n) {ws : List Written} {q : Progress}
    (hrun : (l.mapM f).run ⟨opened, n, depth⟩ = some (ws, q)) :
    q = ⟨opened, (writeParts write n l).2, depth⟩ ∧ n ≤ q.next ∧
      ws.map (·.text) = (writeParts write n l).1 ∧ ∀ note ∈ ws.flatMap (·.notes), good note := by
  induction l generalizing n ws with
  | nil =>
    obtain ⟨rfl, rfl⟩ : [] = ws ∧ (⟨opened, n, depth⟩ : Progress) = q := by simpa using hrun
    exact ⟨rfl, le_rfl, rfl, by simp⟩
  | cons a l ih =>
    simp only [List.mapM_cons, StateT.run_bind, Option.bind_eq_bind, Option.bind_eq_some_iff,
      Prod.exists, StateT.run_pure, Option.pure_def, Option.some.injEq, Prod.mk.injEq] at hrun
    obtain ⟨w, p, ha, rest, _, hl, rfl, rfl⟩ := hrun
    obtain ⟨rfl, hle, htext, hgood⟩ := hf a List.mem_cons_self n hn w p ha
    obtain ⟨rfl, hle', htexts, hgoods⟩ :=
      ih (fun b hb => hf b (List.mem_cons_of_mem a hb)) (hn.trans hle) hl
    refine ⟨rfl, hle.trans hle', by simp [writeParts_cons, htext, htexts], fun note hnote => ?_⟩
    rw [List.flatMap_cons, List.mem_append] at hnote
    exact hnote.elim (hgood note) (hgoods note)

/-- Writing one after another ends if each does. -/
theorem isSome_mapM {l : List α} (hf : ∀ a ∈ l, Follows write opened depth 0 good f a)
    (hends : ∀ a ∈ l, ∀ n, ((f a).run ⟨opened, n, depth⟩).isSome) (n : Nat) :
    ((l.mapM f).run ⟨opened, n, depth⟩).isSome := by
  induction l generalizing n with
  | nil => simp
  | cons a l ih =>
    obtain ⟨⟨w, p⟩, ha⟩ := Option.isSome_iff_exists.1 (hends a List.mem_cons_self n)
    obtain ⟨rfl, -⟩ := hf a List.mem_cons_self n n.zero_le w p ha
    obtain ⟨⟨ws, q⟩, hl⟩ := Option.isSome_iff_exists.1
      (ih (fun b hb => hf b (List.mem_cons_of_mem a hb))
        (fun b hb => hends b (List.mem_cons_of_mem a hb)) (write n a).2)
    simp [List.mapM_cons, StateT.run_bind, ha, hl]

/-- A writer does what another one does wherever that one cuts nothing. -/
def Extends (f g : α → Writer Written) (a : α) : Prop :=
  ∀ p w q, (f a).run p = some (w, q) → (∀ note ∈ w.notes, note.mark ≠ .cut) →
    (g a).run p = some (w, q)

/-- Writers that extend others one by one extend them in sequence. -/
theorem extends_mapM {g : α → Writer Written} {l : List α} (hfg : ∀ a ∈ l, Extends f g a)
    {p q : Progress} {ws : List Written} (hrun : (l.mapM f).run p = some (ws, q))
    (huncut : ∀ note ∈ ws.flatMap (·.notes), note.mark ≠ .cut) :
    (l.mapM g).run p = some (ws, q) := by
  induction l generalizing p ws with
  | nil => simpa using hrun
  | cons a l ih =>
    simp only [List.mapM_cons, StateT.run_bind, Option.bind_eq_bind, Option.bind_eq_some_iff,
      Prod.exists, StateT.run_pure, Option.pure_def, Option.some.injEq, Prod.mk.injEq] at hrun
    obtain ⟨w, p', ha, rest, _, hl, rfl, rfl⟩ := hrun
    simp only [List.flatMap_cons, List.mem_append] at huncut
    have hga := hfg a List.mem_cons_self p w p' ha fun note hnote => huncut note (.inl hnote)
    have hgl := ih (fun b hb => hfg b (List.mem_cons_of_mem a hb)) hl
      fun note hnote => huncut note (.inr hnote)
    simp [List.mapM_cons, StateT.run_bind, hga, hgl]

end All

section Parts

variable {compose : Value → Writer Written} {write : Nat → Value → String × Nat} {opened : Open}
  {depth least : Nat} {good : Note → Prop}

/-- Writing a reference follows what its possibilities are written as. -/
theorem follows_composeReference {r : Reference}
    (hr : ∀ v ∈ r, Follows write opened depth least good compose v) :
    Follows (writeReference write) opened depth least good (composeReference compose) r := by
  intro n hn w q hrun
  simp only [composeReference, StateT.run_bind, Option.bind_eq_bind, Option.bind_eq_some_iff,
    Prod.exists, StateT.run_pure, Option.pure_def, Option.some.injEq, Prod.mk.injEq] at hrun
  obtain ⟨ws, p, hws, rfl, rfl⟩ := hrun
  obtain ⟨rfl, hle, htexts, hgood⟩ := follows_mapM hr hn hws
  exact ⟨rfl, hle, by simp only [writeReference, htexts], hgood⟩

/-- Writing a part follows what its possibilities are written as. -/
theorem follows_composePart {part : String × Reference}
    (hpart : ∀ v ∈ part.2, Follows write opened depth least good compose v) :
    Follows (writePart write) opened depth least good (composePart compose) part := by
  intro n hn w q hrun
  simp only [composePart, StateT.run_bind, Option.bind_eq_bind, Option.bind_eq_some_iff,
    Prod.exists, StateT.run_pure, Option.pure_def, Option.some.injEq, Prod.mk.injEq] at hrun
  obtain ⟨u, p, hu, rfl, rfl⟩ := hrun
  obtain ⟨rfl, hle, htext, hgood⟩ := follows_composeReference hpart n hn u p hu
  exact ⟨rfl, hle, by simp only [writePart, htext], hgood⟩

/-- The inside of a container follows what it holds. -/
theorem follows_composeParts (hheld : ∀ w, h.Holds v w →
      Follows write opened depth least good compose w) :
    Follows (fun n v => (h.wrap v (writeParts (writePart write) n (h.parts v)).1,
      (writeParts (writePart write) n (h.parts v)).2)) opened depth least good
      (h.composeParts compose) v := by
  intro n hn w q hrun
  simp only [composeParts, StateT.run_bind, Option.bind_eq_bind, Option.bind_eq_some_iff,
    Prod.exists, StateT.run_pure, Option.pure_def, Option.some.injEq, Prod.mk.injEq] at hrun
  obtain ⟨ws, p, hws, rfl, rfl⟩ := hrun
  have hparts : ∀ part ∈ h.parts v, Follows (writePart write) opened depth least good
      (composePart compose) part := fun part hpart =>
    follows_composePart fun w hw => hheld w ⟨part, hpart, hw⟩
  obtain ⟨rfl, hle, htexts, hgood⟩ := follows_mapM hparts hn hws
  exact ⟨rfl, hle, by simp only [htexts], hgood⟩

/-- Writing a reference ends if writing its possibilities does. -/
theorem isSome_composeReference {r : Reference}
    (hr : ∀ v ∈ r, Follows write opened depth 0 good compose v)
    (hends : ∀ v ∈ r, ∀ n, ((compose v).run ⟨opened, n, depth⟩).isSome) (n : Nat) :
    ((composeReference compose r).run ⟨opened, n, depth⟩).isSome := by
  obtain ⟨_, hws⟩ := Option.isSome_iff_exists.1 (isSome_mapM hr hends n)
  simp [composeReference, hws]

/-- Writing the inside of a container ends if writing what it holds does. -/
theorem isSome_composeParts (hheld : ∀ w, h.Holds v w → Follows write opened depth 0 good compose w)
    (hends : ∀ w, h.Holds v w → ∀ n, ((compose w).run ⟨opened, n, depth⟩).isSome) (n : Nat) :
    ((h.composeParts compose v).run ⟨opened, n, depth⟩).isSome := by
  have hpart : ∀ part ∈ h.parts v, ∀ n,
      ((composePart compose part).run ⟨opened, n, depth⟩).isSome := by
    intro part hpart n
    obtain ⟨_, hu⟩ := Option.isSome_iff_exists.1 (isSome_composeReference
      (fun w hw => hheld w ⟨part, hpart, hw⟩) (fun w hw => hends w ⟨part, hpart, hw⟩) n)
    simp [composePart, hu]
  obtain ⟨_, hws⟩ := Option.isSome_iff_exists.1 (isSome_mapM (fun part hmem =>
    follows_composePart fun w hw => hheld w ⟨part, hmem, hw⟩) hpart n)
  simp [composeParts, hws]

variable {compose' : Value → Writer Written}

/-- Writing a reference extends another way of writing it if its possibilities do. -/
theorem extends_composeReference {r : Reference} (hr : ∀ v ∈ r, Extends compose compose' v) :
    Extends (composeReference compose) (composeReference compose') r := by
  intro p w q hrun huncut
  simp only [composeReference, StateT.run_bind, Option.bind_eq_bind, Option.bind_eq_some_iff,
    Prod.exists, StateT.run_pure, Option.pure_def, Option.some.injEq, Prod.mk.injEq] at hrun
  obtain ⟨ws, _, hws, rfl, rfl⟩ := hrun
  simp [composeReference, extends_mapM hr hws huncut]

/-- Writing the inside of a container extends another way of writing it if what it holds does. -/
theorem extends_composeParts (hheld : ∀ w, h.Holds v w → Extends compose compose' w) :
    Extends (h.composeParts compose) (h.composeParts compose') v := by
  have hpart : ∀ part ∈ h.parts v, Extends (composePart compose) (composePart compose') part := by
    intro part hpart p w q hrun huncut
    simp only [composePart, StateT.run_bind, Option.bind_eq_bind, Option.bind_eq_some_iff,
      Prod.exists, StateT.run_pure, Option.pure_def, Option.some.injEq, Prod.mk.injEq] at hrun
    obtain ⟨u, _, hu, rfl, rfl⟩ := hrun
    simp [composePart, extends_composeReference (fun w hw => hheld w ⟨part, hpart, hw⟩) p u _ hu
      huncut]
  intro p w q hrun huncut
  simp only [composeParts, StateT.run_bind, Option.bind_eq_bind, Option.bind_eq_some_iff,
    Prod.exists, StateT.run_pure, Option.pure_def, Option.some.injEq, Prod.mk.injEq] at hrun
  obtain ⟨ws, _, hws, rfl, rfl⟩ := hrun
  simp [composeParts, extends_mapM hpart hws huncut]

end Parts

/-! ## What is in order -/

/-- A value that writing a reference may come to. -/
def ReachedFrom (h : Heap) (r : Reference) (v : Value) : Prop :=
  ∃ w ∈ r, ReflTransGen h.Holds w v

/-- What is held by what is reached is reached. -/
theorem ReachedFrom.held {r : Reference} {w : Value} (hv : h.ReachedFrom r v) (hvw : h.Holds v w) :
    h.ReachedFrom r w := by
  obtain ⟨u, hu, huv⟩ := hv
  exact ⟨u, hu, huv.tail hvw⟩

/-- Containers that are open around each other: each once and under a number of its own, and all of
them reachable. -/
structure Open.Chain (h : Heap) (r : Reference) (opened : Open) : Prop where
  containers : (opened.map Prod.fst).Nodup
  numbers : (opened.map Prod.snd).Nodup
  reachable : ∀ v ∈ opened.map Prod.fst, v.isContainer = true ∧ h.ReachedFrom r v

/-- The containers in progress stand around each other, are as many as the depth says, which the
limit allows, and have numbers that are not free. -/
structure Progress.InOrder (h : Heap) (limit : Nat) (r : Reference) (p : Progress) : Prop where
  chain : p.opened.Chain h r
  taken : ∀ number ∈ p.opened.map Prod.snd, number < p.next
  depth : p.depth = p.opened.length
  within : p.depth ≤ limit

/-- A note that is right about its branch: the containers around it stand around each other, one
that is opened is none of them and gets a number of its own, one that is named is one of them, and
where the text is cut they are as many as the limit. -/
structure Note.Fits (h : Heap) (limit : Nat) (r : Reference) (note : Note) : Prop where
  chain : note.around.Chain h r
  opens : ∀ v number, note.mark = .opens v number → Open.Chain h r ((v, number) :: note.around)
  back : ∀ v number, note.mark = .back v number → (v, number) ∈ note.around
  cut : note.mark = .cut → note.around.length = limit

/-- Later numbers are as good as earlier ones. -/
theorem Progress.InOrder.later {r : Reference} {opened : Open} {n m depth : Nat} (hnm : n ≤ m)
    (hp : (⟨opened, n, depth⟩ : Progress).InOrder h limit r) :
    (⟨opened, m, depth⟩ : Progress).InOrder h limit r :=
  { hp with taken := fun number hnumber => (hp.taken number hnumber).trans_le hnm }

/-- Opening a container that is not in progress keeps things in order. -/
theorem Progress.InOrder.enter {r : Reference} (hp : p.InOrder h limit r)
    (hdepth : p.depth < limit) (hv : v.isContainer = true) (hopen : p.opened.lookup v = none)
    (hreach : h.ReachedFrom r v) : (p.deeper.enter v).InOrder h limit r where
  chain := by
    have hnumber : p.next ∉ p.opened.map Prod.snd := fun hmem => (hp.taken _ hmem).false
    refine ⟨List.nodup_cons.2 ⟨lookup_eq_none_iff.1 hopen, hp.chain.containers⟩,
      List.nodup_cons.2 ⟨hnumber, hp.chain.numbers⟩, fun w hw => ?_⟩
    obtain rfl | hw := List.mem_cons.1 hw
    · exact ⟨hv, hreach⟩
    · exact hp.chain.reachable w hw
  taken := fun number hnumber => by
    obtain rfl | hnumber := List.mem_cons.1 hnumber
    · exact Nat.lt_succ_self _
    · exact (hp.taken number hnumber).trans (Nat.lt_succ_self _)
  depth := by simp [Progress.enter, Progress.deeper, hp.depth]
  within := hdepth

/-- What is entered is left as it was found. -/
theorem leave_enter (hopen : p.opened.lookup v = none) (next : Nat) :
    (Progress.leave ⟨(v, p.next) :: p.opened, next, p.depth + 1⟩ v).higher =
      ⟨p.opened, next, p.depth⟩ := by
  have hothers : ∀ (w : Value) (number : Nat), (w, number) ∈ p.opened → w ≠ v := by
    rintro w number hentry rfl
    exact lookup_eq_none_iff.1 hopen (List.mem_map_of_mem hentry)
  simpa [Progress.leave, Progress.higher] using hothers

/-! ## Notes that fit -/

namespace Note

variable {r : Reference}

/-- A leaf fits wherever things are in order. -/
theorem fits_leaf (hp : p.InOrder h limit r) : (Note.mk p.opened .leaf).Fits h limit r :=
  ⟨hp.chain, nofun, nofun, nofun⟩

/-- A container that was not in progress fits where it is opened. -/
theorem fits_opens (hp : p.InOrder h limit r) (hnew : (p.deeper.enter v).InOrder h limit r) :
    (Note.mk p.opened (.opens v p.next)).Fits h limit r where
  chain := hp.chain
  opens := fun _ _ heq => by cases heq; exact hnew.chain
  back := nofun
  cut := nofun

/-- A back-reference fits if the container it names is in progress. -/
theorem fits_back (hp : p.InOrder h limit r) {number : Nat}
    (hopen : p.opened.lookup v = some number) :
    (Note.mk p.opened (.back v number)).Fits h limit r where
  chain := hp.chain
  opens := nofun
  back := fun _ _ heq => by
    cases heq
    obtain ⟨before, behind, heq, -⟩ := List.lookup_eq_some_iff.1 hopen
    simp [heq]
  cut := nofun

/-- The text fits where it is cut, since the depth is the number of containers around. -/
theorem fits_cut (hp : p.InOrder h limit r) (hdepth : limit ≤ p.depth) :
    (Note.mk p.opened .cut).Fits h limit r where
  chain := hp.chain
  opens := nofun
  back := nofun
  cut := fun _ => hp.depth.symm.trans (hp.within.antisymm hdepth)

end Note

/-- Writing with a store leaves the containers in progress and the depth as it found them, writes
what `Heap.writeValue` writes, and, if things are in order, notes what is right about its branch. -/
theorem follows_compose (h : Heap) (limit fuel : Nat) (r : Reference) (opened : Open)
    (depth least : Nat) (v : Value) :
    Follows (h.writeValue (limit - depth) opened) opened depth least
      (fun note => (⟨opened, least, depth⟩ : Progress).InOrder h limit r → h.ReachedFrom r v →
        (note.within opened).Fits h limit r) (h.compose limit fuel) v := by
  induction fuel generalizing opened depth least v with
  | zero =>
    intro n _ w q hrun
    cases hrun
  | succ fuel ih =>
    intro n hn w q hrun
    by_cases hdepth : depth < limit
    · obtain ⟨room, hroom⟩ : ∃ room, limit - depth = room + 1 := ⟨limit - depth - 1, by omega⟩
      have hroom' : limit - (depth + 1) = room := by omega
      rw [hroom]
      by_cases hv : v.isContainer = true
      · cases hopen : opened.lookup v with
        | some number =>
          rw [compose_back hdepth hv hopen] at hrun
          cases hrun
          rw [writeValue_opened hv hopen]
          refine ⟨rfl, le_rfl, rfl, fun note hnote hp _ => ?_⟩
          obtain rfl := List.mem_singleton.1 hnote
          exact Note.fits_back hp hopen
        | none =>
          -- Things are in order inside as well, so what is noted there fits.
          have henter : (⟨opened, least, depth⟩ : Progress).InOrder h limit r →
              h.ReachedFrom r v →
              (⟨(v, n) :: opened, n + 1, depth + 1⟩ : Progress).InOrder h limit r :=
            fun hp hreach => (hp.later hn).enter hdepth hv hopen hreach
          have hheld := follows_composeParts (h := h) (v := v) fun w hw =>
            (ih ((v, n) :: opened) (depth + 1) (n + 1) w).mono fun note hnote
              (hp : (⟨opened, least, depth⟩ : Progress).InOrder h limit r)
              (hreach : h.ReachedFrom r v) => hnote (henter hp hreach) (hreach.held hw)
          rw [compose_opens hdepth hv hopen] at hrun
          obtain ⟨⟨inside, p⟩, hinside, heq⟩ := Option.map_eq_some_iff.1 hrun
          cases heq
          obtain ⟨rfl, hle, htext, hnotes⟩ := hheld (n + 1) le_rfl inside p hinside
          rw [hroom'] at htext
          rw [writeValue_container hv hopen, hroom',
            leave_enter (p := ⟨opened, n, depth⟩) hopen]
          refine ⟨rfl, (Nat.le_succ n).trans (hroom' ▸ hle), htext, fun note hnote hp hreach => ?_⟩
          obtain rfl | hnote := List.mem_cons.1 hnote
          · exact Note.fits_opens (hp.later hn) (henter hp hreach)
          · obtain ⟨inner, hinner, rfl⟩ := List.mem_map.1 hnote
            rw [Note.within_within]
            exact hnotes inner hinner hp hreach
      · rw [compose_leaf hdepth hv] at hrun
        cases hrun
        rw [writeValue_leaf hv]
        refine ⟨rfl, le_rfl, rfl, fun note hnote hp _ => ?_⟩
        obtain rfl := List.mem_singleton.1 hnote
        exact Note.fits_leaf hp
    · have hroom : limit - depth = 0 := by omega
      rw [compose_cut (Nat.not_lt.1 hdepth)] at hrun
      cases hrun
      rw [hroom, writeValue_zero]
      refine ⟨rfl, le_rfl, rfl, fun note hnote hp _ => ?_⟩
      obtain rfl := List.mem_singleton.1 hnote
      exact Note.fits_cut hp (Nat.not_lt.1 hdepth)

/-- With a store the same text is written as without one. -/
theorem follows_writeValue (limit fuel : Nat) (opened : Open) (depth : Nat) (v : Value) :
    Follows (h.writeValue (limit - depth) opened) opened depth 0 (fun _ => True)
      (h.compose limit fuel) v :=
  (follows_compose h limit fuel .empty opened depth 0 v).mono fun _ _ => trivial

/-! ## Writing ends -/

/-- What the cells hold. -/
def stored (h : Heap) : List Value :=
  (((List.range h.objects.size).map Value.object ++
    (List.range h.arrays.size).map Value.array).flatMap h.parts).flatMap (·.2.values)

/-- Containers without a cell hold nothing. -/
theorem mem_stored {w : Value} (hvw : h.Holds v w) : w ∈ h.stored := by
  obtain ⟨part, hpart, hw⟩ := hvw
  refine List.mem_flatMap.2 ⟨part, List.mem_flatMap.2 ⟨v, ?_, hpart⟩, hw⟩
  cases v with
  | object id =>
    have hid : id < h.objects.size := by
      by_contra hid
      simp [parts, object, Array.getElem?_eq_none (Nat.not_lt.1 hid), ObjectCell.empty,
        ObjectCell.keys] at hpart
    simpa using hid
  | array id =>
    have hid : id < h.arrays.size := by
      by_contra hid
      simp only [parts, array, Array.getElem?_eq_none (Nat.not_lt.1 hid), Option.getD_none,
        List.mem_singleton] at hpart
      subst hpart
      exact absurd hw (Reference.not_mem_empty w)
    simpa using hid
  | primitive p => cases hpart
  | function id => cases hpart
  | intrinsic i => cases hpart
  | builtin b => cases hpart

/-- Writing ends: every container that is entered is one less that is not in progress, and what it
holds is among them. -/
theorem isSome_compose (h : Heap) (limit fuel : Nat) (all : Finset Value)
    (hclosed : ∀ v w, h.Holds v w → w ∈ all) (opened : Open) (n depth : Nat) (v : Value)
    (hv : v ∈ all) (hfuel : (all \ (opened.map Prod.fst).toFinset).card < fuel) :
    ((h.compose limit fuel v).run ⟨opened, n, depth⟩).isSome := by
  induction fuel generalizing opened n depth v with
  | zero => cases hfuel
  | succ fuel ih =>
    by_cases hdepth : depth < limit
    · by_cases hcontainer : v.isContainer = true
      · cases hopen : opened.lookup v with
        | some number => rw [compose_back hdepth hcontainer hopen]; rfl
        | none =>
          have hless : (all \ (((v, n) :: opened).map Prod.fst).toFinset).card < fuel := by
            refine Nat.lt_of_lt_of_le (Finset.card_lt_card ?_) (Nat.le_of_lt_succ hfuel)
            rw [List.map_cons, List.toFinset_cons, Finset.sdiff_insert]
            exact Finset.erase_ssubset (by simpa [hv] using lookup_eq_none_iff.1 hopen)
          have hinside := isSome_composeParts (h := h) (v := v)
            (fun w _ => follows_writeValue limit fuel ((v, n) :: opened) (depth + 1) w)
            (fun w hw m => ih _ m _ w (hclosed v w hw) hless) (n + 1)
          rw [compose_opens hdepth hcontainer hopen, Option.isSome_map]
          exact hinside
      · rw [compose_leaf hdepth hcontainer]; rfl
    · rw [compose_cut (Nat.not_lt.1 hdepth)]; rfl

/-- Where nothing is cut the limit makes no difference. -/
theorem extends_compose {limit' : Nat} (hlimit : limit ≤ limit') (fuel : Nat) (v : Value) :
    Extends (h.compose limit fuel) (h.compose limit' fuel) v := by
  induction fuel generalizing v with
  | zero => intro p w q hrun; cases hrun
  | succ fuel ih =>
    intro p w q hrun huncut
    by_cases hdepth : p.depth < limit
    · have hdepth' : p.depth < limit' := hdepth.trans_le hlimit
      by_cases hcontainer : v.isContainer = true
      · cases hopen : p.opened.lookup v with
        | some number =>
          rw [compose_back hdepth hcontainer hopen] at hrun
          rw [compose_back hdepth' hcontainer hopen, hrun]
        | none =>
          rw [compose_opens hdepth hcontainer hopen] at hrun
          rw [compose_opens hdepth' hcontainer hopen]
          obtain ⟨⟨inside, p'⟩, hinside, heq⟩ := Option.map_eq_some_iff.1 hrun
          cases heq
          have huncut' : ∀ note ∈ inside.notes, note.mark ≠ .cut := fun note hnote =>
            huncut (note.within [(v, p.next)])
              (List.mem_cons_of_mem _ (List.mem_map.2 ⟨note, hnote, rfl⟩))
          rw [extends_composeParts (fun w _ => ih w) _ inside p' hinside huncut']
          rfl
      · rw [compose_leaf hdepth hcontainer] at hrun
        rw [compose_leaf hdepth' hcontainer, hrun]
    · rw [compose_cut (Nat.not_lt.1 hdepth)] at hrun
      cases hrun
      exact absurd rfl (huncut _ (List.mem_singleton_self _))

/-! ## Whole renderings -/

/-- In the beginning things are in order: nothing is in progress. -/
theorem Progress.inOrder_start (h : Heap) (limit : Nat) (r : Reference) :
    Progress.start.InOrder h limit r :=
  ⟨⟨.nil, .nil, nofun⟩, nofun, rfl, limit.zero_le⟩

/-- Writing a reference ends, with as much fuel as there are values to come to, whatever the limit.
-/
theorem exists_composeReference (h : Heap) (r : Reference) :
    ∃ enough, ∀ limit fuel, enough ≤ fuel → ∃ w next,
      (composeReference (h.compose limit fuel) r).run .start = some (w, ⟨[], next, 0⟩) ∧
      w.text = h.textWithin limit r ∧ ∀ note ∈ w.notes, note.Fits h limit r := by
  let all := (r.values ++ h.stored).toFinset
  refine ⟨all.card + 1, fun limit fuel hfuel => ?_⟩
  have hends : ∀ v ∈ r, ∀ n, ((h.compose limit fuel v).run ⟨[], n, 0⟩).isSome := by
    intro v hv n
    refine isSome_compose h limit fuel all (fun _ w hw => ?_) [] n 0 v ?_ ?_
    · exact List.mem_toFinset.2 (List.mem_append_right _ (mem_stored hw))
    · exact List.mem_toFinset.2 (List.mem_append_left _ hv)
    · simpa using Nat.lt_of_succ_le hfuel
  obtain ⟨⟨w, q⟩, hrun⟩ := Option.isSome_iff_exists.1 (isSome_composeReference
    (fun v _ => follows_writeValue limit fuel [] 0 v) hends 0)
  have hfollows := follows_composeReference (r := r) fun v hv =>
    (follows_compose h limit fuel r [] 0 0 v).mono fun note hnote =>
      hnote (Progress.inOrder_start h limit r) ⟨v, hv, .refl⟩
  obtain ⟨rfl, -, htext, hfits⟩ := hfollows 0 le_rfl w q hrun
  refine ⟨w, _, hrun, htext, fun note hnote => ?_⟩
  simpa [Note.within] using hfits note hnote

/-- Canonical text is written to the end on every heap, and the limit is not what ends it.

A value leaves the containers in progress and the depth as it found them. With fuel enough for the
heap, which does not depend on the limit, a reference is written to the end as `Heap.textWithin`
writes it. Each note is right about its branch: containers are opened once along it, and a number
that is written again is that of a container open there. The text is cut only where as many
different containers as the limit can be reached, which are 1000 for `Heap.text`; where it is not
cut every greater limit gives the same text. -/
theorem text_written_to_end (h : Heap) (r : Reference) :
    (∀ limit fuel v p w q, (h.compose limit fuel v).run p = some (w, q) →
      q.opened = p.opened ∧ q.depth = p.depth) ∧
    ∃ enough, ∀ limit fuel, enough ≤ fuel → ∃ w next,
      (composeReference (h.compose limit fuel) r).run .start = some (w, ⟨[], next, 0⟩) ∧
      w.text = h.textWithin limit r ∧
      (∀ note ∈ w.notes, note.Fits h limit r) ∧
      ((∃ note ∈ w.notes, note.mark = .cut) → ∃ containers : List Value,
        containers.Nodup ∧ containers.length = limit ∧
        ∀ v ∈ containers, v.isContainer = true ∧ h.ReachedFrom r v) ∧
      ((∀ note ∈ w.notes, note.mark ≠ .cut) → ∀ limit' ≥ limit,
        h.textWithin limit' r = h.textWithin limit r) := by
  refine ⟨fun limit fuel v p w q hrun => ?_, ?_⟩
  · obtain ⟨rfl, -⟩ :=
      follows_writeValue limit fuel p.opened p.depth v p.next p.next.zero_le w q hrun
    exact ⟨rfl, rfl⟩
  · obtain ⟨enough, hends⟩ := exists_composeReference h r
    refine ⟨enough, fun limit fuel hfuel => ?_⟩
    obtain ⟨w, next, hrun, htext, hfits⟩ := hends limit fuel hfuel
    refine ⟨w, next, hrun, htext, hfits, ?_, fun huncut limit' hlimit => ?_⟩
    · rintro ⟨note, hnote, hcut⟩
      have hnoteFits := hfits note hnote
      exact ⟨note.around.map Prod.fst, hnoteFits.chain.containers,
        (List.length_map _).trans (hnoteFits.cut hcut), hnoteFits.chain.reachable⟩
    · obtain ⟨w', next', hrun', htext', -⟩ := hends limit' fuel hfuel
      have hsame := extends_composeReference (fun v _ => extends_compose hlimit fuel v) _ _ _ hrun
        huncut
      obtain ⟨rfl, -⟩ := Prod.mk.inj (Option.some.inj (hrun'.symm.trans hsame))
      rw [← htext', htext]

/-- An object that holds itself is opened around what is written of it inside. -/
theorem composeReference_loop (limit fuel : Nat) (hlimit : 0 < limit) {text : String} {note : Note}
    (hinner : (loop.compose limit fuel (.object 1)).run ⟨[(.object 1, 0)], 1, 1⟩ =
      some (⟨text, [note]⟩, ⟨[(.object 1, 0)], 1, 1⟩)) :
    (composeReference (loop.compose limit (fuel + 1)) (.single (.object 1))).run .start =
      some (⟨"(\x7b\"self\":(" ++ text ++ ")\x7d)",
        [⟨[], .opens (.object 1) 0⟩, note.within [(.object 1, 0)]]⟩, ⟨[], 1, 0⟩) := by
  have hself : loop.parts (.object 1) = [("\"self\":", .single (.object 1))] := by
    have hquote : Text.quote "self" ++ ":" = "\"self\":" := by decide
    simp [parts, loop, object, ObjectCell.keys, ObjectCell.slot?, hquote]
  have hone : ∀ t, sortedOnce [t] = [t] := fun t =>
    sortedOnce_of_pairwise (List.pairwise_singleton _ t)
  have houter := @compose_opens loop limit fuel .start (.object 1) hlimit rfl rfl
  simp only [Progress.start, Progress.deeper, Progress.enter, composeParts, composePart,
    composeReference, hself, Reference.single, List.mapM_cons, List.mapM_nil] at houter ⊢
  simp [hinner, houter, hone, wrap, Progress.leave, Progress.higher, ← String.toList_inj]

/-- What is written of an object that holds itself: it is opened once, and inside of it stands its
number, or the truncation mark where one container is all that the limit allows. -/
theorem text_written_to_end_loop :
    (∀ fuel, (composeReference (loop.compose nestingLimit (fuel + 2)) (.single (.object 1))).run
      .start = some (⟨"(\x7b\"self\":(#0)\x7d)",
        [⟨[], .opens (.object 1) 0⟩, ⟨[(.object 1, 0)], .back (.object 1) 0⟩]⟩, ⟨[], 1, 0⟩)) ∧
    (∀ fuel, (composeReference (loop.compose 1 (fuel + 2)) (.single (.object 1))).run
      .start = some (⟨"(\x7b\"self\":(…)\x7d)",
        [⟨[], .opens (.object 1) 0⟩, ⟨[(.object 1, 0)], .cut⟩]⟩, ⟨[], 1, 0⟩)) ∧
    (∀ limit ≥ nestingLimit,
      loop.textWithin limit (.single (.object 1)) = "(\x7b\"self\":(#0)\x7d)") ∧
    ∃ containers : List Value, containers.Nodup ∧ containers.length = 1 ∧
      ∀ v ∈ containers, v.isContainer = true ∧ loop.ReachedFrom (.single (.object 1)) v := by
  have hwhole := fun fuel => composeReference_loop nestingLimit (fuel + 1) (by decide)
    (compose_back (by decide) rfl rfl)
  have hcut := fun fuel => composeReference_loop 1 (fuel + 1) (by decide) (compose_cut le_rfl)
  obtain ⟨enough, hends⟩ := (text_written_to_end loop (.single (.object 1))).2
  obtain ⟨w, next, hrun, htext, -, -, huncut⟩ := hends nestingLimit (enough + 2) (by omega)
  obtain ⟨rfl, -⟩ := Prod.mk.inj (Option.some.inj ((hwhole enough).symm.trans hrun))
  obtain ⟨w', next', hrun', -, -, hmany, -⟩ := hends 1 (enough + 2) (by omega)
  obtain ⟨rfl, -⟩ := Prod.mk.inj (Option.some.inj ((hcut enough).symm.trans hrun'))
  refine ⟨hwhole, hcut, fun limit hlimit => ?_,
    hmany ⟨⟨[(.object 1, 0)], .cut⟩, List.mem_cons_of_mem _ (List.mem_singleton_self _), rfl⟩⟩
  rw [huncut (by simp [Note.within]) limit hlimit, ← htext]
  rfl

end FrozenGlobals.Heap
