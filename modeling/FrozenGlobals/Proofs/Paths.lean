import FrozenGlobals.Lint
import FrozenGlobals.Proofs.Text.Quoting

/-!
# Paths and their texts

The text of a path can be read back: a name behind a point ends before the next point or bracket, a
quoted name ends where its quotes do, and the point missing at the front is put back when the text
starts with neither mark (`Path.render_injective`). Handlers are looked up by the text of a path, so
those registered for one path are served for that path and for no other
(`Lint.Extension.serves_own_path`).
-/

namespace FrozenGlobals

namespace Segment

/-- Characters of names that can stand behind a point. -/
def isWordChar (c : Char) : Bool := c.isAlphanum || c == '_'

/-- What can follow a segment: nothing, or the mark in front of the next one. -/
def Follows (rest : List Char) : Prop := ∀ c ∈ rest.head?, c = '.' ∨ c = '['

/-- A name can stand behind a point if it consists of letters, digits and underscores. -/
theorem isWord_iff {name : String} :
    isWord name = true ↔ name.toList ≠ [] ∧ ∀ c ∈ name.toList, isWordChar c := by
  simp [isWord, isWordChar]

/-- A name behind a point ends before the first character that is not part of a name. -/
theorem word_append_inj {m n r u : List Char} (hm : ∀ c ∈ m, isWordChar c)
    (hn : ∀ c ∈ n, isWordChar c) (hr : Follows r) (hu : Follows u) (h : m ++ r = n ++ u) :
    m = n ∧ r = u := by
  have hstop : ∀ rest, Follows rest → rest.takeWhile isWordChar = [] := by
    intro rest hrest
    cases rest with
    | nil => rfl
    | cons c rest =>
      obtain rfl | rfl := hrest c (by simp) <;> rfl
  have htake := congrArg (List.takeWhile isWordChar) h
  rw [List.takeWhile_append_of_pos hm, List.takeWhile_append_of_pos hn, hstop r hr, hstop u hu,
    List.append_nil, List.append_nil] at htake
  subst htake
  exact ⟨rfl, List.append_cancel_left h⟩

/-- A word is written behind a point. -/
theorem toList_render_word {name : String} (h : isWord name = true) :
    (Segment.key name).render.toList = '.' :: name.toList := by
  simp [render, h]

/-- Any other name is written in quotes between brackets. -/
theorem toList_render_quoted {name : String} (h : ¬ isWord name = true) (rest : List Char) :
    (Segment.key name).render.toList ++ rest =
      '[' :: ((Text.quote name).toList ++ ']' :: rest) := by
  simp [render, h]

/-- The wildcard is written as a star between brackets. -/
theorem toList_render_any (rest : List Char) :
    Segment.any.render.toList ++ rest = '[' :: '*' :: ']' :: rest := rfl

/-- Quoted names do not start like the wildcard. -/
theorem quote_append_ne_star (name : String) (rest tail : List Char) :
    (Text.quote name).toList ++ rest ≠ '*' :: tail := by
  simp [Text.quote, Text.toList_quotePieces]

/-- The first segment of a text can be read, and so can what follows it. -/
theorem render_append_inj {s t : Segment} {r u : List Char} (hr : Follows r) (hu : Follows u)
    (h : s.render.toList ++ r = t.render.toList ++ u) : s = t ∧ r = u := by
  cases s with
  | any =>
    cases t with
    | any => exact ⟨rfl, List.append_cancel_left h⟩
    | key n =>
      by_cases hn : isWord n = true
      · simp [toList_render_any, toList_render_word hn] at h
      · rw [toList_render_any, toList_render_quoted hn, List.cons.injEq] at h
        exact absurd h.2.symm (quote_append_ne_star n _ _)
  | key m =>
    by_cases hm : isWord m = true
    · cases t with
      | any => simp [toList_render_any, toList_render_word hm] at h
      | key n =>
        by_cases hn : isWord n = true
        · rw [toList_render_word hm, toList_render_word hn, List.cons_append, List.cons_append,
            List.cons.injEq] at h
          obtain ⟨hname, hrest⟩ :=
            word_append_inj (isWord_iff.1 hm).2 (isWord_iff.1 hn).2 hr hu h.2
          exact ⟨by rw [String.toList_inj.1 hname], hrest⟩
        · simp [toList_render_word hm, toList_render_quoted hn] at h
    · cases t with
      | any =>
        rw [toList_render_any, toList_render_quoted hm, List.cons.injEq] at h
        exact absurd h.2 (quote_append_ne_star m _ _)
      | key n =>
        by_cases hn : isWord n = true
        · simp [toList_render_word hn, toList_render_quoted hm] at h
        · rw [toList_render_quoted hm, toList_render_quoted hn, List.cons.injEq] at h
          obtain ⟨rfl, hrest⟩ := Text.quote_append_inj h.2
          exact ⟨rfl, (List.cons.inj hrest).2⟩

/-- A segment starts with a point and a letter, or with a bracket. -/
theorem render_starts (s : Segment) :
    (∃ c rest, s.render.toList = '.' :: c :: rest ∧ isWordChar c = true) ∨
      ∃ rest, s.render.toList = '[' :: rest := by
  cases s with
  | any => exact .inr ⟨_, rfl⟩
  | key name =>
    by_cases h : isWord name = true
    · obtain ⟨hne, hall⟩ := isWord_iff.1 h
      obtain ⟨c, rest, hname⟩ := List.exists_cons_of_ne_nil hne
      exact .inl ⟨c, rest, by rw [toList_render_word h, hname],
        hall c (hname ▸ List.mem_cons_self)⟩
    · exact .inr ⟨_, by simpa using toList_render_quoted h []⟩

end Segment

namespace Path

/-- The text of a path with the point at its front. -/
def marked (p : Path) : List Char := p.flatMap fun s => s.render.toList

/-- Segments are written one after another. -/
theorem marked_cons (s : Segment) (p : Path) : marked (s :: p) = s.render.toList ++ marked p := rfl

/-- After a segment the text ends, or the next one begins with its mark. -/
theorem follows_marked (p : Path) : Segment.Follows (marked p) := by
  cases p with
  | nil => simp [marked, Segment.Follows]
  | cons s p =>
    rw [marked_cons]
    obtain ⟨c, rest, h, -⟩ | ⟨rest, h⟩ := s.render_starts <;> simp [h, Segment.Follows]

/-- With the point at the front, different paths have different texts. -/
theorem marked_injective : Function.Injective marked := by
  intro p q h
  have hne : ∀ (s : Segment) (p : Path), marked (s :: p) ≠ [] := by
    intro s p
    rw [marked_cons]
    obtain ⟨c, rest, h, -⟩ | ⟨rest, h⟩ := s.render_starts <;> simp [h]
  induction p generalizing q with
  | nil =>
    cases q with
    | nil => rfl
    | cons t q => exact absurd h.symm (hne t q)
  | cons s p ih =>
    cases q with
    | nil => exact absurd h (hne s p)
    | cons t q =>
      obtain ⟨rfl, hrest⟩ :=
        Segment.render_append_inj (follows_marked p) (follows_marked q) h
      rw [ih hrest]

/-- The text of a path is the marked text without a point at its front. -/
theorem toList_render (p : Path) :
    p.render.toList = match marked p with | '.' :: rest => rest | text => text := by
  have htext : (String.join (p.map Segment.render)).toList = marked p := by
    simp [marked, List.flatMap_map]
  unfold render
  simp only [htext]
  split <;> simp_all

/-- The text of a path is the marked text, or what follows the point at its front; then it starts
with a letter. -/
theorem render_cases (p : Path) :
    (∃ c rest, marked p = '.' :: c :: rest ∧ Segment.isWordChar c = true ∧
      p.render.toList = c :: rest) ∨
    ((∀ c ∈ (marked p).head?, c = '[') ∧ p.render.toList = marked p) := by
  rw [toList_render]
  cases p with
  | nil => exact .inr ⟨by simp [marked], rfl⟩
  | cons s p =>
    rw [marked_cons]
    obtain ⟨c, rest, h, hc⟩ | ⟨rest, h⟩ := s.render_starts
    · exact .inl ⟨c, rest ++ marked p, by simp [h], hc, by simp [h]⟩
    · exact .inr ⟨by simp [h], by simp [h]⟩

/-- Different paths have different texts. -/
theorem render_injective : Function.Injective render := by
  intro p q h
  have h' : p.render.toList = q.render.toList := by rw [h]
  -- a text that starts with a letter had a point in front of it, any other has no letter there
  have hletter : ∀ {c : Char} {rest : List Char} {q : Path}, Segment.isWordChar c = true →
      (∀ c ∈ (marked q).head?, c = '[') → marked q ≠ c :: rest := by
    intro c rest q hc hq h
    rw [hq c (by simp [h])] at hc
    exact absurd hc (by decide)
  obtain ⟨c, rest, hp, hc, hpr⟩ | ⟨hp, hpr⟩ := p.render_cases <;>
    obtain ⟨d, rest', hq, hd, hqr⟩ | ⟨hq, hqr⟩ := q.render_cases <;>
    rw [hpr, hqr] at h'
  · exact marked_injective (by rw [hp, hq, h'])
  · exact absurd h'.symm (hletter hc hq)
  · exact absurd h' (hletter hd hp)
  · exact marked_injective h'

end Path

/-! ## Handlers -/

namespace Lint.Extension

/-- The handlers of an extension in the order of their numbers, each with the text it is registered
under. -/
def registrations (e : Extension) : List (String × Script.Program) :=
  (e.handlers.map fun (path, ps) => ps.map (path, ·)).flatten

/-- The program of a handler follows the script and the handlers before it. -/
theorem programs_setup (e : Extension) (options : Options)
    (globals : List (String × Host.Tree)) {i : Nat} {text : String} {p : Script.Program}
    (h : e.registrations[i]? = some (text, p)) :
    (e.setup options globals).1.programs[i + 1]? = some (Prepared.ofProgram p) := by
  have hprograms : (e.setup options globals).1.programs =
      ((e.program :: e.registrations.map (·.2)).map Prepared.ofProgram).toArray := rfl
  simp [hprograms, h]

/-- The handlers served for a path are those registered under its text. -/
theorem served_iff (e : Extension) (options : Options)
    (globals : List (String × Host.Tree)) {resolver : Resolver}
    (h : (e.setup options globals).1.resolver = some resolver) (path : Path) :
    ∃ served, resolver path = .ok served ∧ ∀ impl, impl ∈ served ↔
      ∃ i p, e.registrations[i]? = some (path.render, p) ∧
        impl = ⟨some (i + 1), (e.setup options globals).2⟩ := by
  have hresolver : (e.setup options globals).1.resolver =
      if e.registrations.isEmpty then none
      else some fun path => .ok ((((List.range e.registrations.length).zip
        (e.registrations.map (·.1))).filter fun entry => entry.2 == path.render).map
          fun entry => ⟨some (entry.1 + 1), (e.setup options globals).2⟩) := rfl
  -- the number of a registration is its place in the list
  have hnumber : ∀ i text, (i, text) ∈ (List.range e.registrations.length).zip
      (e.registrations.map (·.1)) ↔ ∃ p, e.registrations[i]? = some (text, p) := by
    intro i text
    simp only [List.mem_iff_getElem?, List.getElem?_zip_eq_some, List.getElem?_map,
      Option.map_eq_some_iff, Prod.exists]
    constructor
    · rintro ⟨k, hk, text, p, hp, rfl⟩
      obtain ⟨-, rfl⟩ := List.getElem?_eq_some_iff.1 hk
      exact ⟨p, by simpa using hp⟩
    · rintro ⟨p, hp⟩
      have hi := (List.getElem?_eq_some_iff.1 hp).1
      exact ⟨i, by simp [hi], text, p, hp, rfl⟩
  rw [hresolver] at h
  split at h
  next => cases h
  next =>
    cases h
    refine ⟨_, rfl, fun impl => ?_⟩
    simp only [List.mem_map, List.mem_filter, beq_iff_eq, Prod.exists, hnumber]
    constructor
    · rintro ⟨i, text, ⟨⟨p, hp⟩, rfl⟩, rfl⟩
      exact ⟨i, p, hp, rfl⟩
    · rintro ⟨i, p, hp, rfl⟩
      exact ⟨i, _, ⟨⟨p, hp⟩, rfl⟩, rfl⟩

/-- Texts of paths tell paths apart, and so does the lookup of handlers: one that is registered
under the text of a path is served for that path and for no other. -/
theorem serves_own_path :
    Function.Injective Path.render ∧
    ∀ (e : Extension) (options : Options) (globals : List (String × Host.Tree))
      (resolver : Resolver), (e.setup options globals).1.resolver = some resolver →
      ∀ path : Path, ∃ served, resolver path = .ok served ∧
        (∀ impl ∈ served, ∃ i text p, e.registrations[i]? = some (text, p) ∧
          impl.program = some (i + 1)) ∧
        ∀ (i : Nat) (registered : Path) (p : Script.Program),
          e.registrations[i]? = some (registered.render, p) →
          (e.setup options globals).1.programs[i + 1]? = some (Prepared.ofProgram p) ∧
          ((∃ impl ∈ served, impl.program = some (i + 1)) ↔ registered = path) := by
  refine ⟨Path.render_injective, fun e options globals resolver h path => ?_⟩
  obtain ⟨served, hserved, hmem⟩ := e.served_iff options globals h path
  refine ⟨served, hserved, fun impl himpl => ?_, fun i registered p hi => ⟨?_, ?_, ?_⟩⟩
  · obtain ⟨i, p, hi, rfl⟩ := (hmem impl).1 himpl
    exact ⟨i, _, p, hi, rfl⟩
  · exact e.programs_setup options globals hi
  · rintro ⟨impl, himpl, hprogram⟩
    obtain ⟨j, p', hj, rfl⟩ := (hmem impl).1 himpl
    obtain rfl : j = i := by simpa using hprogram
    rw [hi] at hj
    exact Path.render_injective (by simpa using congrArg Prod.fst (Option.some.inj hj))
  · rintro rfl
    exact ⟨_, (hmem _).2 ⟨i, p, hi, rfl⟩, rfl⟩

/-- A key with a point in it is not taken for two steps. -/
theorem serves_own_path_dotted :
    ∃ resolver, ((⟨default, [("a.b.c", [default]), ("a[\"b.c\"]", [default])]⟩ : Extension).setup
        .standard []).1.resolver = some resolver ∧
      ∃ served, resolver [.key "a", .key "b.c"] = .ok served ∧
        (∃ impl ∈ served, impl.program = some 2) ∧ ¬ ∃ impl ∈ served, impl.program = some 1 := by
  refine ⟨_, rfl, ?_⟩
  obtain ⟨served, hserved, -, hown⟩ := serves_own_path.2
    ⟨default, [("a.b.c", [default]), ("a[\"b.c\"]", [default])]⟩ .standard [] _ rfl
    [.key "a", .key "b.c"]
  have hfirst := (hown 0 [.key "a", .key "b", .key "c"] default rfl).2
  have hsecond := (hown 1 [.key "a", .key "b.c"] default rfl).2
  exact ⟨served, hserved, hsecond.2 rfl, fun h => absurd (hfirst.1 h) (by decide)⟩

end Lint.Extension

end FrozenGlobals
