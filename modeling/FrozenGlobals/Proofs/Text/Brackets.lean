import FrozenGlobals.Proofs.Text.Quoting

/-!
# Bracketed text

Text with brackets and quotes can be cut without being understood. A reader who counts open brackets
and knows whether it is inside quotes stops at a separator or a closing bracket that belongs to none
of the text before it. Texts that leave the reader where it was (`Level`) therefore end in only one
place before such a mark (`level_append_inj`), and a list of them can be read back from the text
that joins them (`intercalate_inj`).
-/

namespace FrozenGlobals.Text

/-! ## The reader -/

/-- Where a reader stands: outside quotes in a number of open brackets, inside quotes, or behind a
backslash inside quotes. -/
inductive Mode where
  | plain (depth : Nat)
  | quoted (depth : Nat)
  | escaped (depth : Nat)
deriving DecidableEq

/-- Marks with a meaning outside quotes. -/
def marks : List Char := ['"', '(', '[', '\x7b', ')', ']', '\x7d', ',', '|']

def isMark (c : Char) : Bool := marks.contains c

/-- The reader takes the next character. It stops at a separator or a closing bracket that no
bracket before it is open for. -/
def Mode.next : Mode → Char → Option Mode
  | .plain depth, c =>
      if c = '"' then some (.quoted depth)
      else if c = '(' ∨ c = '[' ∨ c = '\x7b' then some (.plain (depth + 1))
      else if c = ')' ∨ c = ']' ∨ c = '\x7d' then
        if depth = 0 then none else some (.plain (depth - 1))
      else if (c = ',' ∨ c = '|') ∧ depth = 0 then none
      else some (.plain depth)
  | .quoted depth, c =>
      some (if c = '"' then .plain depth else if c = '\\' then .escaped depth else .quoted depth)
  | .escaped depth, _ => some (.quoted depth)

/-- The reader takes several characters. -/
def Mode.run (m : Mode) (cs : List Char) : Option Mode := cs.foldlM Mode.next m

/-- Without characters the reader stays where it is. -/
@[simp] theorem run_nil (m : Mode) : m.run [] = some m := rfl

/-- The reader takes one character after another. -/
@[simp] theorem run_cons (m : Mode) (c : Char) (cs : List Char) :
    m.run (c :: cs) = (m.next c).bind (·.run cs) := rfl

/-- The reader takes one text after another. -/
@[simp] theorem run_append (m : Mode) (cs ds : List Char) :
    m.run (cs ++ ds) = (m.run cs).bind (·.run ds) := List.foldlM_append

/-- Text that leaves the reader where it was. -/
def Level (cs : List Char) : Prop := ∀ depth, Mode.run (.plain depth) cs = some (.plain depth)

/-- What the reader stops at. -/
def Stops (cs : List Char) : Prop := ∀ c ∈ cs.head?, Mode.next (.plain 0) c = none

/-- The reader stops where the text ends. -/
theorem stops_nil : Stops [] := by simp [Stops]

/-! ## Level texts -/

/-- A text without characters is level. -/
theorem level_nil : Level [] := fun _ => rfl

/-- Level texts one after another are level. -/
theorem Level.append {cs ds : List Char} (hcs : Level cs) (hds : Level ds) : Level (cs ++ ds) :=
  fun depth => by simp [hcs depth, hds depth]

/-- What is no mark does not move a reader outside of quotes. -/
theorem next_of_not_isMark {c : Char} (hc : isMark c = false) (depth : Nat) :
    Mode.next (.plain depth) c = some (.plain depth) := by
  simp only [isMark, marks, List.contains_eq_mem, List.mem_cons, List.not_mem_nil, or_false,
    decide_eq_false_iff_not, not_or] at hc
  simp [Mode.next, hc]

/-- Characters of a class without marks. -/
theorem isMark_eq_false {p : Char → Bool} (hmarks : (marks.all fun d => !p d) = true) {c : Char}
    (hc : p c = true) : isMark c = false := by
  refine Bool.eq_false_iff.2 fun hmark => ?_
  have := List.all_eq_true.1 hmarks c (by simpa [isMark] using hmark)
  rw [hc] at this
  cases this

/-- A text of characters that are no marks has none. -/
theorem isMark_of_mem {cs : List Char} (hcs : (cs.all fun c => !isMark c) = true) :
    ∀ c ∈ cs, isMark c = false := by
  simpa using hcs

/-- Text without marks is level. -/
theorem level_of_not_isMark {cs : List Char} (hcs : ∀ c ∈ cs, isMark c = false) : Level cs := by
  intro depth
  induction cs with
  | nil => rfl
  | cons c cs ih =>
    rw [run_cons, next_of_not_isMark (hcs c List.mem_cons_self) depth]
    exact ih fun d hd => hcs d (List.mem_cons_of_mem c hd)

/-- Text between brackets is level if it leads the reader from the opening to the closing one. -/
theorem level_bracketed (opening closing : Char) {cs : List Char}
    (hopening : opening = '(' ∨ opening = '[' ∨ opening = '\x7b')
    (hclosing : closing = ')' ∨ closing = ']' ∨ closing = '\x7d')
    (hcs : ∀ depth, Mode.run (.plain (depth + 1)) cs = some (.plain (depth + 1))) :
    Level (opening :: (cs ++ [closing])) := by
  intro depth
  have hopen : Mode.next (.plain depth) opening = some (.plain (depth + 1)) := by
    obtain rfl | rfl | rfl := hopening <;> rfl
  have hclose : Mode.next (.plain (depth + 1)) closing = some (.plain depth) := by
    obtain rfl | rfl | rfl := hclosing <;> rfl
  simp [hopen, hcs depth, hclose]

/-- Separators inside brackets do not stop the reader. -/
theorem run_intercalate {separator : Char} (hseparator : separator = ',' ∨ separator = '|')
    {texts : List (List Char)} (htexts : ∀ t ∈ texts, Level t) (depth : Nat) :
    Mode.run (.plain (depth + 1)) ([separator].intercalate texts) =
      some (.plain (depth + 1)) := by
  have hnext : Mode.next (.plain (depth + 1)) separator = some (.plain (depth + 1)) := by
    obtain rfl | rfl := hseparator <;> rfl
  induction texts with
  | nil => rfl
  | cons t texts ih =>
    have ht := htexts t List.mem_cons_self (depth + 1)
    cases texts with
    | nil => simpa using ht
    | cons u texts =>
      rw [List.intercalate_cons_cons, run_append, run_append, ht]
      simp only [Option.bind_some, run_cons, hnext, run_nil]
      exact ih fun t h => htexts t (List.mem_cons_of_mem _ h)

/-! ## Quoted text -/

/-- Hexadecimal digits stand for numbers below sixteen. -/
theorem mem_toDigits {n : Nat} {c : Char} (hc : c ∈ Nat.toDigits 16 n) :
    ∃ d, d < 16 ∧ c = d.digitChar := by
  induction n using Nat.strong_induction_on with
  | _ n ih =>
    rw [Nat.toDigits_eq_if (by decide)] at hc
    split at hc
    next hlt => exact ⟨n, hlt, List.mem_singleton.1 hc⟩
    next hge =>
      obtain hc | hc := List.mem_append.1 hc
      · exact ih (n / 16) (by omega) hc
      · exact ⟨n % 16, Nat.mod_lt n (by decide), List.mem_singleton.1 hc⟩

/-- Nothing but a quote or a backslash moves a reader inside quotes. -/
theorem run_quoted {cs : List Char} (hcs : ∀ c ∈ cs, c ≠ '"' ∧ c ≠ '\\') (depth : Nat) :
    Mode.run (.quoted depth) cs = some (.quoted depth) := by
  induction cs with
  | nil => rfl
  | cons c cs ih =>
    obtain ⟨hquote, hslash⟩ := hcs c List.mem_cons_self
    simp only [run_cons, Mode.next, hquote, hslash, if_false, Option.bind_some]
    exact ih fun d hd => hcs d (List.mem_cons_of_mem c hd)

/-- Hexadecimal digits do not move a reader inside quotes. -/
theorem run_quoted_hex (depth width n : Nat) :
    Mode.run (.quoted depth) (hex width n).toList = some (.quoted depth) := by
  refine run_quoted (fun c hc => ?_) depth
  have hdigit : ∃ d, d < 16 ∧ c = d.digitChar := by
    simp only [hex, String.toList_ofList, List.mem_append] at hc
    obtain hc | hc := hc
    · exact ⟨0, by decide, List.eq_of_mem_replicate hc⟩
    · exact mem_toDigits hc
  obtain ⟨d, hd, rfl⟩ := hdigit
  interval_cases d <;> decide

/-- A character behind a backslash does not move a reader inside quotes, whatever it is. -/
theorem run_quoted_escape (depth : Nat) (c : Char) (cs : List Char) :
    Mode.run (.quoted depth) ('\\' :: c :: cs) = Mode.run (.quoted depth) cs := rfl

/-- Every quoted piece leaves the reader inside the quotes. -/
theorem run_quotePiece (p : Piece) (depth : Nat) :
    Mode.run (.quoted depth) (quotePiece p).toList = some (.quoted depth) := by
  have hcode : ∀ letter width n, Mode.run (.quoted depth)
      ('\\' :: letter :: (hex width n).toList) = some (.quoted depth) := fun letter width n =>
    (run_quoted_escape depth letter _).trans (run_quoted_hex depth width n)
  cases p with
  | stray b => simpa [quotePiece] using hcode 'x' 2 b.toNat
  | char c =>
    rw [quotePiece, quoteChar]
    split
    next => exact (congrArg _ String.toList_ofList).trans (run_quoted_escape depth c [])
    next h =>
      simp only [Bool.or_eq_true, beq_iff_eq, not_or] at h
      split
      next => exact run_quoted (by simpa using h) depth
      next =>
        split
        next letter _ =>
          exact (congrArg _ String.toList_ofList).trans (run_quoted_escape depth letter [])
        next =>
          split
          · simpa using hcode 'x' 2 c.toNat
          · split
            · simpa using hcode 'u' 4 c.toNat
            · simpa using hcode 'U' 8 c.toNat

/-- Quoted text is level, whatever is in the quotes. -/
theorem level_quotePieces (ps : List Piece) : Level (quotePieces ps).toList := by
  intro depth
  have hinside : Mode.run (.quoted depth) (ps.flatMap fun p => (quotePiece p).toList) =
      some (.quoted depth) := by
    induction ps with
    | nil => rfl
    | cons p ps ih => rw [List.flatMap_cons, run_append, run_quotePiece]; exact ih
  rw [toList_quotePieces]
  simp [Mode.next, hinside]

/-! ## Cutting -/

/-- A level text ends in only one place before something that the reader stops at. -/
theorem level_append_inj {s t r u : List Char} (hs : Level s) (ht : Level t) (hr : Stops r)
    (hu : Stops u) (h : s ++ r = t ++ u) : s = t ∧ r = u := by
  -- if one were longer, it would have gone on behind the stop
  have hend : ∀ {s t r u : List Char}, Level s → Level t → Stops r → ∀ more,
      t = s ++ more → r = more ++ u → more = [] := by
    rintro s t r u hs ht hr (- | ⟨c, more⟩) rfl rfl
    · rfl
    · have := ht 0
      rw [run_append, hs 0, Option.bind_some, run_cons, hr c (by simp)] at this
      cases this
  obtain ⟨more, hmore, hrest⟩ | ⟨more, hmore, hrest⟩ := List.append_eq_append_iff.1 h
  · obtain rfl := hend hs ht hr more hmore hrest
    exact ⟨by simpa using hmore.symm, by simpa using hrest⟩
  · obtain rfl := hend ht hs hu more hmore hrest
    exact ⟨by simpa using hmore, by simpa using hrest.symm⟩

/-- Level texts can be read back from the text that joins them. -/
theorem intercalate_inj {separator : Char} (hseparator : separator = ',' ∨ separator = '|')
    {ts us : List (List Char)} (hts : ∀ t ∈ ts, Level t ∧ t ≠ []) (hus : ∀ u ∈ us, Level u ∧ u ≠ [])
    (h : [separator].intercalate ts = [separator].intercalate us) : ts = us := by
  have hstop : ∀ cs, Stops (separator :: cs) := by
    obtain rfl | rfl := hseparator <;> (intro cs c hc; cases hc; rfl)
  -- a joined text is its first part and nothing, or its first part and a separator
  have hcut : ∀ t ts, ∃ rest, Stops rest ∧ [separator].intercalate (t :: ts) = t ++ rest ∧
      (ts = [] ∧ rest = [] ∨ rest = separator :: [separator].intercalate ts ∧ ts ≠ []) := by
    intro t ts
    cases ts with
    | nil => exact ⟨[], stops_nil, by simp, .inl ⟨rfl, rfl⟩⟩
    | cons t' ts => exact ⟨_, hstop _, by simp [List.intercalate_cons_cons], .inr ⟨rfl, by simp⟩⟩
  induction ts generalizing us with
  | nil =>
    cases us with
    | nil => rfl
    | cons u us =>
      obtain ⟨rest, -, hrest, -⟩ := hcut u us
      rw [hrest, List.intercalate_nil] at h
      exact absurd (List.append_eq_nil_iff.1 h.symm).1 (hus u List.mem_cons_self).2
  | cons t ts ih =>
    obtain ⟨rest, hstopt, hrest, htail⟩ := hcut t ts
    cases us with
    | nil =>
      rw [hrest, List.intercalate_nil] at h
      exact absurd (List.append_eq_nil_iff.1 h).1 (hts t List.mem_cons_self).2
    | cons u us =>
      obtain ⟨rest', hstopu, hrest', htail'⟩ := hcut u us
      rw [hrest, hrest'] at h
      obtain ⟨rfl, hrests⟩ := level_append_inj (hts t List.mem_cons_self).1
        (hus u List.mem_cons_self).1 hstopt hstopu h
      obtain ⟨rfl, rfl⟩ | ⟨rfl, -⟩ := htail <;> obtain ⟨rfl, rfl⟩ | ⟨rfl, -⟩ := htail'
      · rfl
      · cases hrests
      · cases hrests
      · rw [ih (fun t h => hts t (List.mem_cons_of_mem _ h))
          (fun u h => hus u (List.mem_cons_of_mem _ h)) (List.cons.inj hrests).2]

end FrozenGlobals.Text
