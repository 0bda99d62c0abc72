import FrozenGlobals.Proofs.Rendering.Columns

/-!
# Carets under a range

Diagnostics about an ASCII source can always be shown, whatever their ranges are (`render_ascii`):
carets end right of where they start, and only lines of the source are shown. If a range is in the
source, each line with bytes of it stands in the excerpt over a row of carets that are in the
columns of these bytes and in no other ones (`ShowsMarked`).

The lines and columns that a range is given by are counted from its offsets, and the bytes that
carets are drawn under are found again from these. They are the bytes of the range in the line
(`first_byte`, `last_byte`).
-/

namespace FrozenGlobals.Rendering

open Text
open Script (linePosition)

/-- A text shows a line of a source under its number, and below it a row of blanks and carets: a
column has a caret if and only if it shows a byte of the line that is marked. -/
def ShowsMarked (tabWidth number : Nat) (line : List Char) (marked : Nat → Prop)
    (text : String) : Prop :=
  ∃ (above below row : String) (pad : Nat),
    text = above ++ "\n" ++
      (blanks pad ++ toString number ++ " | " ++
        String.ofList ((cells tabWidth 0 0 line).map Prod.fst) ++ "\n") ++
      (blanks (pad + (toString number).length) ++ " | " ++ row ++ "\n") ++ below ∧
    (∀ c ∈ row.toList, c = ' ' ∨ c = '^') ∧
    ∀ j : Nat, row.toList[j]? = some '^' ↔ ∃ c i, (cells tabWidth 0 0 line)[j]? = some (c, i) ∧
      marked i

/-! ## Layouts -/

/-- Tab stops are apart. -/
theorem LayoutRequest.tabWidth_pos {request : LayoutRequest} {layout : Layout}
    (h : request.layout = .ok layout) : 0 < layout.tabWidth := by
  unfold LayoutRequest.layout at h
  cases hchosen : chosen request.sections with
  | error f =>
    rw [hchosen] at h
    cases h
  | ok sections =>
    rw [hchosen] at h
    dsimp only [bind, Except.bind] at h
    generalize hw : (if request.tabWidth = 0 then 4 else request.tabWidth) = w at h
    have hne : w ≠ 0 := by
      rw [← hw]
      split <;> omega
    by_cases hcontext : request.context < 0
    · rw [if_pos hcontext] at h
      cases h
    · rw [if_neg hcontext] at h
      by_cases hrange : w < 0 ∨ 16 < w
      · rw [if_pos hrange] at h
        cases h
      · rw [if_neg hrange] at h
        cases h
        dsimp only
        omega

/-! ## Rows -/

/-- Carets in the columns from one to another. -/
def caretRow (lead reach : Nat) : String :=
  blanks lead ++ String.ofList (List.replicate (reach - lead) '^')

/-- A row of carets begins with blanks. -/
theorem toList_caretRow (lead reach : Nat) :
    (caretRow lead reach).toList =
      List.replicate lead ' ' ++ List.replicate (reach - lead) '^' := by
  rw [caretRow, blanks, String.toList_append, String.toList_ofList, String.toList_ofList]

/-- A row of carets has nothing but blanks and carets. -/
theorem eq_of_mem_caretRow {lead reach : Nat} {c : Char} (h : c ∈ (caretRow lead reach).toList) :
    c = ' ' ∨ c = '^' := by
  rw [toList_caretRow, List.mem_append] at h
  exact h.imp List.eq_of_mem_replicate List.eq_of_mem_replicate

/-- Carets stand in the columns from the lead to the reach. -/
theorem getElem?_caretRow {lead reach : Nat} (j : Nat) :
    (caretRow lead reach).toList[j]? = some '^' ↔ lead ≤ j ∧ j < reach := by
  rw [toList_caretRow, List.getElem?_append, List.length_replicate]
  by_cases hj : j < lead
  · simp [hj]
  · rw [if_neg hj, List.getElem?_replicate]
    split
    · simp
      omega
    · simp
      omega

/-- The numbers of the lines shown. -/
def Placement.numbers (p : Placement) (layout : Layout) : List Nat :=
  let first := max 1 (p.line - layout.context)
  (List.range (p.last + 1 - first).toNat).map (first + ·)

/-- What can be made of every element can be made of all of them. -/
theorem mapM_ok {α ε : Type} {f : α → Except ε String} {g : α → String} (h : ∀ a, f a = .ok (g a))
    (l : List α) : l.mapM f = .ok (l.map g) := by
  rw [funext h]
  exact List.mapM_pure

section
variable {layout : Layout} {p : Placement} {source : Source} {n : Nat} {text : String}

/-- A row of carets, from where it starts and ends. -/
theorem Placement.carets_eq (hw : 0 < layout.tabWidth) (hcolor : layout.color = false)
    (h : ∀ c ∈ text.toList, isLineAscii c) {a b : Nat}
    (hfirst : (if n = p.line then p.column else 1) = a + 1)
    (hlast : (if n = p.endLine then p.endColumn else text.utf8ByteSize + 1) = b + 1) (hab : a < b)
    (hb : b ≤ text.toList.length) :
    p.carets layout n text = .ok (blanks p.gutter ++ " | " ++
      caretRow (columns layout.tabWidth (text.toList.take a))
        (columns layout.tabWidth (text.toList.take b)) ++ "\n") := by
  have hless := columns_take_lt hw hab hb
  unfold Placement.carets
  simp only [hfirst, hlast, Nat.add_sub_cancel, leadWidth_eq h]
  rw [if_neg (show ¬ b + 1 ≤ a + 1 by omega)]
  simp only [Nat.add_sub_cancel]
  rw [if_neg (by omega), if_neg (by omega), paint, hcolor, if_neg Bool.false_ne_true, caretRow,
    ← String.append_assoc]

/-- A line of a range and the carets under it. -/
theorem Placement.row_eq (hw : 0 < layout.tabWidth) (hcolor : layout.color = false)
    {line : List Char}
    (h : ∀ c ∈ line, isLineAscii c) (hline : source.lines[n - 1]? = some (String.ofList line))
    (hstart : p.line ≤ n) (hstop : n ≤ p.endLine) {a b : Nat}
    (hfirst : (if n = p.line then p.column else 1) = a + 1)
    (hlast : (if n = p.endLine then p.endColumn else line.length + 1) = b + 1) (hab : a < b)
    (hb : b ≤ line.length) :
    p.row layout source n = .ok (blanks (p.gutter - (toString n).length) ++ toString n ++ " | " ++
      String.ofList ((cells layout.tabWidth 0 0 line).map Prod.fst) ++ "\n" ++
      (blanks p.gutter ++ " | " ++
        caretRow (columns layout.tabWidth (line.take a)) (columns layout.tabWidth (line.take b)) ++
          "\n")) := by
  have hbytes : (String.ofList line).utf8ByteSize = line.length := by
    rw [utf8ByteSize_ascii, String.toList_ofList]
    exact fun c hc => lt_of_isLineAscii (h c (by rwa [String.toList_ofList] at hc))
  have hcarets : p.carets layout n (String.ofList line) = _ := Placement.carets_eq hw hcolor
    (by rwa [String.toList_ofList]) hfirst (by rw [hbytes]; exact hlast) hab
      (by rwa [String.toList_ofList])
  unfold Placement.row
  dsimp only
  rw [hline, Option.getD_some, String.toList_ofList, if_neg (by omega), hcarets,
    map_fst_cells 0 0 h]
  simp only [String.toList_ofList]
  rfl

/-- Carets can always be drawn. -/
theorem Placement.exists_carets (layout : Layout) (p : Placement) (n : Nat)
    (h : ∀ c ∈ text.toList, isLineAscii c) :
    ∃ t, p.carets layout n text = .ok (t ++ "\n") := by
  unfold Placement.carets
  dsimp only
  simp only [leadWidth_eq h]
  generalize (if n = p.line then p.column else 1) = start
  generalize (if n = p.endLine then p.endColumn else text.utf8ByteSize + 1) = stop
  have hle : start - 1 ≤ (if stop ≤ start then start + 1 else stop) - 1 := by
    split <;> omega
  have hcolumns := columns_take_le layout.tabWidth hle text.toList
  rw [if_neg (by omega)]
  exact ⟨_, rfl⟩

/-- A line of a source can always be shown. -/
theorem Placement.exists_row (layout : Layout) (p : Placement)
    (h : ∀ c ∈ (source.lines[n - 1]?.getD "").toList, isLineAscii c) :
    ∃ t, p.row layout source n = .ok (t ++ "\n") := by
  unfold Placement.row
  dsimp only
  obtain ⟨t, ht⟩ := Placement.exists_carets layout p n h
  rw [ht]
  split
  · exact ⟨_, rfl⟩
  · exact ⟨_, congrArg Except.ok (String.append_assoc).symm⟩

/-- Rows are put one below the other. -/
theorem exists_join_rows (g : Nat → String) (numbers : List Nat) (head : String) :
    ∃ above, head ++ "\n" ++ String.join (numbers.map fun n => g n ++ "\n") = above ++ "\n" := by
  induction numbers generalizing head with
  | nil => exact ⟨head, by rw [List.map_nil, String.join_nil, String.append_empty]⟩
  | cons n numbers ih =>
    obtain ⟨above, habove⟩ := ih (head ++ "\n" ++ g n)
    refine ⟨above, ?_⟩
    rw [List.map_cons, String.join_cons, ← habove]
    simp only [String.append_assoc]

end

/-! ## Sources -/

/-- Larger numbers take no fewer digits. -/
theorem toString_length_le {n m : Nat} (h : n ≤ m) : (toString n).length ≤ (toString m).length := by
  have hm := (Nat.length_repr_le_iff (n := m) Nat.length_repr_pos).1 le_rfl
  exact (Nat.length_repr_le_iff Nat.length_repr_pos).2 (h.trans_lt hm)

section
variable {name text : String}

/-- The lines of a source are those of its text. -/
theorem getElem?_lines (i : Nat) : (Source.ofText name text).lines[i]? =
    ((text.toList.splitOn '\n')[i]?).map String.ofList := by
  rw [Source.ofText, splitOn_newline, List.getElem?_toArray, List.getElem?_map]

/-- A source has one line more than its text has line breaks. -/
theorem size_lines : (Source.ofText name text).lines.size = text.toList.count '\n' + 1 := by
  rw [Source.ofText, splitOn_newline, List.size_toArray, List.length_map, length_splitOn]

/-- The last line shown, where the context does not overflow. -/
theorem Placement.last_eq (name : String) {layout : Layout} {d : Diagnostic}
    (hcontext : ((linePosition text d.span.stop).1 + layout.context : Int) < 2 ^ 63) :
    (Placement.of layout (.ofText name text) d).last =
      (min ((linePosition text d.span.stop).1 + layout.context)
        (text.toList.count '\n' + 1) : Nat) := by
  have hlast : (Placement.of layout (.ofText name text) d).last =
      min (Int.bmod ((linePosition text d.span.stop).1 + layout.context) (Nat.pow 2 64))
        (Source.ofText name text).lines.size := rfl
  have hword : ((Nat.pow 2 64 : Nat) : Int) = 2 * 2 ^ 63 := rfl
  rw [hlast, size_lines, Int.bmod_eq_of_le_mul_two (by omega) (by omega)]
  push_cast
  rfl

/-- Only lines of the source are shown. -/
theorem Placement.getElem?_of_mem_numbers {layout : Layout} {d : Diagnostic} {n : Nat}
    (hn : n ∈ (Placement.of layout (.ofText name text) d).numbers layout) :
    ∃ l, (Source.ofText name text).lines[n - 1]? = some l := by
  have hlast : (Placement.of layout (.ofText name text) d).last ≤
      (Source.ofText name text).lines.size :=
    min_le_right _ _
  obtain ⟨i, hi, rfl⟩ := List.mem_map.1 hn
  rw [List.mem_range] at hi
  exact ⟨_, Array.getElem?_eq_getElem (by omega)⟩

/-- The lines of a range are shown, with numbers that fit beside them. -/
theorem Placement.shows (name : String) {layout : Layout} {d : Diagnostic}
    (hcontext : ((linePosition text d.span.stop).1 + layout.context : Int) < 2 ^ 63) {n : Nat}
    (hn : 0 < n) (hlines : n ≤ text.toList.count '\n' + 1)
    (hfirst : (linePosition text d.span.start).1 ≤ n)
    (hlast : n ≤ (linePosition text d.span.stop).1) :
    n ∈ (Placement.of layout (.ofText name text) d).numbers layout ∧
      (toString n).length ≤ (Placement.of layout (.ofText name text) d).gutter := by
  have heq := last_eq name hcontext
  have hgutter : (Placement.of layout (.ofText name text) d).gutter =
      (toString (Placement.of layout (.ofText name text) d).last).length := by
    dsimp only [Placement.of]
  constructor
  · unfold Placement.numbers
    rw [heq, show (Placement.of layout (.ofText name text) d).line =
      (linePosition text d.span.start).1
      from rfl]
    refine List.mem_map.2 ⟨n - max 1 ((linePosition text d.span.start).1 - layout.context), ?_,
      by omega⟩
    rw [List.mem_range]
    omega
  · rw [hgutter, heq]
    exact toString_length_le (by omega)

end

section
variable (name : String) {text : String} (htext : ∀ c ∈ text.toList, isSourceAscii c)
include htext

/-- Lines of an ASCII source have printable characters and tabs. -/
theorem isLineAscii_of_mem_line (i : Nat) :
    ∀ c ∈ ((Source.ofText name text).lines[i]?.getD "").toList, isLineAscii c := by
  intro c hc
  rw [getElem?_lines] at hc
  cases hl : (text.toList.splitOn '\n')[i]? with
  | none =>
    rw [hl] at hc
    cases hc
  | some l =>
    rw [hl] at hc
    have hc : c ∈ l := by simpa using hc
    obtain ⟨hwhole, hmem⟩ := of_mem_splitOn (List.mem_of_getElem? hl)
    have hne : c ≠ '\n' := fun h => hwhole (h ▸ hc)
    simpa [isSourceAscii, isLineAscii, hne] using htext c (hmem c hc)

/-- The rows of an excerpt can always be shown. -/
theorem Placement.exists_rows (layout : Layout) (p : Placement) :
    ∃ g : Nat → String, (∀ n, p.row layout (.ofText name text) n = .ok (g n ++ "\n")) ∧
      p.rows layout (.ofText name text) =
        .ok (String.join ((p.numbers layout).map fun n => g n ++ "\n")) := by
  choose g hg using fun n : Nat =>
    Placement.exists_row layout p (isLineAscii_of_mem_line name htext (n - 1))
  refine ⟨g, hg, ?_⟩
  unfold Placement.rows
  dsimp only
  rw [mapM_ok hg]
  rfl

/-- Diagnostics can always be shown. -/
theorem exists_sections (layout : Layout) (d : Diagnostic) :
    ∃ g : Section → String,
      (∀ s, sectionText layout (.ofText name text) d (.of layout (.ofText name text) d) s =
        .ok (g s)) ∧
      diagnosticText layout (.ofText name text) d =
        .ok (String.join ((Section.all.filter layout.sections.contains).map g)) := by
  have hsection : ∀ s, ∃ t,
      sectionText layout (.ofText name text) d (.of layout (.ofText name text) d) s = .ok t := by
    intro s
    cases s with
    | excerpt =>
      obtain ⟨g, -, hrows⟩ := Placement.exists_rows name htext layout
        (.of layout (.ofText name text) d)
      unfold sectionText
      rw [hrows]
      exact ⟨_, rfl⟩
    | message | location | path => exact ⟨_, rfl⟩
  choose g hg using hsection
  refine ⟨g, hg, ?_⟩
  unfold diagnosticText
  dsimp only
  rw [mapM_ok hg]
  rfl

/-! ## Places of ranges -/

variable {before line after : List Char} (hl : IsLine text.toList before line after)
include hl

/-- A range that starts in front of the end of a line starts in that line or above it: the first
byte that carets are drawn under is its first one there. -/
theorem first_byte {start : Int} (hstart : start < before.length + line.length) :
    (linePosition text start).1 ≤ before.count '\n' + 1 ∧
      (if before.count '\n' + 1 = (linePosition text start).1 then
        (linePosition text start).2 else 1) =
        start.toNat - before.length + 1 := by
  have hascii : ∀ c ∈ text.toList, c.toNat < 128 := fun c hc => lt_of_isSourceAscii (htext c hc)
  by_cases hin : before.length ≤ start.toNat
  · have htake : text.toList.take start.toNat =
        before ++ line.take (start.toNat - before.length) := by
      rw [hl.eq, List.append_assoc, List.take_append, List.take_of_length_le hin,
        List.take_append_of_le_length (by omega)]
    rw [linePosition_append hascii htake hl.starts fun h => hl.whole (List.mem_of_mem_take h),
      if_pos rfl, List.length_take]
    exact ⟨le_rfl, by omega⟩
  · -- the range starts above, and the line has carets from its first byte on
    obtain ⟨b, hb⟩ := hl.starts.resolve_left fun h => hin (by rw [h]; exact Nat.zero_le _)
    have habove : (text.toList.take start.toNat).count '\n' ≤ b.count '\n' := by
      rw [hb, List.length_append, List.length_singleton] at hin
      rw [hl.eq, hb, List.append_assoc, List.append_assoc, List.take_append_of_le_length (by omega)]
      exact (List.take_prefix _ _).count_le _
    have hcount : before.count '\n' = b.count '\n' + 1 := by
      rw [hb, List.count_append, List.count_singleton_self]
    rw [linePosition_fst hascii, if_neg (by omega)]
    exact ⟨by omega, by omega⟩

/-- A range that ends behind the start of a line ends in that line or below it: the last byte that
carets are drawn under is its last one there. -/
theorem last_byte {stop : Int} (hstop : before.length < stop) (hend : stop ≤ text.utf8ByteSize) :
    before.count '\n' + 1 ≤ (linePosition text stop).1 ∧
      (if before.count '\n' + 1 = (linePosition text stop).1 then (linePosition text stop).2
        else line.length + 1) = min (stop.toNat - before.length) line.length + 1 := by
  have hascii : ∀ c ∈ text.toList, c.toNat < 128 := fun c hc => lt_of_isSourceAscii (htext c hc)
  have hlength : text.toList.length = before.length + line.length + after.length := by
    rw [hl.eq, List.length_append, List.length_append]
  rw [utf8ByteSize_ascii hascii, hlength] at hend
  by_cases hin : stop.toNat ≤ before.length + line.length
  · have htake : text.toList.take stop.toNat =
        before ++ line.take (stop.toNat - before.length) := by
      rw [hl.eq, List.append_assoc, List.take_append, List.take_of_length_le (by omega),
        List.take_append_of_le_length (by omega)]
    rw [linePosition_append hascii htake hl.starts fun h => hl.whole (List.mem_of_mem_take h),
      if_pos rfl, List.length_take]
    exact ⟨le_rfl, by omega⟩
  · -- the range goes on below, and the line has carets up to its last byte
    obtain ⟨a, ha⟩ := hl.ends.resolve_left fun h => by
      rw [h, List.length_nil] at hend
      omega
    have hbelow : before.count '\n' + 1 ≤ (text.toList.take stop.toNat).count '\n' := by
      have hprefix : before ++ line ++ ['\n'] <+: text.toList.take stop.toNat := by
        rw [List.prefix_take_iff, hl.eq, ha]
        refine ⟨⟨a, by simp⟩, ?_⟩
        simp only [List.length_append, List.length_singleton]
        omega
      have := hprefix.count_le '\n'
      rw [List.count_append, List.count_append, List.count_singleton_self] at this
      omega
    rw [linePosition_fst hascii, if_neg (by omega)]
    exact ⟨by omega, by omega⟩

/-! ## Excerpts -/

/-- An excerpt shows a line with bytes of a range in the source over a row of carets under these
bytes. -/
theorem showsMarked_excerpt {layout : Layout} (hw : 0 < layout.tabWidth)
    (hcolor : layout.color = false)
    {d : Diagnostic}
    (hcontext : ((linePosition text d.span.stop).1 + layout.context : Int) < 2 ^ 63)
    (h0 : 0 ≤ d.span.start) (hend : d.span.stop ≤ text.utf8ByteSize)
    (hmeets : ∃ i < line.length, d.span.start ≤ before.length + i ∧ before.length + i < d.span.stop)
    {t : String}
    (ht : sectionText layout (.ofText name text) d (.of layout (.ofText name text) d) .excerpt =
      .ok t) :
    ShowsMarked layout.tabWidth (before.count '\n' + 1) line
      (fun i => d.span.start ≤ before.length + i ∧ before.length + i < d.span.stop) t := by
  obtain ⟨i, hi, hstart, hstop⟩ := hmeets
  have hstartsIn : d.span.start < before.length + line.length := by omega
  have hendsIn : before.length < d.span.stop := by omega
  obtain ⟨hfirst, hcolumn⟩ := first_byte htext hl hstartsIn
  obtain ⟨hlast, hendColumn⟩ := last_byte htext hl hendsIn hend
  have hascii : ∀ c ∈ line, isLineAscii c := by
    have := isLineAscii_of_mem_line name htext (before.count '\n')
    rwa [getElem?_lines, hl.getElem?_splitOn, Option.map_some, Option.getD_some,
      String.toList_ofList] at this
  have hcount : before.count '\n' + 1 ≤ text.toList.count '\n' + 1 := by
    rw [hl.eq, List.count_append, List.count_append]
    omega
  obtain ⟨hshown, hnumber⟩ := Placement.shows name hcontext (Nat.succ_pos _) hcount hfirst hlast
  obtain ⟨g, hg, hrows⟩ := Placement.exists_rows name htext layout
    (.of layout (.ofText name text) d)
  generalize ha : d.span.start.toNat - before.length = a at hcolumn
  generalize hb : min (d.span.stop.toNat - before.length) line.length = b at hendColumn
  have hrow : g (before.count '\n' + 1) ++ "\n" = _ := Except.ok.inj ((hg _).symm.trans
    (Placement.row_eq hw hcolor hascii
      (by rw [getElem?_lines, Nat.add_sub_cancel, hl.getElem?_splitOn]; rfl)
      hfirst hlast hcolumn hendColumn (by omega) (by omega)))
  obtain ⟨rowsAbove, rowsBelow, hsplit⟩ := List.append_of_mem hshown
  obtain ⟨above, habove⟩ := exists_join_rows g rowsAbove
    (blanks (Placement.of layout (.ofText name text) d).gutter ++ " |")
  have hexcerpt : t = above ++ "\n" ++ (g (before.count '\n' + 1) ++ "\n") ++
      String.join (rowsBelow.map fun n => g n ++ "\n") := by
    unfold sectionText at ht
    rw [hrows, hsplit, List.map_append, List.map_cons, String.join_append, String.join_cons] at ht
    rw [← Except.ok.inj ht, ← habove]
    simp only [String.append_assoc]
    rfl
  refine ⟨above, String.join (rowsBelow.map fun n => g n ++ "\n"),
    caretRow (columns layout.tabWidth (line.take a)) (columns layout.tabWidth (line.take b)),
    (Placement.of layout (.ofText name text) d).gutter -
      (toString (before.count '\n' + 1)).length, ?_,
    fun c => eq_of_mem_caretRow, fun j => (getElem?_caretRow j).trans ?_⟩
  · rw [Nat.sub_add_cancel hnumber, hexcerpt, hrow]
    simp only [String.append_assoc]
  · rw [← shown_iff (by omega) (by omega)]
    refine exists_congr fun c => exists_congr fun k => and_congr_right fun hk => ?_
    have hindex := index_of_mem_cells (List.mem_of_getElem? hk)
    omega

end

/-- What is shown of a diagnostic has its excerpt, where excerpts are shown. If it is not coloured
and its line numbers do not overflow, a range in the source has carets under all its bytes and no
other ones. -/
def ShowsRange (layout : Layout) (name text : String) (d : Diagnostic) (part : String) : Prop :=
  .excerpt ∈ layout.sections → ∃ head excerpt tail : String, part = head ++ excerpt ++ tail ∧
    sectionText layout (.ofText name text) d (.of layout (.ofText name text) d) .excerpt =
      .ok excerpt ∧
    (layout.color = false → ((linePosition text d.span.stop).1 + layout.context : Int) < 2 ^ 63 →
      0 ≤ d.span.start → d.span.stop ≤ text.utf8ByteSize →
      ∀ before line after, IsLine text.toList before line after →
        (∃ i < line.length, d.span.start ≤ before.length + i ∧ before.length + i < d.span.stop) →
        ShowsMarked layout.tabWidth (before.count '\n' + 1) line
          (fun i => d.span.start ≤ before.length + i ∧ before.length + i < d.span.stop) excerpt)

/-- Diagnostics about an ASCII source are shown whatever their ranges, only lines of the source are
shown of it, and the carets of an excerpt are under the bytes of the range. -/
theorem render_ascii (name : String) {text : String} (htext : ∀ c ∈ text.toList, isSourceAscii c)
    {request : LayoutRequest} {layout : Layout} (hlayout : request.layout = .ok layout)
    (diagnostics : List Diagnostic) :
    ∃ parts, render (some (.ofText name text)) diagnostics request = .ok ("\n".intercalate parts) ∧
      List.Forall₂ (ShowsRange layout name text) diagnostics parts ∧
      ∀ d ∈ diagnostics, ∀ n ∈ (Placement.of layout (.ofText name text) d).numbers layout,
        ∃ l, (Source.ofText name text).lines[n - 1]? = some l := by
  have hw := LayoutRequest.tabWidth_pos hlayout
  choose g hg hall using exists_sections name htext layout
  let part (d : Diagnostic) := String.join ((Section.all.filter layout.sections.contains).map (g d))
  refine ⟨diagnostics.map part, ?_, ?_, fun d _ n => Placement.getElem?_of_mem_numbers⟩
  · unfold render
    rw [hlayout]
    simp only [Except.mapError, bind, Except.bind, mapM_ok hall]
    rfl
  · rw [List.forall₂_map_right_iff, List.forall₂_same]
    intro d _ hexcerpt
    have hmem : Section.excerpt ∈ Section.all.filter layout.sections.contains :=
      List.mem_filter.2 ⟨by decide, List.contains_iff_mem.2 hexcerpt⟩
    obtain ⟨head, tail, hsplit⟩ := List.append_of_mem hmem
    refine ⟨String.join (head.map (g d)), g d .excerpt, String.join (tail.map (g d)), ?_,
      hg d .excerpt, ?_⟩
    · simp only [part, hsplit, List.map_append, List.map_cons, String.join_append, String.join_cons,
        String.append_assoc]
    · intro hcolor hcontext h0 hend before line after hl hmeets
      exact showsMarked_excerpt name htext hl hw hcolor hcontext h0 hend hmeets (hg d .excerpt)

/-- The second line of a source begins with a tab, and the range goes from the line above up to its
`1`. -/
theorem render_ascii_tabbed : ∃ above excerpt below,
    render (some (.ofText "list" "a = [\n\tb, 1]\n")) [⟨"mutated", ⟨4, 11⟩, "a"⟩]
      ⟨[], 1, 0, false⟩ =
      .ok (above ++ excerpt ++ below) ∧
    ShowsMarked 4 2 ['\t', 'b', ',', ' ', '1', ']']
      (fun i => (4 : Int) ≤ 6 + i ∧ (6 + i : Int) < 11)
      excerpt := by
  have htext : ∀ c ∈ "a = [\n\tb, 1]\n".toList, isSourceAscii c := List.all_eq_true.1 rfl
  have hlayout : LayoutRequest.layout ⟨[], 1, 0, false⟩ = .ok ⟨Section.all, 1, 4, false⟩ := rfl
  obtain ⟨parts, hrender, hshows, -⟩ := render_ascii "list" htext hlayout
    [⟨"mutated", ⟨4, 11⟩, "a"⟩]
  obtain ⟨part, rest, hpart, hrest, rfl⟩ := List.forall₂_cons_left_iff.1 hshows
  cases hrest
  obtain ⟨above, excerpt, below, rfl, -, hmarked⟩ := hpart (by decide)
  exact ⟨above, excerpt, below, hrender, hmarked rfl (by decide +kernel) (by decide) (by decide)
    ['a', ' ', '=', ' ', '[', '\n'] ['\t', 'b', ',', ' ', '1', ']'] ['\n']
    ⟨rfl, by decide, .inr ⟨['a', ' ', '=', ' ', '['], rfl⟩, .inr ⟨[], rfl⟩⟩
      ⟨0, by decide, by decide⟩⟩

end FrozenGlobals.Rendering
