import FrozenGlobals.Proofs.Text.Ascii
import FrozenGlobals.Rendering

/-!
# Columns of a line

What a terminal shows of a line, column by column (`cells`): each column shows a byte of the line, a
tab shows blanks in all columns up to the next tab stop. The shown characters are the line with its
tabs expanded (`map_fst_cells`), and the columns of the first bytes of the line come first, as many
as the width counted for them (`leadWidth_eq`). So the bytes from one offset to another are shown in
the columns between two of these widths (`shown_iff`).
-/

namespace FrozenGlobals.Rendering

open Text

/-- What is shown of a character at a column. -/
def glyphs (tabWidth column : Nat) (c : Char) : List Char :=
  if c = '\t' then List.replicate (tabWidth - column % tabWidth) ' ' else [c]

/-- What a line shows column by column, with the number of the byte that is shown there. The line
starts at a column with a byte of some number. -/
def cells (tabWidth column index : Nat) : List Char → List (Char × Nat)
  | [] => []
  | c :: rest =>
      let shown := glyphs tabWidth column c
      shown.map (·, index) ++ cells tabWidth (column + shown.length) (index + 1) rest

/-- The columns that a line takes. -/
abbrev columns (tabWidth : Nat) (line : List Char) : Nat := (cells tabWidth 0 0 line).length

/-- Printable characters and tabs: what lines of a source usually have. -/
def isLineAscii (c : Char) : Bool := isPrintableAscii c || c == '\t'

/-- Characters of ASCII lines are ASCII characters. -/
theorem lt_of_isLineAscii {c : Char} (h : isLineAscii c) : c.toNat < 128 :=
  lt_of_isSourceAscii (by simp only [isSourceAscii, isLineAscii] at h ⊢; simp [h])

section
variable {tabWidth column index : Nat} {line l m : List Char}

/-- Every character is shown in at least one column. -/
theorem glyphs_length_pos (hw : 0 < tabWidth) (column : Nat) (c : Char) :
    0 < (glyphs tabWidth column c).length := by
  unfold glyphs
  split
  · have := Nat.mod_lt column hw
    rw [List.length_replicate]
    omega
  · exact Nat.one_pos

/-- What is shown of an ASCII line are printable characters. -/
theorem isPrintableAscii_of_mem_glyphs {c d : Char} (hc : isLineAscii c)
    (hd : d ∈ glyphs tabWidth column c) : isPrintableAscii d := by
  unfold glyphs at hd
  split at hd
  · rw [List.eq_of_mem_replicate hd]
    rfl
  · next htab =>
    rw [List.mem_singleton.1 hd]
    simpa [isLineAscii, htab] using hc

/-- Tabs are expanded character by character. -/
theorem expandTabs_cons {c : Char} (hc : isLineAscii c) (rest : List Char) :
    expandTabs tabWidth column (c :: rest) = glyphs tabWidth column c ++
      expandTabs tabWidth (column + (glyphs tabWidth column c).length) rest := by
  by_cases htab : c = '\t'
  · subst htab
    simp only [expandTabs, glyphs, if_true, List.length_replicate]
  · have hprint : isPrintableAscii c := by simpa [isLineAscii, htab] using hc
    rw [expandTabs, glyphs, if_neg htab, (width_printable hprint).1]
    · rfl
    · exact htab

/-- The shown characters are the line with its tabs expanded. -/
theorem map_fst_cells (column index : Nat) (h : ∀ c ∈ line, isLineAscii c) :
    (cells tabWidth column index line).map Prod.fst = expandTabs tabWidth column line := by
  induction line generalizing column index with
  | nil => rfl
  | cons c rest ih =>
    rw [expandTabs_cons (h c List.mem_cons_self), cells, List.map_append, List.map_map,
      ih _ _ fun d hd => h d (List.mem_cons_of_mem _ hd)]
    congr 1
    exact List.map_id _

/-- With tabs expanded, an ASCII line consists of printable characters. -/
theorem isPrintableAscii_of_mem_expandTabs (h : ∀ c ∈ line, isLineAscii c) {d : Char}
    (hd : d ∈ expandTabs tabWidth column line) : isPrintableAscii d := by
  induction line generalizing column with
  | nil => cases hd
  | cons c rest ih =>
    rw [expandTabs_cons (h c List.mem_cons_self), List.mem_append] at hd
    rcases hd with hd | hd
    · exact isPrintableAscii_of_mem_glyphs (h c List.mem_cons_self) hd
    · exact ih (fun d hd => h d (List.mem_cons_of_mem _ hd)) hd

/-- What is shown of a line begins with what is shown of its beginning. -/
theorem cells_append (tabWidth column index : Nat) (l m : List Char) :
    cells tabWidth column index (l ++ m) = cells tabWidth column index l ++
    cells tabWidth (column + (cells tabWidth column index l).length) (index + l.length) m := by
  induction l generalizing column index with
  | nil => rfl
  | cons c l ih =>
    simp only [List.cons_append, cells, ih, List.append_assoc, List.length_append, List.length_map,
      List.length_cons]
    congr 3
    · omega
    · omega

/-- The shown bytes are bytes of the line. -/
theorem index_of_mem_cells {c : Char} {i : Nat} (h : (c, i) ∈ cells tabWidth column index l) :
    index ≤ i ∧ i < index + l.length := by
  induction l generalizing column index with
  | nil => cases h
  | cons d l ih =>
    rw [cells, List.mem_append] at h
    rw [List.length_cons]
    rcases h with h | h
    · obtain ⟨_, _, heq⟩ := List.mem_map.1 h
      cases heq
      omega
    · have := ih h
      omega

/-- Every byte of a line is shown. -/
theorem length_le_columns (hw : 0 < tabWidth) (l : List Char) (column index : Nat) :
    l.length ≤ (cells tabWidth column index l).length := by
  induction l generalizing column index with
  | nil => exact Nat.zero_le _
  | cons c l ih =>
    have := glyphs_length_pos hw column c
    have := ih (column + (glyphs tabWidth column c).length) (index + 1)
    rw [cells, List.length_append, List.length_map, List.length_cons]
    omega

/-- The columns of the first bytes. -/
theorem leadWidth_eq {s : String} (h : ∀ c ∈ s.toList, isLineAscii c) (n : Nat) :
    leadWidth tabWidth s n = columns tabWidth (s.toList.take n) := by
  have htake : ∀ c ∈ s.toList.take n, isLineAscii c := fun c hc => h c (List.mem_of_mem_take hc)
  have hslice : (slice s 0 n).map Piece.toChar = s.toList.take n := by
    rw [slice_ascii fun c hc => lt_of_isLineAscii (h c hc), List.map_map]
    exact List.map_id _
  rw [leadWidth, hslice, displayWidth_printable fun _ => isPrintableAscii_of_mem_expandTabs htake,
    ← map_fst_cells 0 0 htake, List.length_map]

/-- What follows in a line begins at the column where the first part ends. -/
theorem columns_append (l m : List Char) : columns tabWidth (l ++ m) =
    columns tabWidth l + (cells tabWidth (columns tabWidth l) l.length m).length := by
  rw [columns, cells_append, List.length_append, Nat.zero_add, Nat.zero_add]

/-- More bytes of a line are fewer of them, and those in between. -/
theorem take_eq_append {a b : Nat} (hab : a ≤ b) (l : List Char) :
    l.take b = l.take a ++ (l.take b).drop a := by
  conv_lhs => rw [← List.take_append_drop a (l.take b), List.take_take, min_eq_left hab]

/-- More bytes of a line take no fewer columns. -/
theorem columns_take_le (tabWidth : Nat) {a b : Nat} (hab : a ≤ b) (l : List Char) :
    columns tabWidth (l.take a) ≤ columns tabWidth (l.take b) := by
  rw [take_eq_append hab l, columns_append]
  exact Nat.le_add_right _ _

/-- More bytes take more columns. -/
theorem columns_take_lt (hw : 0 < tabWidth) {a b : Nat} (hab : a < b) (hb : b ≤ l.length) :
    columns tabWidth (l.take a) < columns tabWidth (l.take b) := by
  have hmore := length_le_columns hw ((l.take b).drop a) (columns tabWidth (l.take a))
    (l.take a).length
  rw [List.length_drop, List.length_take, min_eq_left hb] at hmore
  rw [take_eq_append hab.le l, columns_append]
  omega

/-- A column of a line shows one of its first bytes if it is one of their columns. -/
theorem index_lt_iff {n j i : Nat} {c : Char} (hn : n ≤ l.length)
    (h : (cells tabWidth 0 0 l)[j]? = some (c, i)) : i < n ↔ j < columns tabWidth (l.take n) := by
  have hsplit := cells_append tabWidth 0 0 (l.take n) (l.drop n)
  rw [List.take_append_drop] at hsplit
  rw [hsplit] at h
  by_cases hj : j < columns tabWidth (l.take n)
  · rw [List.getElem?_append_left hj] at h
    have := index_of_mem_cells (List.mem_of_getElem? h)
    rw [List.length_take] at this
    exact iff_of_true (by omega) hj
  · rw [List.getElem?_append_right (Nat.le_of_not_lt hj)] at h
    have := index_of_mem_cells (List.mem_of_getElem? h)
    rw [List.length_take] at this
    exact iff_of_false (by omega) hj

/-- The columns that show the bytes from one offset to another. -/
theorem shown_iff {a b : Nat} (hab : a ≤ b) (hb : b ≤ l.length) (j : Nat) :
    (∃ c i, (cells tabWidth 0 0 l)[j]? = some (c, i) ∧ a ≤ i ∧ i < b) ↔
      columns tabWidth (l.take a) ≤ j ∧ j < columns tabWidth (l.take b) := by
  constructor
  · rintro ⟨c, i, h, ha, hib⟩
    have h₁ := index_lt_iff (n := a) (by omega) h
    have h₂ := index_lt_iff hb h
    omega
  · rintro ⟨ha, hjb⟩
    have hj : j < (cells tabWidth 0 0 l).length := by
      have := columns_take_le tabWidth hb l
      rw [List.take_length] at this
      exact Nat.lt_of_lt_of_le hjb this
    obtain ⟨⟨c, i⟩, h⟩ : ∃ p, (cells tabWidth 0 0 l)[j]? = some p :=
      ⟨_, List.getElem?_eq_getElem hj⟩
    have h₁ := index_lt_iff (n := a) (by omega) h
    have h₂ := index_lt_iff hb h
    exact ⟨c, i, h, by omega, by omega⟩

end

end FrozenGlobals.Rendering
