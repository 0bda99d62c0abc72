import FrozenGlobals.Script.Program
import FrozenGlobals.Text.Width
import Mathlib

/-!
# Texts of ASCII characters

Sources are cut at byte offsets and split into lines, and what is shown of them is counted in
columns. In a text of ASCII characters the bytes are the characters, one by one: its bytes
(`utf8_ascii`), what the first of them spell (`slice_ascii`) and the line and column of an offset
(`linePosition_append`) are read off its list of characters, and so are its lines, whatever their
characters (`splitOn_newline`). A printable character takes one column (`displayWidth_printable`).
-/

namespace FrozenGlobals.Text

open String (ofList utf8Len)
open String.Pos.Raw (extract get next atEnd unoffsetBy)
open Script (linePosition)

/-- A property of all ASCII characters, checked one by one. -/
theorem ascii_forall {P : Char → Prop} (h : ∀ n < 128, P (Char.ofNat n)) {c : Char}
    (hc : c.toNat < 128) : P c := by
  have := h c.toNat hc
  rwa [Char.ofNat_toNat] at this

/-- Characters that print as themselves. -/
def isPrintableAscii (c : Char) : Bool := 0x20 ≤ c.toNat && c.toNat < 0x7f

/-- Printable characters, tabs and line breaks. -/
def isSourceAscii (c : Char) : Bool := isPrintableAscii c || c == '\t' || c == '\n'

/-- Printable characters are ASCII characters. -/
theorem lt_of_isPrintableAscii {c : Char} (h : isPrintableAscii c) : c.toNat < 128 := by
  simp only [isPrintableAscii, Bool.and_eq_true, decide_eq_true_eq] at h
  omega

/-- Characters of ASCII sources are ASCII characters. -/
theorem lt_of_isSourceAscii {c : Char} (h : isSourceAscii c) : c.toNat < 128 := by
  simp only [isSourceAscii, Bool.or_eq_true, beq_iff_eq] at h
  rcases h with (h | rfl) | rfl
  · exact lt_of_isPrintableAscii h
  · decide
  · decide

/-! ## Bytes -/

/-- Collecting bytes from an index on appends those from there to the end. -/
theorem toList_loop (b : ByteArray) (i : Nat) (r : List UInt8) :
    ByteArray.toList.loop b i r = r.reverse ++ b.data.toList.drop i := by
  fun_induction ByteArray.toList.loop b i r with
  | case1 i r h ih =>
    have hi : i < b.data.toList.length := h
    rw [ih, List.reverse_cons, List.append_assoc, List.drop_eq_getElem_cons hi]
    simp [ByteArray.get!, getElem!_pos, h]
  | case2 i r h => rw [List.drop_eq_nil_of_le (Nat.le_of_not_lt h), List.append_nil]

/-- The bytes of an array are its data. -/
theorem toList_eq_data (b : ByteArray) : b.toList = b.data.toList := toList_loop b 0 []

/-- An ASCII character is one byte. -/
theorem utf8EncodeChar_ascii {c : Char} (hc : c.toNat < 128) :
    String.utf8EncodeChar c = [c.toUInt8] :=
  ascii_forall (P := fun c => String.utf8EncodeChar c = [c.toUInt8]) (by decide +kernel) hc

/-- The bytes of an ASCII text are the codes of its characters. -/
theorem utf8_ascii {s : String} (h : ∀ c ∈ s.toList, c.toNat < 128) :
    s.toUTF8.toList = s.toList.map Char.toUInt8 := by
  calc s.toUTF8.toList
    _ = s.toList.utf8Encode.data.toList := by rw [toList_eq_data, String.utf8Encode_toList]; rfl
    _ = s.toList.flatMap String.utf8EncodeChar := by rw [List.utf8Encode, List.data_toByteArray]
    _ = s.toList.map Char.toUInt8 := by
      rw [List.map_eq_flatMap]
      exact List.flatMap_congr fun c hc => utf8EncodeChar_ascii (h c hc)

/-- An ASCII text has as many bytes as characters. -/
theorem utf8ByteSize_ascii {s : String} (h : ∀ c ∈ s.toList, c.toNat < 128) :
    s.utf8ByteSize = s.toList.length := by
  calc s.utf8ByteSize
    _ = s.toUTF8.toList.length := by rw [toList_eq_data]; rfl
    _ = s.toList.length := by rw [utf8_ascii h, List.length_map]

/-- The first bytes of a text. -/
theorem extract_ascii {s : String} (h : ∀ c ∈ s.toList, c.toNat < 128) (n : Nat) :
    (s.toUTF8.extract 0 n).toList = (s.toList.take n).map Char.toUInt8 := by
  rw [toList_eq_data, ByteArray.data_extract, Array.toList_extract, ← toList_eq_data, utf8_ascii h,
    List.extract_eq_take_drop, List.drop_zero, Nat.sub_zero, List.map_take]

/-- ASCII bytes are read as characters. -/
theorem pieces_ascii {cs : List Char} (h : ∀ c ∈ cs, c.toNat < 128) :
    pieces (cs.map Char.toUInt8) = cs.map .char := by
  induction cs with
  | nil => rw [List.map_nil, pieces, List.map_nil]
  | cons c cs ih =>
    have hleading : ∀ rest, leadingChar? (c.toUInt8 :: rest) = some (c, 1) := by
      intro rest
      have hbyte : c.toUInt8.toNat < 0x80 ∧ charOf? c.toUInt8.toNat = some c :=
        ascii_forall (P := fun c => c.toUInt8.toNat < 0x80 ∧ charOf? c.toUInt8.toNat = some c)
          (by decide +kernel) (h c List.mem_cons_self)
      simp only [leadingChar?, hbyte, if_true, Option.map_some]
    rw [List.map_cons, pieces, hleading]
    dsimp only
    rw [Nat.sub_self, List.drop_zero, ih fun d hd => h d (List.mem_cons_of_mem _ hd), List.map_cons]

/-- What the first bytes of a text spell. -/
theorem slice_ascii {s : String} (h : ∀ c ∈ s.toList, c.toNat < 128) (n : Nat) :
    slice s 0 n = (s.toList.take n).map .char := by
  rw [slice, extract_ascii h]
  exact pieces_ascii fun c hc => h c (List.mem_of_mem_take hc)

/-! ## Lines -/

/-- Splitting a text at line breaks, from the middle of a line on. -/
theorem splitOnAux_newline (l m r : List Char) (acc : List String) :
    (ofList (l ++ m ++ r)).splitOnAux "\n" ⟨utf8Len l⟩ ⟨utf8Len l + utf8Len m⟩ 0 acc =
      acc.reverse ++ (List.splitOnPPrepend (· == '\n') r m.reverse).map ofList := by
  induction r generalizing l m acc with
  | nil =>
    have hend : atEnd (ofList (l ++ m ++ [])) ⟨utf8Len l + utf8Len m⟩ = true := by
      simpa using (String.atEnd_of_valid (l ++ m) []).2 rfl
    rw [String.splitOnAux.eq_def, if_pos hend, String.extract_of_valid l m []]
    simp
  | cons c r ih =>
    have hend : ¬ atEnd (ofList (l ++ m ++ c :: r)) ⟨utf8Len l + utf8Len m⟩ = true := by
      have := (String.atEnd_of_valid (l ++ m) (c :: r)).not.2 (List.cons_ne_nil c r)
      simpa [-String.ofList_append] using this
    have hget : get (ofList (l ++ m ++ c :: r)) ⟨utf8Len l + utf8Len m⟩ = c := by
      simpa [-String.ofList_append] using String.get_of_valid (l ++ m) (c :: r)
    have hnext : next (ofList (l ++ m ++ c :: r)) ⟨utf8Len l + utf8Len m⟩ =
        ⟨utf8Len l + utf8Len m + c.utf8Size⟩ := by
      simpa [-String.ofList_append] using String.next_of_valid (l ++ m) c r
    rw [String.splitOnAux.eq_def, if_neg hend, hget, show get "\n" 0 = '\n' by decide]
    dsimp only
    rw [hnext, show next "\n" 0 = ⟨1⟩ by decide, if_pos (by decide : atEnd "\n" ⟨1⟩ = true)]
    by_cases hc : c = '\n'
    · subst hc
      have h := ih (l ++ m ++ ['\n']) [] (ofList m :: acc)
      have hback : (⟨utf8Len l + utf8Len m + '\n'.utf8Size⟩ : String.Pos.Raw).unoffsetBy ⟨1⟩ =
          ⟨utf8Len l + utf8Len m⟩ := rfl
      rw [if_pos (beq_self_eq_true _), hback, String.extract_of_valid l m ('\n' :: r),
        List.splitOnPPrepend_cons_eq_if, if_pos (beq_self_eq_true _)]
      simpa [Nat.add_assoc, -String.ofList_append] using h
    · have h := ih l (m ++ [c]) acc
      have hsame : unoffsetBy ⟨utf8Len l + utf8Len m⟩ 0 = ⟨utf8Len l + utf8Len m⟩ := rfl
      rw [if_neg (by simpa using hc), hsame, hnext, List.splitOnPPrepend_cons_eq_if]
      simpa [hc, Nat.add_assoc, -String.ofList_append] using h

/-- The lines of a text are what stands between its line breaks. -/
theorem splitOn_newline (s : String) : s.splitOn "\n" = (s.toList.splitOn '\n').map ofList := by
  have h := splitOnAux_newline [] [] s.toList []
  rw [List.splitOn_eq_splitOnP]
  unfold String.splitOn List.splitOnP
  rw [if_neg (by decide)]
  simpa using h

/-- A line of a text, and what stands before and after it. -/
structure IsLine (text before line after : List Char) : Prop where
  eq : text = before ++ line ++ after
  whole : '\n' ∉ line
  starts : before = [] ∨ ∃ b, before = b ++ ['\n']
  ends : after = [] ∨ ∃ a, after = '\n' :: a

/-- Texts are made of lines. -/
theorem lines_induction {P : List Char → Prop} (last : ∀ line, '\n' ∉ line → P line)
    (more : ∀ line rest, '\n' ∉ line → P rest → P (line ++ '\n' :: rest)) (text : List Char) :
      P text := by
  induction hn : text.length using Nat.strong_induction_on generalizing text with
  | _ n ih =>
    by_cases h : '\n' ∈ text
    · obtain ⟨line, rest, rfl, hline⟩ := List.eq_append_cons_of_mem h
      rw [List.length_append, List.length_cons] at hn
      exact more line rest hline (ih rest.length (by omega) rest rfl)
    · exact last text h

/-- The first line of a text ends at the first line break. -/
theorem splitOn_append_newline {line : List Char} (h : '\n' ∉ line) (rest : List Char) :
    (line ++ '\n' :: rest).splitOn '\n' = line :: rest.splitOn '\n' := by
  rw [List.splitOn_append_cons_self, List.splitOn_eq_singleton h, List.singleton_append]

/-- There is one line more than there are line breaks. -/
theorem length_splitOn (text : List Char) : (text.splitOn '\n').length = text.count '\n' + 1 := by
  induction text using lines_induction with
  | last line h =>
    rw [List.splitOn_eq_singleton h, List.count_eq_zero_of_not_mem h, List.length_singleton]
  | more line rest h ih =>
    rw [splitOn_append_newline h, List.length_cons, ih, List.count_append, List.count_cons_self,
      List.count_eq_zero_of_not_mem h]
    omega

/-- Lines have no line breaks, and consist of what the text consists of. -/
theorem of_mem_splitOn {text l : List Char} (hl : l ∈ text.splitOn '\n') :
    '\n' ∉ l ∧ ∀ c ∈ l, c ∈ text := by
  induction text using lines_induction with
  | last line h =>
    rw [List.splitOn_eq_singleton h, List.mem_singleton] at hl
    rw [hl]
    exact ⟨h, fun _ hc => hc⟩
  | more line rest h ih =>
    rw [splitOn_append_newline h, List.mem_cons] at hl
    rcases hl with hl | hl
    · rw [hl]
      exact ⟨h, fun c hc => List.mem_append_left _ hc⟩
    · exact ⟨(ih hl).1, fun c hc =>
        List.mem_append_right _ (List.mem_cons_of_mem _ ((ih hl).2 c hc))⟩

/-- A line is found behind as many lines as there are line breaks before it. -/
theorem IsLine.getElem?_splitOn {text before line after : List Char}
    (h : IsLine text before line after) :
    (text.splitOn '\n')[before.count '\n']? = some line := by
  have hfirst : ((line ++ after).splitOn '\n')[0]? = some line := by
    rcases h.ends with rfl | ⟨a, rfl⟩
    · rw [List.append_nil, List.splitOn_eq_singleton h.whole]
      rfl
    · rw [splitOn_append_newline h.whole]
      rfl
  rw [h.eq, List.append_assoc]
  rcases h.starts with rfl | ⟨b, rfl⟩
  · exact hfirst
  · have hlength : (b ++ ['\n']).count '\n' = (b.splitOn '\n').length := by
      rw [length_splitOn, List.count_append, List.count_singleton_self]
    rw [List.append_assoc, List.singleton_append, List.splitOn_append_cons_self, hlength,
      List.getElem?_append_right le_rfl, Nat.sub_self]
    exact hfirst

/-! ## Positions -/

/-- The line and column behind a byte. -/
def advance (position : Nat × Nat) (c : Char) : Nat × Nat :=
  if c = '\n' then (position.1 + 1, 1) else (position.1, position.2 + 1)

/-- The line and column of an offset are counted character by character. -/
theorem linePosition_ascii {s : String} (h : ∀ c ∈ s.toList, c.toNat < 128) (n : Int) :
    linePosition s n = (s.toList.take n.toNat).foldl advance (1, 1) := by
  rw [linePosition, extract_ascii h, List.foldl_map]
  refine List.foldl_ext _ _ _ fun p c hc => ?_
  have hbyte : (c.toUInt8 == '\n'.toUInt8) = decide (c = '\n') :=
    ascii_forall (P := fun c => (c.toUInt8 == '\n'.toUInt8) = decide (c = '\n')) (by decide +kernel)
      (h c (List.mem_of_mem_take hc))
  simp only [advance, hbyte, decide_eq_true_eq]

/-- Inside of a line the column grows. -/
theorem foldl_advance_line {line : List Char} (h : '\n' ∉ line) (p : Nat × Nat) :
    line.foldl advance p = (p.1, p.2 + line.length) := by
  induction line generalizing p with
  | nil => rfl
  | cons c line ih =>
    rw [List.mem_cons, not_or] at h
    rw [List.foldl_cons, ih h.2, advance, if_neg (Ne.symm h.1), List.length_cons]
    simp only [Prod.mk.injEq, true_and]
    omega

/-- Line breaks are counted as lines. -/
theorem foldl_advance_fst (cs : List Char) (p : Nat × Nat) :
    (cs.foldl advance p).1 = p.1 + cs.count '\n' := by
  induction cs generalizing p with
  | nil => rfl
  | cons c cs ih =>
    rw [List.foldl_cons, ih, List.count_cons, advance]
    by_cases hc : c = '\n'
    · simp [hc]
      omega
    · simp [hc]

/-- The line of an offset. -/
theorem linePosition_fst {s : String} (h : ∀ c ∈ s.toList, c.toNat < 128) (n : Int) :
    (linePosition s n).1 = (s.toList.take n.toNat).count '\n' + 1 := by
  rw [linePosition_ascii h, foldl_advance_fst, Nat.add_comm]

/-- The line and column of an offset in a line, or right behind it. -/
theorem linePosition_append {s : String} (h : ∀ c ∈ s.toList, c.toNat < 128) {n : Int}
    {before line : List Char} (htake : s.toList.take n.toNat = before ++ line)
    (hstarts : before = [] ∨ ∃ b, before = b ++ ['\n']) (hwhole : '\n' ∉ line) :
    linePosition s n = (before.count '\n' + 1, line.length + 1) := by
  have hbefore : before.foldl advance (1, 1) = (before.count '\n' + 1, 1) := by
    refine Prod.ext ?_ ?_
    · rw [foldl_advance_fst, Nat.add_comm]
    · rcases hstarts with rfl | ⟨b, rfl⟩
      · rfl
      · rw [List.foldl_append]
        rfl
  rw [linePosition_ascii h, htake, List.foldl_append, hbefore, foldl_advance_line hwhole]
  simp only [Prod.mk.injEq, true_and]
  omega

/-! ## Widths -/

/-- Ranges that stay out of an interval have no character of it. -/
theorem CharRanges.has_eq_false_of_outside {ranges : CharRanges} {first last : Nat} {c : Char}
    (h : ∀ r ∈ ranges, r.2 < first ∨ last < r.1) (hfirst : first ≤ c.toNat)
    (hlast : c.toNat ≤ last) : ranges.has c = false := by
  refine List.any_eq_false.2 fun r hr hc => ?_
  simp only [Bool.and_eq_true, decide_eq_true_eq] at hc
  have := h r hr
  omega

/-- Printable characters are one column wide and join no cluster. -/
theorem width_printable {c : Char} (h : isPrintableAscii c) :
    charWidth c = 1 ∧ clusterRole c = .other := by
  have hbounds : 0x20 ≤ c.toNat ∧ c.toNat ≤ 0x7e := by
    simp only [isPrintableAscii, Bool.and_eq_true, decide_eq_true_eq] at h
    omega
  have hout {ranges : CharRanges} (houtside : ∀ r ∈ ranges, r.2 < 0x20 ∨ 0x7e < r.1) :
      ranges.has c = false :=
    CharRanges.has_eq_false_of_outside houtside hbounds.1 hbounds.2
  have hinvisible : invisibleRanges.has c = false := hout (by decide)
  have hprepend : prependRanges.has c = false := hout (by decide)
  have hspacing : spacingRanges.has c = false := hout (by decide +kernel)
  have hpictograph : pictographRanges.has c = false := hout (by decide +kernel)
  constructor
  · rw [charWidth, if_pos (by omega), hinvisible, if_neg Bool.false_ne_true]
  · simp only [clusterRole, isExtending, isSpacing, hprepend, hspacing, hpictograph, beq_iff_eq,
      Bool.and_eq_true, Bool.or_eq_true, decide_eq_true_eq, Bool.false_eq_true, or_false, if_false]
    -- the other roles are those of characters beyond ASCII or of controls
    iterate 11 rw [if_neg (by omega)]

/-- Printable characters take a column each. -/
theorem displayWidth_printable {cs : List Char} (h : ∀ c ∈ cs, isPrintableAscii c) :
    displayWidth cs = cs.length := by
  have hclusters : ∀ cs : List Char, (∀ c ∈ cs, isPrintableAscii c) →
      clustersWidth (.start .other) 1 cs = 1 + cs.length := by
    intro cs hcs
    induction cs with
    | nil => rfl
    | cons c cs ih =>
      obtain ⟨hwidth, hrole⟩ := width_printable (hcs c List.mem_cons_self)
      rw [clustersWidth, hrole, hwidth]
      simp only [show (ClusterState.start .other).breaksBefore .other = true from rfl, if_true]
      rw [ih fun d hd => hcs d (List.mem_cons_of_mem _ hd), List.length_cons]
      omega
  cases cs with
  | nil => rfl
  | cons c cs =>
    obtain ⟨hwidth, hrole⟩ := width_printable (h c List.mem_cons_self)
    rw [displayWidth, hwidth, hrole, hclusters cs fun d hd => h d (List.mem_cons_of_mem _ hd),
      List.length_cons, Nat.add_comm]

end FrozenGlobals.Text
