import FrozenGlobals.Text.Quoted
import Mathlib.Data.List.Basic
import Mathlib.Tactic.IntervalCases

/-!
# Reading quoted text back

Every piece of quoted text is written so that a reader who sees no more than what comes next knows
where it ends and what it was: `readPiece` is that reader, and `readPiece_quotePiece` says that it
gets back what `quotePiece` wrote. A closing quote is never read as a piece, so quoted text ends
where its reader says it ends, whatever follows it (`quote_append_inj`).

A stray byte and the character with its number are written differently, because a stray byte is
never below `0x80` and characters from there on have four digits.
-/

namespace FrozenGlobals.Text

/-! ## Hexadecimal digits -/

/-- The value of a lower case hexadecimal digit. -/
def hexValue (c : Char) : Nat := if c.isDigit then c.toNat - '0'.toNat else c.toNat - 'a'.toNat + 10

/-- The number that hexadecimal digits stand for. -/
def readHex (cs : List Char) : Nat := cs.foldl (fun n c => 16 * n + hexValue c) 0

/-- A digit is read as its value. -/
theorem hexValue_digitChar {d : Nat} (hd : d < 16) : hexValue d.digitChar = d := by
  interval_cases d <;> rfl

/-- One more digit multiplies what was read by sixteen and adds its own value. -/
theorem readHex_append_singleton (cs : List Char) (c : Char) :
    readHex (cs ++ [c]) = 16 * readHex cs + hexValue c := by
  simp [readHex]

/-- Digits are read as the number they were written for. -/
theorem readHex_toDigits (n : Nat) : readHex (Nat.toDigits 16 n) = n := by
  induction n using Nat.strong_induction_on with
  | _ n ih =>
    rw [Nat.toDigits_eq_if (by decide)]
    split
    next hlt => simpa [readHex] using hexValue_digitChar hlt
    next hge =>
      rw [readHex_append_singleton, ih (n / 16) (by omega),
        hexValue_digitChar (Nat.mod_lt n (by decide)), Nat.div_add_mod]

/-- Zeros in front do not count. -/
theorem readHex_zeros (count : Nat) (cs : List Char) :
    readHex (List.replicate count '0' ++ cs) = readHex cs := by
  induction count with
  | zero => rfl
  | succ count ih => exact ih

/-- A number is read back from its padded digits. -/
@[simp] theorem readHex_hex (width n : Nat) : readHex (hex width n).toList = n := by
  simp [hex, readHex_zeros, readHex_toDigits]

/-- Padded digits have the width they are padded to if the number fits. -/
theorem length_hex {width n : Nat} (hwidth : 0 < width) (hn : n < 16 ^ width) :
    (hex width n).toList.length = width := by
  have := (Nat.length_toDigits_le_iff (b := 16) (by decide) hwidth).2 hn
  simp only [hex, String.toList_ofList, List.length_append, List.length_replicate]
  omega

/-! ## One piece -/

/-- The number of hexadecimal digits behind the letter of an escape. -/
def escapeWidth? : Char → Option Nat
  | 'x' => some 2
  | 'u' => some 4
  | 'U' => some 8
  | _ => none

/-- What a letter stands for behind a backslash. -/
def unescape : Char → Char
  | 'a' => Char.ofNat 7
  | 'b' => Char.ofNat 8
  | 'f' => Char.ofNat 12
  | 'n' => Char.ofNat 10
  | 'r' => Char.ofNat 13
  | 't' => Char.ofNat 9
  | 'v' => Char.ofNat 11
  | c => c

/-- The piece with a given number. Two digits give a byte, more give a character. -/
def pieceOfCode (width n : Nat) : Piece :=
  if width = 2 ∧ 0x80 ≤ n then .stray n.toUInt8 else .char (Char.ofNat n)

/-- The piece at the front of the inside of quoted text, and what follows it. -/
def readPiece : List Char → Option (Piece × List Char)
  | [] => none
  | c :: rest =>
      if c = '"' then none
      else if c = '\\' then
        match rest with
        | [] => none
        | letter :: rest =>
            match escapeWidth? letter with
            | some width => some (pieceOfCode width (readHex (rest.take width)), rest.drop width)
            | none => some (.char (unescape letter), rest)
      else some (.char c, rest)

/-- Stray bytes belong to no character, so they are not below `0x80`. -/
def Piece.Whole : Piece → Prop
  | .char _ => True
  | .stray b => 0x80 ≤ b.toNat

/-- A character that is neither a quote nor a backslash stands for itself. -/
theorem readPiece_self {c : Char} (hquote : c ≠ '"') (hslash : c ≠ '\\') (rest : List Char) :
    readPiece (c :: rest) = some (.char c, rest) := by
  simp [readPiece, hquote, hslash]

/-- A letter behind a backslash is unescaped. -/
theorem readPiece_letter {letter : Char} (h : escapeWidth? letter = none) (rest : List Char) :
    readPiece ('\\' :: letter :: rest) = some (.char (unescape letter), rest) := by
  simp [readPiece, h]

/-- Digits behind the letter of an escape are read as a code. -/
theorem readPiece_code (letter : Char) {width n : Nat} (h : escapeWidth? letter = some width)
    (hwidth : 0 < width) (hn : n < 16 ^ width) (rest : List Char) :
    readPiece ('\\' :: letter :: ((hex width n).toList ++ rest)) =
      some (pieceOfCode width n, rest) := by
  have hlength := length_hex hwidth hn
  simp [readPiece, h, List.take_left' hlength, List.drop_left' hlength]

/-- The letter of a control character is unescaped to that character. -/
theorem unescape_controlLetter {c letter : Char} (h : controlLetter? c = some letter) :
    escapeWidth? letter = none ∧ unescape letter = c := by
  have hc : ∀ {n : Nat}, c.toNat = n → Char.ofNat n = c := by
    rintro n rfl
    exact Char.ofNat_toNat c
  unfold controlLetter? at h
  split at h <;> first | cases h; exact ⟨rfl, hc ‹_›⟩ | cases h

/-- Every character is read back. -/
theorem readPiece_quoteChar (c : Char) (rest : List Char) :
    readPiece ((quoteChar c).toList ++ rest) = some (.char c, rest) := by
  have hsmall : c.toNat < 0x110000 := by
    have := c.valid
    simp only [UInt32.isValidChar, Nat.isValidChar] at this
    simp only [Char.toNat]
    omega
  unfold quoteChar
  split
  next h =>
    simp only [Bool.or_eq_true, beq_iff_eq] at h
    obtain rfl | rfl := h <;> rfl
  next h =>
    simp only [Bool.or_eq_true, beq_iff_eq, not_or] at h
    split
    next => simpa using readPiece_self h.1 h.2 rest
    next =>
      split
      next letter hletter =>
        obtain ⟨hwidth, hback⟩ := unescape_controlLetter hletter
        simpa [hback] using readPiece_letter hwidth rest
      next =>
        -- the three widths: what is read has the number of `c`
        split
        next hlt =>
          have := readPiece_code 'x' rfl (by decide) (n := c.toNat) (by omega) rest
          simpa [pieceOfCode, Nat.not_le_of_lt hlt] using this
        next =>
          split
          next hlt =>
            have := readPiece_code 'u' rfl (by decide) (n := c.toNat) (by omega) rest
            simpa [pieceOfCode] using this
          next =>
            have := readPiece_code 'U' rfl (by decide) (n := c.toNat) (by omega) rest
            simpa [pieceOfCode] using this

/-- The reader gets back what was written. -/
theorem readPiece_quotePiece {p : Piece} (hp : p.Whole) (rest : List Char) :
    readPiece ((quotePiece p).toList ++ rest) = some (p, rest) := by
  cases p with
  | char c => exact readPiece_quoteChar c rest
  | stray b =>
    have hb : b.toNat < 16 ^ 2 := b.toNat_lt
    have := readPiece_code 'x' rfl (by decide) hb rest
    simpa [quotePiece, pieceOfCode, show 0x80 ≤ b.toNat from hp] using this

/-! ## Whole texts -/

/-- Quoted text is its pieces between quotes. -/
theorem toList_quotePieces (ps : List Piece) :
    (quotePieces ps).toList = '"' :: (ps.flatMap (fun p => (quotePiece p).toList) ++ ['"']) := by
  simp [quotePieces, List.flatMap_map]

/-- Where the inside of quoted text ends does not depend on what follows the closing quote. -/
theorem inside_append_inj {ps qs : List Piece} (hps : ∀ p ∈ ps, p.Whole) (hqs : ∀ q ∈ qs, q.Whole)
    {r u : List Char}
    (h : ps.flatMap (fun p => (quotePiece p).toList) ++ '"' :: r =
      qs.flatMap (fun q => (quotePiece q).toList) ++ '"' :: u) : ps = qs ∧ r = u := by
  induction ps generalizing qs with
  | nil =>
    cases qs with
    | nil => simpa using h
    | cons q qs =>
      have := congrArg readPiece h
      rw [List.flatMap_cons, List.append_assoc,
        readPiece_quotePiece (hqs q List.mem_cons_self)] at this
      cases this
  | cons p ps ih =>
    have hread := congrArg readPiece h
    rw [List.flatMap_cons, List.append_assoc,
      readPiece_quotePiece (hps p List.mem_cons_self)] at hread
    cases qs with
    | nil => cases hread
    | cons q qs =>
      rw [List.flatMap_cons, List.append_assoc,
        readPiece_quotePiece (hqs q List.mem_cons_self)] at hread
      simp only [Option.some.injEq, Prod.mk.injEq] at hread
      obtain ⟨rfl, htail⟩ := hread
      obtain ⟨rfl, rfl⟩ := ih (fun _ h => hps _ (List.mem_cons_of_mem _ h))
        (fun _ h => hqs _ (List.mem_cons_of_mem _ h)) htail
      exact ⟨rfl, rfl⟩

/-- Quoted pieces can be told apart from each other and from what follows them. -/
theorem quotePieces_append_inj {ps qs : List Piece} (hps : ∀ p ∈ ps, p.Whole)
    (hqs : ∀ q ∈ qs, q.Whole) {r u : List Char}
    (h : (quotePieces ps).toList ++ r = (quotePieces qs).toList ++ u) : ps = qs ∧ r = u := by
  simp only [toList_quotePieces, List.cons_append, List.append_assoc, List.nil_append,
    List.cons.injEq, true_and] at h
  exact inside_append_inj hps hqs h

/-- Quoted texts can be told apart from each other and from what follows them. -/
theorem quote_append_inj {s t : String} {r u : List Char}
    (h : (quote s).toList ++ r = (quote t).toList ++ u) : s = t ∧ r = u := by
  have hwhole : ∀ s, ∀ p ∈ piecesOf s, p.Whole := by
    intro s p hp
    obtain ⟨c, -, rfl⟩ := List.mem_map.1 hp
    trivial
  obtain ⟨hpieces, hrest⟩ := quotePieces_append_inj (hwhole s) (hwhole t) h
  have hchars := List.map_injective_iff.2 (fun _ _ => Piece.char.inj) hpieces
  exact ⟨String.toList_inj.1 hchars, hrest⟩

/-- Quoted texts can be told apart. -/
theorem quote_injective : Function.Injective quote := fun s t h =>
  (quote_append_inj (r := []) (u := []) (by rw [h])).1

end FrozenGlobals.Text
