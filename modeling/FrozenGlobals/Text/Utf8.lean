/-!
# Text cut at byte offsets

Source ranges are byte offsets, so a range can cut a character in two. `Piece` is what is found in
such a text: whole characters and stray bytes.
-/

namespace FrozenGlobals.Text

/-- A whole character, or a byte that belongs to none. -/
inductive Piece where
  | char (c : Char)
  | stray (byte : UInt8)
deriving DecidableEq, Repr

/-- The payload of a continuation byte. -/
def continuation? (b : UInt8) : Option Nat :=
  if 0x80 ≤ b.toNat ∧ b.toNat < 0xc0 then some (b.toNat - 0x80) else none

/-- The character with a given code point, unless it is a surrogate or too large. -/
def charOf? (n : Nat) : Option Char :=
  if h : n.isValidChar then some (Char.ofNatAux n h) else none

/-- The character encoded at the front of `bytes` and the number of bytes it takes. -/
def leadingChar? : List UInt8 → Option (Char × Nat)
  | [] => none
  | b0 :: rest =>
    let n0 := b0.toNat
    if n0 < 0x80 then (charOf? n0).map (·, 1)
    else if 0xc2 ≤ n0 ∧ n0 < 0xe0 then
      match rest with
      | b1 :: _ => do
          let n1 ← continuation? b1
          (charOf? ((n0 - 0xc0) * 64 + n1)).map (·, 2)
      | _ => none
    else if 0xe0 ≤ n0 ∧ n0 < 0xf0 then
      match rest with
      | b1 :: b2 :: _ => do
          let n1 ← continuation? b1
          let n2 ← continuation? b2
          let n := ((n0 - 0xe0) * 64 + n1) * 64 + n2
          if n < 0x800 then none else (charOf? n).map (·, 3)
      | _ => none
    else if 0xf0 ≤ n0 ∧ n0 < 0xf5 then
      match rest with
      | b1 :: b2 :: b3 :: _ => do
          let n1 ← continuation? b1
          let n2 ← continuation? b2
          let n3 ← continuation? b3
          let n := (((n0 - 0xf0) * 64 + n1) * 64 + n2) * 64 + n3
          if n < 0x10000 then none else (charOf? n).map (·, 4)
      | _ => none
    else none

/-- The pieces of a byte sequence. Each byte that belongs to no character is a piece of its own. -/
def pieces : List UInt8 → List Piece
  | [] => []
  | b :: rest =>
    match leadingChar? (b :: rest) with
    | some (c, size) => .char c :: pieces (rest.drop (size - 1))
    | none => .stray b :: pieces rest
termination_by bytes => bytes.length
decreasing_by all_goals simp only [List.length_drop, List.length_cons]; omega

/-- The pieces of a text. -/
def piecesOf (s : String) : List Piece := s.toList.map .char

/-- The pieces between two byte offsets; an offset past the end stands for the end. -/
def slice (s : String) (start stop : Nat) : List Piece :=
  pieces (s.toUTF8.extract start stop).toList

/-- The replacement character. -/
def replacement : Char := Char.ofNat 0xfffd

/-- A piece as a character, a stray byte becoming the replacement character. -/
def Piece.toChar : Piece → Char
  | .char c => c
  | .stray _ => replacement

/-- The text of pieces, each stray byte replaced. -/
def Piece.text (ps : List Piece) : String := String.ofList (ps.map Piece.toChar)

end FrozenGlobals.Text
