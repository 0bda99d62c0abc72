import FrozenGlobals.Text.Printable
import FrozenGlobals.Text.Utf8

/-!
# Quoted text

Text in double quotes. Quotes and backslashes are escaped, printable characters stand for
themselves, and everything else is written as an escape: a letter for the common controls, two
hexadecimal digits for the rest of ASCII and for stray bytes, four or eight for other characters.
-/

namespace FrozenGlobals.Text

/-- The lower case hexadecimal digits of `n`, padded to `width`. -/
def hex (width n : Nat) : String :=
  let digits := Nat.toDigits 16 n
  String.ofList (List.replicate (width - digits.length) '0' ++ digits)

/-- The letter that escapes a control character. -/
def controlLetter? (c : Char) : Option Char :=
  match c.toNat with
  | 7 => some 'a'
  | 8 => some 'b'
  | 12 => some 'f'
  | 10 => some 'n'
  | 13 => some 'r'
  | 9 => some 't'
  | 11 => some 'v'
  | _ => none

/-- A character inside quotes. -/
def quoteChar (c : Char) : String :=
  if c == '"' || c == '\\' then String.ofList ['\\', c]
  else if isPrintable c then c.toString
  else
    match controlLetter? c with
    | some letter => String.ofList ['\\', letter]
    | none =>
      if c.toNat < 0x80 then "\\x" ++ hex 2 c.toNat
      else if c.toNat < 0x10000 then "\\u" ++ hex 4 c.toNat
      else "\\U" ++ hex 8 c.toNat

/-- A piece inside quotes. -/
def quotePiece : Piece → String
  | .char c => quoteChar c
  | .stray b => "\\x" ++ hex 2 b.toNat

/-- Pieces of text in quotes. -/
def quotePieces (ps : List Piece) : String :=
  "\"" ++ String.join (ps.map quotePiece) ++ "\""

/-- A text in quotes. -/
def quote (s : String) : String := quotePieces (piecesOf s)

end FrozenGlobals.Text
