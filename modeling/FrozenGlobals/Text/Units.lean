import FrozenGlobals.Text.Utf8

/-!
# Code units

Escapes of four hexadecimal digits spell code units of 16 bits, of which two may form one character.
-/

namespace FrozenGlobals.Text

/-- The number of code units a character takes. -/
def unitCount (c : Char) : Nat := if c.toNat < 0x10000 then 1 else 2

/-- A text from code units and whole code points: surrogates that meet are joined, the others
replaced. -/
def ofUnits : List Nat → List Char
  | [] => []
  | high :: rest =>
      if 0xd800 ≤ high ∧ high < 0xdc00 then
        match rest with
        | low :: tail =>
            if 0xdc00 ≤ low ∧ low < 0xe000 then
              (charOf? (0x10000 + (high - 0xd800) * 0x400 + (low - 0xdc00))).getD replacement
                :: ofUnits tail
            else replacement :: ofUnits (low :: tail)
        | [] => [replacement]
      else (charOf? high).getD replacement :: ofUnits rest

/-- The value of a hexadecimal digit, and 16 for any other character. -/
def digitValue (c : Char) : Nat :=
  if '0' ≤ c ∧ c ≤ '9' then c.toNat - '0'.toNat
  else if 'a' ≤ c ∧ c ≤ 'f' then c.toNat - 'a'.toNat + 10
  else if 'A' ≤ c ∧ c ≤ 'F' then c.toNat - 'A'.toNat + 10
  else 16

/-- The hexadecimal number of exactly `count` digits at the front. -/
def fixedHex? : Nat → List Char → Nat → Option Nat
  | 0, _, value => some value
  | count + 1, c :: rest, value =>
      if digitValue c < 16 then fixedHex? count rest (value * 16 + digitValue c) else none
  | _ + 1, [], _ => none

end FrozenGlobals.Text
