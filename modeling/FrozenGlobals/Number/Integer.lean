import FrozenGlobals.Number.Reader

/-!
# Integers of 64 bits

Reading an integer from a whole text: a sign, a base and digits. Digits behind `0x`, `0o` or `0b`
have base sixteen, eight or two, digits behind a bare `0` base eight, and others base ten.
Underscores may stand between digits and behind the mark of a base.
-/

namespace FrozenGlobals.Number

open Text (digitValue)

/-- Why a text is no integer of 64 bits. -/
inductive IntegerFault where
  | malformed
  | outOfRange
deriving DecidableEq, Repr, Inhabited

/-- The base of an unsigned numeral, its digits, and whether an underscore may stand first. -/
def splitBase : List Char → Nat × List Char × Bool
  | '0' :: c :: d :: rest =>
      if c == 'x' || c == 'X' then (16, d :: rest, true)
      else if c == 'o' || c == 'O' then (8, d :: rest, true)
      else if c == 'b' || c == 'B' then (2, d :: rest, true)
      else (8, c :: d :: rest, true)
  | '0' :: rest => (8, rest, true)
  | cs => (10, cs, false)

/-- Underscores stand alone, and only behind a digit or where one may stand first. -/
def isSeparated (first : Bool) : List Char → Bool
  | [] => true
  | '_' :: rest => first && !rest.isEmpty && isSeparated false rest
  | _ :: rest => isSeparated true rest

/-- Reads an integer. -/
def readInteger (text : String) : Except IntegerFault Int :=
  let (negative, cs) : Bool × List Char := match text.toList with
    | '-' :: rest => (true, rest)
    | '+' :: rest => (false, rest)
    | cs => (false, cs)
  let (base, digits, first) := splitBase cs
  if cs.isEmpty || !digits.all (fun c => c == '_' || digitValue c < base)
      || !isSeparated first digits then .error .malformed
  else
    let value : Int := digitsValue base digits
    let value := if negative then -value else value
    if value < -Nat.pow 2 63 || Nat.pow 2 63 ≤ value then .error .outOfRange else .ok value

end FrozenGlobals.Number
