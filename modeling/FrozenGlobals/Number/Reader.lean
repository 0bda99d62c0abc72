import FrozenGlobals.Number.Binary64
import FrozenGlobals.Text.Units

/-!
# Reading numbers

Digits, exponents and decimals at the front of a text. Underscores may stand between digits.
-/

namespace FrozenGlobals.Number

open Text (digitValue)

/-- A digit of the given base stands at the front. -/
def startsDigit (base : Nat) : List Char → Bool
  | c :: _ => digitValue c < base
  | [] => false

/-- The digits at the front. With `separated`, an underscore may stand among them; one that no
digit follows is the last character taken. -/
def digitRun (base : Nat) (separated : Bool) : List Char → List Char × List Char
  | [] => ([], [])
  | c :: rest =>
      if digitValue c < base || (separated && c == '_' && startsDigit base rest) then
        let (taken, left) := digitRun base separated rest
        (c :: taken, left)
      else if separated && c == '_' then ([c], rest)
      else ([], c :: rest)

/-- Every underscore stands between two digits. -/
def wellSeparated (digits : List Char) : Bool :=
  digits.head? != some '_' && digits.getLast? != some '_'

/-- The number that digits spell, underscores left out. -/
def digitsValue (base : Nat) (digits : List Char) : Nat :=
  (digits.filter (· != '_')).foldl (fun n c => n * base + digitValue c) 0

/-- The exponent of a number, when one stands at the front: its value and its characters. -/
def readExponent : List Char → Option (Int × Nat)
  | c :: rest =>
      if c == 'e' || c == 'E' then
        let (negative, signed, digits) : Bool × Nat × List Char :=
          match rest with
          | '-' :: r => (true, 1, r)
          | '+' :: r => (false, 1, r)
          | r => (false, 0, r)
        if startsDigit 10 digits then
          let taken := (digitRun 10 true digits).1
          if wellSeparated taken then
            let value : Int := digitsValue 10 taken
            some (if negative then -value else value, 1 + signed + taken.length)
          else none
        else none
      else some (0, 0)
  | [] => some (0, 0)

/-- The value of a decimal with the digits around its point and an exponent. -/
def decimalValue (whole fraction : List Char) (exponent : Int) : Binary64 :=
  let fraction := fraction.filter (· != '_')
  Binary64.ofDecimal false (digitsValue 10 (whole ++ fraction)) (exponent - fraction.length)

/-- The words that stand for numbers that are not finite. -/
def specialNumber? (negative : Bool) (text : String) : Option Binary64 :=
  if text == "inf" || text == "infinity" then some (.infinite negative)
  else if text == "nan" then some .nan
  else none

/-- The sign of a magnitude. -/
def Binary64.withSign (negative : Bool) : Binary64 → Binary64
  | .finite _ mantissa exponent => .finite negative mantissa exponent
  | .infinite _ => .infinite negative
  | .nan => .nan

/-- The number a whole text spells: a sign, digits around a point and an exponent. -/
def Binary64.read? (text : String) : Option Binary64 :=
  let (negative, cs) : Bool × List Char := match text.toList with
    | '-' :: rest => (true, rest)
    | '+' :: rest => (false, rest)
    | cs => (false, cs)
  let (whole, rest) := digitRun 10 true cs
  let (fraction, rest) := match rest with
    | '.' :: rest => digitRun 10 true rest
    | rest => ([], rest)
  if whole.isEmpty && fraction.isEmpty then
    specialNumber? negative (String.ofList (cs.map Char.toLower))
  else
    match readExponent rest with
    | some (exponent, count) =>
        if count == rest.length && (whole.isEmpty || wellSeparated whole)
            && (fraction.isEmpty || wellSeparated fraction) then
          some ((decimalValue whole fraction exponent).withSign negative)
        else none
    | none => none

end FrozenGlobals.Number
