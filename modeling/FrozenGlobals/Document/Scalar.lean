import FrozenGlobals.Number.Reader

/-!
# Plain scalars

What a scalar without quotes stands for: nothing, a truth value, a number, a date, or its own text.
Integers have up to 64 bits, in base ten, or in base sixteen, eight or two behind `0x`, `0o` and
`0b`; a longer run of decimal digits is a real number. A number too large for a double is text.
-/

namespace FrozenGlobals.Document

open Number (Binary64 digitsValue)
open Text (digitValue)

/-- What a plain scalar stands for. -/
inductive Scalar where
  | null
  | bool (value : Bool)
  /-- An integer of 64 bits, with or without a sign of its own. -/
  | integer (negative : Bool) (magnitude : Nat)
  | real (value : Binary64)
  | date
  | text
deriving DecidableEq, Repr, Inhabited

namespace Scalar

/-- The digits of an integer and their base. -/
def baseDigits : List Char → Nat × List Char
  | '0' :: c :: rest =>
      if c == 'x' || c == 'X' then (16, rest)
      else if c == 'o' || c == 'O' then (8, rest)
      else if c == 'b' || c == 'B' then (2, rest)
      else (10, '0' :: c :: rest)
  | cs => (10, cs)

/-- The sign of a number, and the characters behind it. -/
def sign : List Char → Bool × List Char
  | '-' :: rest => (true, rest)
  | '+' :: rest => (false, rest)
  | cs => (false, cs)

/-- An integer of up to 64 bits; a negative one has 63 bits of magnitude and the sign. -/
def integer? (cs : List Char) : Option Scalar :=
  let (negative, cs) := sign cs
  let (base, digits) := baseDigits cs
  if digits.isEmpty || !digits.all (fun c => digitValue c < base) then none
  else
    let magnitude := digitsValue base digits
    if magnitude ≤ (if negative then Nat.pow 2 63 else Nat.pow 2 64 - 1) then
      some (.integer negative magnitude)
    else none

/-- The characters of a decimal number. -/
def isDecimalChar (c : Char) : Bool :=
  c.isDigit || c == '.' || c == 'e' || c == 'E' || c == '+' || c == '-'

/-- A finite decimal number. -/
def real? (cs : List Char) : Option Scalar :=
  if cs.all isDecimalChar then
    match Binary64.read? (String.ofList cs) with
    | some (.finite negative mantissa exponent) =>
        some (.real (.finite negative mantissa exponent))
    | _ => none
  else none

/-- The words for nothing, truth values and numbers that are not finite. -/
def word? (text : String) : Option Scalar :=
  if ["", "~", "null", "Null", "NULL"].contains text then some .null
  else if ["true", "True", "TRUE"].contains text then some (.bool true)
  else if ["false", "False", "FALSE"].contains text then some (.bool false)
  else if [".nan", ".NaN", ".NAN"].contains text then some (.real .nan)
  else if [".inf", ".Inf", ".INF", "+.inf", "+.Inf", "+.INF"].contains text then
    some (.real (.infinite false))
  else if ["-.inf", "-.Inf", "-.INF"].contains text then some (.real (.infinite true))
  else none

/-- The days of a month. -/
def daysIn (year month : Nat) : Nat :=
  let leap := year % 4 == 0 && (year % 100 != 0 || year % 400 == 0)
  if month == 2 then (if leap then 29 else 28)
  else if [4, 6, 9, 11].contains month then 30
  else 31

/-- A day written as year, month and day. -/
def isDate (text : String) : Bool :=
  match text.splitOn "-" with
  | [year, month, day] =>
      let isNumber (s : String) (widths : List Nat) : Bool :=
        widths.contains s.length && s.toList.all Char.isDigit
      let value (s : String) : Nat := digitsValue 10 s.toList
      isNumber year [4] && isNumber month [1, 2] && isNumber day [1, 2]
        && 1 ≤ value month && value month ≤ 12
        && 1 ≤ value day && value day ≤ daysIn (value year) (value month)
  | _ => false

/-- What a plain scalar stands for. Underscores among the digits of a number do not count. -/
def ofPlain (text : String) : Scalar :=
  match word? text with
  | some s => s
  | none =>
      match text.toList with
      | [] => .null
      | c :: rest =>
          if c == '.' then (real? (c :: rest)).getD .text
          else if c.isDigit || c == '+' || c == '-' then
            let digits := (c :: rest).filter (· != '_')
            if isDate text then .date
            else ((integer? digits).orElse fun _ => real? digits).getD .text
          else .text

end Scalar

end FrozenGlobals.Document
