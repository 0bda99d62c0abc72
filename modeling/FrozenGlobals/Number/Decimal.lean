import FrozenGlobals.Number.Binary64

/-!
# Decimal text of numbers

`Decimal.shortest` finds the fewest decimal digits that read back as a given binary number, and of
those the nearest to it. `Binary64.text` writes them: positionally for decimal exponents from `-4`
to `5`, and with an exponent of at least two digits otherwise.
-/

namespace FrozenGlobals.Number

/-- The decimal `0.d₁d₂… · 10 ^ point`, for the digits `d₁d₂…` of `digits`. -/
structure Decimal where
  digits : Nat
  point : Int
deriving DecidableEq, Repr, Inhabited

namespace Decimal

/-- The digits of a positive number without its trailing zeros. -/
def stripZeros : Nat → Nat → Nat
  | 0, n => n
  | fuel + 1, n => if n ≠ 0 ∧ n % 10 = 0 then stripZeros fuel (n / 10) else n

/-- The number of decimal digits of `n`. -/
def width (n : Nat) : Nat := (toString n).length

/-- The least `point` with `num / den < 10 ^ point`. -/
def pointOf (num den : Nat) : Int :=
  -- a digit count bounds the quotient within one power of ten
  let guess : Int := (width num : Int) - (width den : Int)
  let below (p : Int) : Bool :=
    if 0 ≤ p then num < den * Nat.pow 10 p.toNat else num * Nat.pow 10 (-p).toNat < den
  if below guess then guess else guess + 1

/-- The fraction `num / den · 10 ^ (-shift)`. -/
def tenRatio (num den : Nat) (shift : Int) : Nat × Nat :=
  if 0 ≤ shift then (num, den * Nat.pow 10 shift.toNat) else (num * Nat.pow 10 (-shift).toNat, den)

/-- The grid points of `count` digits around `value / den` that lie between `low / den` and
`high / den`, nearest first. The ends count when `closed` is set. -/
def onGrid (closed : Bool) (low value high den : Nat) (point : Int) (count : Nat) : Option Nat :=
  let (n, d) := tenRatio value den (point - (count : Int))
  let (l, _) := tenRatio low den (point - (count : Int))
  let (h, _) := tenRatio high den (point - (count : Int))
  let floor := n / d
  let inside (c : Nat) : Bool :=
    if closed then l ≤ c * d && c * d ≤ h else l < c * d && c * d < h
  match inside floor, inside (floor + 1) with
  | true, true =>
      let below := n - floor * d
      let above := (floor + 1) * d - n
      some (if below < above then floor
        else if above < below then floor + 1
        else if floor % 2 = 0 then floor else floor + 1)
  | true, false => some floor
  | false, true => some (floor + 1)
  | false, false => none

/-- The fewest digits that read back as `mantissa · 2 ^ exponent`, which is not zero. -/
def shortest (mantissa : Nat) (exponent : Int) : Decimal :=
  -- quarters of a unit in the last place make the ends of the rounding interval integers
  let (value, den) := shiftRatio (4 * mantissa) 1 (2 - exponent)
  let unit := value / (4 * mantissa)
  let lowerGap := if mantissa = Nat.pow 2 52 ∧ -1074 < exponent then 1 else 2
  let low := value - lowerGap * unit
  let high := value + 2 * unit
  let point := pointOf value den
  let closed := mantissa % 2 = 0
  match (List.range 18).findSome? (fun i => onGrid closed low value high den point (i + 1)) with
  | some digits =>
      -- rounding up to a power of ten moves the point
      let count := ((List.range 18).find? fun i =>
        (onGrid closed low value high den point (i + 1)).isSome).getD 0 + 1
      let point := if width digits > count then point + 1 else point
      { digits := stripZeros (width digits) digits, point }
  | none => { digits := value / den, point }

end Decimal

/-- An exponent is written with a sign and at least two digits. -/
def exponentText (e : Int) : String :=
  let magnitude := toString e.natAbs
  (if e < 0 then "e-" else "e+") ++ (if magnitude.length < 2 then "0" ++ magnitude else magnitude)

/-- `count` zeros. -/
def zeros (count : Nat) : String := String.ofList (List.replicate count '0')

namespace Decimal

/-- The text of a decimal: positional when its exponent lies in `-4 … 5`. -/
def text (d : Decimal) : String :=
  let digits := toString d.digits
  let count : Int := digits.length
  let exponent := d.point - 1
  if exponent < -4 ∨ 6 ≤ exponent then
    let cs := digits.toList
    let head := String.ofList (cs.take 1)
    let tail := String.ofList (cs.drop 1)
    (if tail.isEmpty then head else head ++ "." ++ tail) ++ exponentText exponent
  else if d.point ≤ 0 then "0." ++ zeros (-d.point).toNat ++ digits
  else if count ≤ d.point then digits ++ zeros (d.point - count).toNat
  else
    let cs := digits.toList
    String.ofList (cs.take d.point.toNat) ++ "." ++ String.ofList (cs.drop d.point.toNat)

end Decimal

/-- The text of a number: the fewest digits that read back. -/
def Binary64.text : Binary64 → String
  | .nan => "NaN"
  | .infinite negative => if negative then "-Inf" else "+Inf"
  | .finite negative mantissa exponent =>
      let magnitude :=
        if mantissa = 0 then "0" else (Decimal.shortest mantissa exponent).text
      if negative then "-" ++ magnitude else magnitude

end FrozenGlobals.Number
