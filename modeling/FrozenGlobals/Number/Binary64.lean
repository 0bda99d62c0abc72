/-!
# Binary floating point

Numbers of scripts and of host data are binary floating point numbers of 64 bits. They are kept
as exact dyadic rationals, so that reading a decimal and writing the shortest one that reads back
are both exact integer arithmetic.
-/

namespace FrozenGlobals.Number

/-- A binary floating point number. `finite negative mantissa exponent` stands for
`± mantissa · 2 ^ exponent`. -/
inductive Binary64 where
  | nan
  | infinite (negative : Bool)
  | finite (negative : Bool) (mantissa : Nat) (exponent : Int)
deriving DecidableEq, Repr, Inhabited

/-- The shape of a binary format: bits of the mantissa, and the range of the exponent of its
lowest bit. -/
structure Format where
  precision : Nat
  least : Int
  greatest : Int

/-- Double precision. -/
def Format.double : Format := ⟨53, -1074, 971⟩

/-- Single precision. -/
def Format.single : Format := ⟨24, -149, 104⟩

/-- `num / den` rounded to the nearest integer, a half going to the even neighbour. -/
def roundDiv (num den : Nat) : Nat :=
  let q := num / den
  let r := num % den
  if 2 * r < den then q
  else if den < 2 * r then q + 1
  else if q % 2 = 0 then q else q + 1

/-- The fraction `num / den · 2 ^ (-shift)`. -/
def shiftRatio (num den : Nat) (shift : Int) : Nat × Nat :=
  if 0 ≤ shift then (num, den * Nat.pow 2 shift.toNat) else (num * Nat.pow 2 (-shift).toNat, den)

namespace Binary64

/-- Zero, which has a sign. -/
def zero (negative : Bool) : Binary64 := .finite negative 0 0

/-- The number of `format` nearest to `± num / den`, a tie going to the even mantissa. -/
def ofRatio (format : Format) (negative : Bool) (num den : Nat) : Binary64 :=
  if num = 0 then zero negative
  else
    -- `num / den` lies strictly between the neighbouring powers of two of this exponent
    let low : Int := (Nat.log2 num : Int) - (Nat.log2 den : Int) - (format.precision : Int)
    let (n, d) := shiftRatio num den low
    let normal := if n / d < Nat.pow 2 format.precision then low else low + 1
    let exponent := max normal format.least
    let (n, d) := shiftRatio num den exponent
    let mantissa := roundDiv n d
    let (mantissa, exponent) :=
      if mantissa = Nat.pow 2 format.precision then
        (Nat.pow 2 (format.precision - 1), exponent + 1)
      else (mantissa, exponent)
    if mantissa = 0 then zero negative
    else if format.greatest < exponent then .infinite negative
    else .finite negative mantissa exponent

/-- The double nearest to `± digits · 10 ^ exponent`. Exponents far outside the range of doubles
are settled without computing the power. -/
def ofDecimal (negative : Bool) (digits : Nat) (exponent : Int) : Binary64 :=
  if digits = 0 then zero negative
  else if 400 < exponent then .infinite negative
  else if exponent + ((Nat.log2 digits : Int) + 1) < -400 then zero negative
  else if 0 ≤ exponent then ofRatio .double negative (digits * Nat.pow 10 exponent.toNat) 1
  else ofRatio .double negative digits (Nat.pow 10 (-exponent).toNat)

/-- The double nearest to a natural number. -/
def ofNat (n : Nat) : Binary64 := ofRatio .double false n 1

/-- The double nearest to an integer. -/
def ofInt (i : Int) : Binary64 := ofRatio .double (i < 0) i.natAbs 1

/-- The number of `format` nearest to a double. -/
def roundTo (format : Format) : Binary64 → Binary64
  | .finite negative mantissa exponent =>
      if 0 ≤ exponent then ofRatio format negative (mantissa * Nat.pow 2 exponent.toNat) 1
      else ofRatio format negative mantissa (Nat.pow 2 (-exponent).toNat)
  | other => other

/-- A double rounded to single precision, as a double again. -/
def toSingle (x : Binary64) : Binary64 := (x.roundTo .single).roundTo .double

/-- The integer part, toward zero; a number that is not finite gives zero. -/
def truncate : Binary64 → Int
  | .finite negative mantissa exponent =>
      let magnitude :=
        if 0 ≤ exponent then mantissa * Nat.pow 2 exponent.toNat
        else mantissa / Nat.pow 2 (-exponent).toNat
      if negative then -(magnitude : Int) else magnitude
  | _ => 0

end Binary64

end FrozenGlobals.Number
