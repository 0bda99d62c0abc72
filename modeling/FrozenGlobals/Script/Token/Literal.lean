import FrozenGlobals.Number.Reader
import FrozenGlobals.Text.Letter
import FrozenGlobals.Text.Units

/-!
# Literals of scripts

The inside of names, numbers, strings and templates, as functions from the characters ahead to
what they spell and the characters left over. Escapes can spell half of a surrogate pair, so a
string is first read as code units and halves that do not meet become the replacement character.
-/

namespace FrozenGlobals.Script

open Number (Binary64 startsDigit digitRun wellSeparated digitsValue readExponent decimalValue)
open Text (isNameStart isNamePart charOf? digitValue fixedHex?)

/-! ## Characters -/

/-- The characters that end a line. -/
def isLineEnd (c : Char) : Bool :=
  c == '\n' || c == '\r' || c.toNat == 0x2028 || c.toNat == 0x2029

/-- The hexadecimal number up to a closing brace, at most the last code point, and the number of
characters it takes with the brace. -/
def bracedHex? : List Char → Option Nat → Nat → Option (Nat × Nat)
  | [], _, _ => none
  | c :: rest, value, count =>
      if c == '}' then value.map (·, count + 1)
      else if digitValue c < 16 then
        let next := value.getD 0 * 16 + digitValue c
        if 0x10ffff < next then none else bracedHex? rest (some next) (count + 1)
      else none

/-! ## Names -/

/-- The character an escape in a name stands for, and how many characters follow the backslash. -/
def nameEscape? : List Char → Option (Char × Nat)
  | 'u' :: '{' :: rest => do
      let (value, count) ← bracedHex? rest none 0
      return (← charOf? value, count + 2)
  | 'u' :: rest => do return (← charOf? (← fixedHex? 4 rest 0), 5)
  | _ => none

/-- A name read from the characters ahead. -/
structure Word where
  name : List Char
  /-- The number of characters it takes in the source. -/
  count : Nat
  escaped : Bool

/-- The longest run of characters of names at the front; nothing when an escape in it is malformed.
At the first place an escape spells a character that may start a name. -/
def readWord (first : Bool) : List Char → Option Word
  | [] => some ⟨[], 0, false⟩
  | c :: rest =>
      if c == '\\' then
        match nameEscape? rest with
        | none => none
        | some (d, count) =>
            if if first then isNameStart d else isNamePart d then
              (readWord false (rest.drop count)).map fun w =>
                { name := d :: w.name, count := w.count + 1 + count, escaped := true }
            else none
      else if isNamePart c then
        (readWord false rest).map fun w => { w with name := c :: w.name, count := w.count + 1 }
      else some ⟨[], 0, false⟩
termination_by cs => cs.length
decreasing_by all_goals simp only [List.length_drop, List.length_cons]; omega

/-! ## Numbers -/

/-- The integers of 64 bits end below this number. -/
def integerLimit : Nat := Nat.pow 2 63

/-- Hexadecimal digits read one after another, each step rounded. -/
def roundedHex (digits : List Char) : Binary64 :=
  digits.foldl (fun x c =>
    match x with
    | .finite _ mantissa exponent =>
        if 0 ≤ exponent then
          Binary64.ofRatio .double false (mantissa * Nat.pow 2 exponent.toNat * 16 + digitValue c) 1
        else
          let den := Nat.pow 2 (-exponent).toNat
          Binary64.ofRatio .double false (mantissa * 16 + digitValue c * den) den
    | other => other) (Binary64.zero false)

/-- The value of an integer with a base mark. Beyond 64 bits only hexadecimal digits without
underscores have one. -/
def markedInteger? (base : Nat) (digits : List Char) : Option Binary64 :=
  if !wellSeparated digits then none
  else if digitsValue base digits < integerLimit then
    some (Binary64.ofNat (digitsValue base digits))
  else if base == 16 && !digits.contains '_' then some (roundedHex digits)
  else none

/-- A number literal: its value, absent for a big integer, and the number of characters taken. -/
structure Numeral where
  value : Option Binary64
  count : Nat

/-- A number whose digits before the point are read already, `before` characters in all. -/
def readFraction (whole : List Char) (before : Nat) (cs : List Char) : Option Numeral :=
  match cs with
  | '.' :: rest =>
      let (fraction, left) := digitRun 10 true rest
      match readExponent left with
      | some (exponent, count) =>
          if (whole.isEmpty || wellSeparated whole) && (fraction.isEmpty || wellSeparated fraction)
          then
            some ⟨some (decimalValue whole fraction exponent), before + 1 + fraction.length + count⟩
          else none
      | none => none
  | cs =>
      match readExponent cs with
      | some (exponent, count) =>
          if wellSeparated whole then some ⟨some (decimalValue whole [] exponent), before + count⟩
          else none
      | none => none

/-- An integer with a base mark of two characters, possibly a big one. -/
def readMarked (base : Nat) (cs : List Char) : Option Numeral :=
  let (digits, left) := digitRun base true cs
  if !startsDigit base cs then none
  else if left.head? == some 'n' then
    if wellSeparated digits then some ⟨none, digits.length + 3⟩ else none
  else (markedInteger? base digits).map fun value => ⟨some value, digits.length + 2⟩

/-- The number at the front of a text that starts with a digit, or with a point and a digit. -/
def readNumber (cs : List Char) : Option Numeral :=
  match cs with
  | '0' :: c :: rest =>
      if c == 'x' || c == 'X' then readMarked 16 rest
      else if c == 'o' || c == 'O' then readMarked 8 rest
      else if c == 'b' || c == 'B' then readMarked 2 rest
      else if c == 'n' then some ⟨none, 2⟩
      else if c == '.' || c == 'e' || c == 'E' then readFraction ['0'] 1 (c :: rest)
      else
        -- a leading zero marks octal digits; too large a number reads as a decimal
        let digits := (digitRun 8 false (c :: rest)).1
        let value := digitsValue 8 digits
        some ⟨some (if value < integerLimit then Binary64.ofNat value
          else Binary64.ofNat (digitsValue 10 digits)), digits.length + 1⟩
  | '.' :: _ => readFraction [] 0 cs
  | cs =>
      let (whole, left) := digitRun 10 true cs
      if left.head? == some 'n' then
        if wellSeparated whole then some ⟨none, whole.length + 1⟩ else none
      else readFraction whole whole.length left

/-! ## Strings -/

/-- Whether a character is an octal digit. -/
def isOctal (c : Char) : Bool := '0' ≤ c && c ≤ '7'

/-- The unit an escape stands for, if any, and how many characters follow the backslash. Strict
text has no octal escapes. -/
def stringEscape? (strict : Bool) : List Char → Option (Option Nat × Nat)
  | [] => none
  | c :: rest =>
      match c with
      | 'b' => some (some 8, 1)
      | 'f' => some (some 12, 1)
      | 'n' => some (some 10, 1)
      | 'r' => some (some 13, 1)
      | 't' => some (some 9, 1)
      | 'v' => some (some 11, 1)
      | 'x' => (fixedHex? 2 rest 0).map fun value => (some value, 3)
      | 'u' =>
          match rest with
          | '{' :: digits => (bracedHex? digits none 0).map fun (value, count) =>
              (some value, count + 2)
          | _ => (fixedHex? 4 rest 0).map fun value => (some value, 5)
      | '\r' => some (none, if rest.head? == some '\n' then 2 else 1)
      | _ =>
          if isLineEnd c then some (none, 1)
          else if c == '0' && !(rest.take 1).any isOctal then some (some 0, 1)
          else if isOctal c then
            if strict then none
            else
              let digits := c :: (rest.take 2).takeWhile isOctal
              some (some (digitsValue 8 digits), digits.length)
          else some (some c.toNat, 1)

/-- The code units of an escaped text. -/
def unescape? (strict : Bool) : List Char → Option (List Nat)
  | [] => some []
  | c :: rest =>
      if c == '\\' then
        match stringEscape? strict rest with
        | some (unit, count) =>
            (unescape? strict (rest.drop count)).map fun units => unit.toList ++ units
        | none => none
      else (unescape? strict rest).map (c.toNat :: ·)
termination_by cs => cs.length
decreasing_by all_goals simp only [List.length_drop, List.length_cons]; omega

/-- The characters up to the closing quote, and the rest after it. A line end closes no string
unless a backslash stands before it. -/
def quotedBody? (quote : Char) : List Char → Option (List Char × List Char)
  | [] => none
  | '\\' :: '\r' :: '\n' :: rest =>
      (quotedBody? quote rest).map fun (body, left) => ('\\' :: '\r' :: '\n' :: body, left)
  | '\\' :: c :: rest =>
      (quotedBody? quote rest).map fun (body, left) => ('\\' :: c :: body, left)
  | c :: rest =>
      if c == quote then some ([], rest)
      else if c == '\n' || c == '\r' then none
      else (quotedBody? quote rest).map fun (body, left) => (c :: body, left)

/-- The characters of a regular expression up to its closing slash, and the rest after it. A slash
inside brackets closes nothing, and brackets that are still open at the end of a line or of the
source close the whole there. Inside brackets a backslash joins two lines. -/
def regExpBody? (inClass : Bool) : List Char → Option (List Char × List Char)
  | [] => if inClass then some ([], []) else none
  | '\\' :: '\r' :: '\n' :: rest =>
      if inClass then
        (regExpBody? inClass rest).map fun (body, left) => ('\\' :: '\r' :: '\n' :: body, left)
      else none
  | '\\' :: c :: rest =>
      if isLineEnd c && !inClass then none
      else (regExpBody? inClass rest).map fun (body, left) => ('\\' :: c :: body, left)
  | '\r' :: '\n' :: rest => if inClass then some (['\r', '\n'], rest) else none
  | c :: rest =>
      if c == '/' && !inClass then some (['/'], rest)
      else if isLineEnd c && !inClass then none
      else if c == '\n' || c == '\r' then some ([c], rest)
      else
        let inClass := if c == '[' then true else if c == ']' then false else inClass
        (regExpBody? inClass rest).map fun (body, left) => (c :: body, left)

/-- How a piece of template text ends. -/
inductive TemplateEnd where
  | quote | substitution
deriving DecidableEq, Repr

/-- The characters of a template up to its closing quote or to the next substitution. -/
def templateBody? : List Char → Option (List Char × TemplateEnd × List Char)
  | [] => none
  | '\\' :: c :: rest =>
      (templateBody? rest).map fun (body, stop, left) => ('\\' :: c :: body, stop, left)
  | '$' :: '{' :: rest => some ([], .substitution, rest)
  | c :: rest =>
      if c == '`' then some ([], .quote, rest)
      else (templateBody? rest).map fun (body, stop, left) => (c :: body, stop, left)

/-- A template without a tag may hold neither octal escapes nor `\8` and `\9`. -/
def templateIsPlain : List Char → Bool
  | '\\' :: '8' :: _ => false
  | '\\' :: '9' :: _ => false
  | '\\' :: _ :: rest => templateIsPlain rest
  | _ :: rest => templateIsPlain rest
  | [] => true

end FrozenGlobals.Script
