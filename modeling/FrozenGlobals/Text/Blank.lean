/-!
# Blanks and letter case

White space as Unicode defines it, trimming, and the simple case mappings as far as they reach
the ASCII letters.
-/

namespace FrozenGlobals.Text

/-- White space. -/
def isBlank (c : Char) : Bool :=
  let n := c.toNat
  (9 ≤ n && n ≤ 13) || n == 0x20 || n == 0x85 || n == 0xa0 || n == 0x1680
    || (0x2000 ≤ n && n ≤ 0x200a) || n == 0x2028 || n == 0x2029 || n == 0x202f || n == 0x205f
    || n == 0x3000

/-- The text without the blanks at its ends. -/
def trim (s : String) : String :=
  String.ofList ((s.toList.dropWhile isBlank).reverse.dropWhile isBlank).reverse

/-- The upper case letter of a character, where that is an ASCII letter. -/
def upper (c : Char) : Char :=
  if c == 'ı' then 'I' else if c == 'ſ' then 'S' else c.toUpper

/-- The folded form of a character, where that is an ASCII letter. -/
def fold (c : Char) : Char :=
  if c == 'ſ' then 's' else if c.toNat == 0x212a then 'k' else c.toLower

/-- Equality up to the case of ASCII letters. -/
def eqFold (s t : String) : Bool := s.toList.map fold == t.toList.map fold

end FrozenGlobals.Text
