/-!
# Blank characters

Words are separated by blank characters.  A character is *blank* if it has the
Unicode property `White_Space`, which is a list of ten ranges.  The newline is
one of them, but a source is cut into lines first, so it never meets a word.
The byte order mark `U+FEFF` and the zero width space `U+200B` are not blank.
-/

namespace TwoPass

/-- The ranges of the property `White_Space`, first and last character. -/
def blankRanges : List (Nat × Nat) :=
  [(0x09, 0x0D), (0x20, 0x20), (0x85, 0x85), (0xA0, 0xA0), (0x1680, 0x1680), (0x2000, 0x200A),
   (0x2028, 0x2029), (0x202F, 0x202F), (0x205F, 0x205F), (0x3000, 0x3000)]

/-- A character that separates words. -/
def isBlank (c : Char) : Bool :=
  blankRanges.any fun r => r.1 ≤ c.toNat && c.toNat ≤ r.2

example : (blankRanges.map fun r => r.2 + 1 - r.1).sum = 25 := by decide
example : isBlank '\u200B' = false ∧ isBlank '\uFEFF' = false := by decide

end TwoPass
