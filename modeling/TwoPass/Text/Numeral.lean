/-!
# Numerals and padding

Addresses are read and written as numerals.  A *decimal numeral* is a word of
one or more ASCII digits, kept as it is spelled.  Numbers are written in decimal
by `Nat.repr`, and in upper-case hexadecimal with a least number of digits by
`hexadecimal`.  Padding counts characters.
-/

namespace TwoPass

/-! ## Padding -/

/-- A text filled up with `c` on the left to `width` characters. -/
def padLeft (c : Char) (width : Nat) (text : String) : String :=
  String.ofList (List.replicate (width - text.length) c) ++ text

/-- A text filled up with spaces on the right to `width` characters. -/
def padRight (width : Nat) (text : String) : String :=
  text ++ String.ofList (List.replicate (width - text.length) ' ')

/-! ## Decimal -/

/-- One of the ten ASCII digits. -/
def isDigit (c : Char) : Bool := '0' ≤ c && c ≤ '9'

/-- A word of one or more ASCII digits. -/
def isDecimal (word : String) : Bool :=
  ! word.toList.isEmpty && word.toList.all isDigit

/-! ## Hexadecimal -/

/-- The hexadecimal numeral of a number, upper case, with zeros on the left up
to `width` digits. -/
def hexadecimal (width n : Nat) : String :=
  padLeft '0' width (String.ofList ((Nat.toDigits 16 n).map Char.toUpper))

/-- The value of a hexadecimal digit, in either case. -/
def hexDigit? (c : Char) : Option Nat :=
  if isDigit c then some (c.toNat - '0'.toNat)
  else if 'a' ≤ c && c ≤ 'f' then some (c.toNat - 'a'.toNat + 10)
  else if 'A' ≤ c && c ≤ 'F' then some (c.toNat - 'A'.toNat + 10)
  else none

/-- The value of a word of exactly two hexadecimal digits. -/
def hexByte? (word : String) : Option Nat :=
  match word.toList with
  | [hi, lo] => do return 16 * (← hexDigit? hi) + (← hexDigit? lo)
  | _ => none

example : hexadecimal 2 255 = "FF" ∧ hexadecimal 4 10 = "000A" := by decide
example : hexadecimal 4 0x12345 = "12345" := by decide
example : hexByte? "fF" = some 255 ∧ hexByte? "+1" = none ∧ hexByte? "1" = none := by decide
example : isDecimal "007" = true ∧ isDecimal "" = false ∧ isDecimal "\u0661" = false := by decide

end TwoPass
