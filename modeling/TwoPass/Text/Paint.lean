/-!
# Painted text

Reports to a terminal set some words in bold colour.  A painted text stands
between two escape sequences, one that turns the colour on and one that turns
everything off.
-/

namespace TwoPass

/-- A colour of the terminal. -/
inductive Colour
  /-- For what went wrong. -/
  | red
  /-- For what looks odd. -/
  | yellow
  /-- For what went well. -/
  | green
deriving DecidableEq, Repr

/-- The number of a colour in an escape sequence. -/
def Colour.code : Colour → Nat
  | .red => 31
  | .yellow => 33
  | .green => 32

/-- A text in bold colour. -/
def Colour.paint (colour : Colour) (text : String) : String :=
  "\x1b[1;" ++ colour.code.repr ++ "m" ++ text ++ "\x1b[0m"

end TwoPass
