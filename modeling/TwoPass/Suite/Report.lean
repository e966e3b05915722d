import TwoPass.Text.Numeral
import TwoPass.Text.Paint
import TwoPass.Suite.Units

/-!
# Report of a suite

The report of a suite has a line for each unit between two rules, and then the
number of units that pass.  The messages stand in one column.  Its place comes
from the longest name, and names are measured in bytes.  As every name is a
text, none of them needs a substitute in its line.
-/

namespace TwoPass

/-- A unit by name, with what came of it. -/
structure UnitResult where
  /-- The name of the unit. -/
  name : String
  /-- The outcome, or why the unit could not be run. -/
  outcome : Except Failure Outcome

namespace UnitResult

/-- Whether the unit passes. -/
def passes (r : UnitResult) : Bool :=
  match r.outcome with
  | .ok .pass => true
  | .ok .missingExpected | .ok (.mismatch _) | .error _ => false

/-- A line of a listing, or its end. -/
def shownLine (line : Option String) : String := line.getD "<end of listing>"

/-- What the report says about the unit. -/
def message (r : UnitResult) : String :=
  match r.outcome with
  | .ok .pass => Colour.green.paint "PASS"
  | .ok .missingExpected => Colour.red.paint "FAIL: NO EXPECTED LISTING"
  | .ok (.mismatch d) =>
      Colour.red.paint "FAIL: MISMATCH" ++ " at line " ++ d.line.repr ++ ":\n\texpected: "
        ++ shownLine d.expected ++ "\n\tactual:   " ++ shownLine d.actual
  | .error f => Colour.red.paint "FAIL: IO ERROR" ++ ": " ++ f.message

/-- The line of the report for the unit of a number. -/
def line (width number : Nat) (r : UnitResult) : String :=
  "Unit " ++ padLeft ' ' 2 number.repr ++ ": " ++ r.name ++ " "
    ++ String.ofList (List.replicate (width - r.name.utf8ByteSize) ' ') ++ r.message

end UnitResult

/-- The lines for some units, which are numbered from one. -/
def unitLines (width : Nat) (rs : List UnitResult) : List String :=
  (rs.zipIdx 1).map fun (r, number) => r.line width number

/-- The report on the units of a suite. -/
def suiteReport (directory : String) (rs : List UnitResult) : String :=
  let width := (rs.map (·.name.utf8ByteSize)).max?.getD 0
  let rule := String.ofList (List.replicate (width + 45) '-')
  let passed := rs.countP (·.passes)
  let verdict :=
    if passed == rs.length then Colour.green.paint "SUCCESS" else Colour.red.paint "FAILED"
  unlines <|
    ["Running suite: '" ++ directory ++ "' (" ++ rs.length.repr ++ " units)", rule]
      ++ unitLines width rs
      ++ [rule, "Suite Result: " ++ verdict ++ ", " ++ passed.repr ++ "/" ++ rs.length.repr
        ++ " passes"]

end TwoPass
