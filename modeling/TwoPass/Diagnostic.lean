import TwoPass.Location

/-!
# Diagnostics

Assembly never fails.  What goes wrong is reported as a diagnostic at the place
of the statement it concerns.  A diagnostic is an error if the listing got a
marker instead of code, and a warning otherwise.
-/

namespace TwoPass

/-- How bad a diagnostic is. -/
inductive Severity
  /-- The listing is complete. -/
  | warning
  /-- The listing has a marker. -/
  | error
deriving DecidableEq, Repr

/-- The name of a severity in a report. -/
def Severity.name : Severity → String
  | .warning => "warning"
  | .error => "error"

/-- Something the assembler has to say about a statement. -/
inductive Diagnostic
  /-- The operand is neither a numeral nor a label. -/
  | unresolvedSymbol (symbol : String)
  /-- The operation takes an address and has none. -/
  | missingOperand (operation : String)
  /-- No operation has this name. -/
  | unknownInstruction (name : String)
  /-- The label was bound before, to the address `previous`. -/
  | duplicateLabel (label : String) (previous : Nat)
  /-- Words after the operand were ignored. -/
  | extraTokens (name : String) (count : Nat)
deriving DecidableEq, Repr

namespace Diagnostic

/-- The severity of a diagnostic. -/
def severity : Diagnostic → Severity
  | unresolvedSymbol _ | missingOperand _ | unknownInstruction _ => .error
  | duplicateLabel .. | extraTokens .. => .warning

/-- Whether a diagnostic is an error. -/
def isError (d : Diagnostic) : Bool := d.severity == .error

/-- The text of a diagnostic. -/
def message : Diagnostic → String
  | unresolvedSymbol symbol => "Unresolved symbol '" ++ symbol ++ "'"
  | missingOperand operation => "Instruction '" ++ operation ++ "' requires an operand"
  | unknownInstruction name => "Unknown instruction '" ++ name ++ "'"
  | duplicateLabel label previous =>
      "Label '" ++ label ++ "' redefined (previously bound to address " ++ previous.repr
        ++ "), last definition wins"
  | extraTokens name count =>
      "Ignoring " ++ count.repr ++ " trailing token(s) after the operand of '" ++ name ++ "'"

end Diagnostic

end TwoPass
