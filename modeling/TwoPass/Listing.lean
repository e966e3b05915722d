import TwoPass.Text.Numeral
import TwoPass.Operation
import TwoPass.SymbolTable

/-!
# Listings

A listing is what assembly leaves behind: an entry for each instruction, the
symbol table, and the diagnostics.  Its text has one line per entry, which is
the opcode in two hexadecimal digits and the operand.  Where there is no code
the line holds a marker.

* An operand that could not be resolved is written `??`.
* An instruction that is no operation is written `?? UNKNOWN INSTRUCTION`.

The annotated text adds the address in front and the line of the source behind.
-/

namespace TwoPass

/-! ## Markers -/

/-- The mark of an operand without an address. -/
def unresolvedMarker : String := "??"

/-- The mark of an instruction that is no operation. -/
def unknownMarker : String := "?? UNKNOWN INSTRUCTION"

/-! ## Operands -/

/-- What an operand stands for. -/
inductive Operand
  /-- A numeral, as it is spelled. -/
  | literal (numeral : String)
  /-- A label and the address it is bound to. -/
  | label (name : String) (address : Nat)
  /-- Nothing, because there is no operand or it is no label. -/
  | unresolved (symbol : Option String)
deriving DecidableEq, Repr

namespace Operand

/-- What an operand stands for under a symbol table.  A numeral is never taken
for a label. -/
def resolve (symbols : SymbolTable) : Option String → Operand
  | none => .unresolved none
  | some word =>
      if isDecimal word then .literal word
      else
        match symbols.get? word with
        | some address => .label word address
        | none => .unresolved (some word)

/-- The text of an operand in a listing. -/
def text : Operand → String
  | .literal numeral => numeral
  | .label _ address => address.repr
  | .unresolved _ => unresolvedMarker

end Operand

/-! ## Code -/

/-- The code of one instruction. -/
inductive Code
  /-- An operation on an address. -/
  | encoded (op : Operation) (operand : Operand)
  /-- The end of the program. -/
  | halt
  /-- An instruction that is no operation. -/
  | unknown (name : String)
deriving DecidableEq, Repr

namespace Code

/-- The opcode, if there is one. -/
def opcode? : Code → Option Nat
  | .encoded op _ => some op.opcode
  | .halt => some Operation.halt.opcode
  | .unknown _ => none

/-- The line of a listing. -/
def text : Code → String
  | .encoded op operand => hexadecimal 2 op.opcode ++ " " ++ operand.text
  | .halt => hexadecimal 2 Operation.halt.opcode
  | .unknown _ => unknownMarker

/-- What is wrong with an instruction that got a marker. -/
def problem? : Code → Option Diagnostic
  | .encoded op (.unresolved none) => some (.missingOperand op.name)
  | .encoded _ (.unresolved (some symbol)) => some (.unresolvedSymbol symbol)
  | .unknown name => some (.unknownInstruction name)
  | _ => none

end Code

/-! ## Listings -/

/-- The code at an address. -/
structure Entry where
  /-- The address. -/
  address : Nat
  /-- The place of the instruction in the source. -/
  loc : Location
  /-- The code. -/
  code : Code
deriving DecidableEq, Repr

/-- The result of an assembly. -/
structure Listing where
  /-- The code, by address. -/
  entries : List Entry
  /-- The labels. -/
  symbols : SymbolTable
  /-- What the assembler has to say, by place. -/
  diagnostics : List (Located Diagnostic)

/-- The annotated line of an entry.  The code is filled up to 24 characters. -/
def Entry.annotatedText (e : Entry) : String :=
  hexadecimal 4 e.address ++ "  " ++ padRight 24 e.code.text ++ "; line " ++ e.loc.line.repr

namespace Listing

/-- The text of a listing. -/
def text (l : Listing) : String := unlines (l.entries.map (·.code.text))

/-- The text with addresses and source lines. -/
def annotated (l : Listing) : String := unlines (l.entries.map Entry.annotatedText)

/-- Whether some diagnostic is an error. -/
def hasErrors (l : Listing) : Bool := l.diagnostics.any (·.value.isError)

end Listing

example : (Code.encoded .store (.literal "007")).text = "02 007" := by decide
example : Code.halt.text = "FF" := by decide
example : (Entry.mk 10 ⟨3, 1⟩ .halt).annotatedText = "000A  FF                      ; line 3" := by
  decide

end TwoPass
