import TwoPass.Listing

/-!
# Disassembly

A listing is turned back into a source, one instruction per line.  The names of
labels are gone from a listing, so an operand comes back as an address.  An
instruction that was no operation comes back as `??`, which is no operation
either and keeps its address.

Lines without words are skipped.  Any other line is the marker of an unknown
instruction, or an opcode of exactly two hexadecimal digits with what its
operation takes.  The first line that is neither is an error at its first word.
-/

namespace TwoPass

/-! ## Errors -/

/-- Why a line with an opcode is malformed. -/
inductive Malformation
  /-- Something stands behind an operation that takes nothing. -/
  | surplusOperand
  /-- The operand is neither a numeral nor a marker. -/
  | badOperand
  /-- There is no operand, or more than one. -/
  | operandCount
deriving DecidableEq, Repr

/-- The text of a malformation. -/
def Malformation.message : Malformation → String
  | surplusOperand => "nullary instruction has an operand"
  | badOperand => "operand is neither an address nor a marker"
  | operandCount => "expected exactly one operand"

/-- Why a line is no line of a listing. -/
inductive DecodeError
  /-- The first word is no opcode. -/
  | invalidOpcode (word : String)
  /-- The operand does not fit the opcode. -/
  | malformedLine (line : String) (reason : Malformation)
deriving DecidableEq, Repr

/-- The text of an error. -/
def DecodeError.message : DecodeError → String
  | invalidOpcode word => "Invalid opcode: '" ++ word ++ "'"
  | malformedLine line reason => "Malformed line '" ++ line ++ "': " ++ reason.message

/-! ## Lines -/

/-- The operation whose opcode a word spells. -/
def opcodeWord? (word : String) : Option Operation :=
  (hexByte? word).bind Operation.ofOpcode?

/-- Whether a word is an operand of a listing. -/
def isListingOperand (word : String) : Bool :=
  word == unresolvedMarker || isDecimal word

/-- The instruction of a line that starts with `word`. -/
def decodeWords (line word : String) (operands : List String) : Except DecodeError String :=
  if trim line == unknownMarker then .ok unresolvedMarker
  else
    match opcodeWord? word with
    | none => .error (.invalidOpcode word)
    | some op =>
        match op.arity, operands with
        | .nullary, [] => .ok op.name
        | .nullary, _ => .error (.malformedLine line .surplusOperand)
        | .address, [operand] =>
            if isListingOperand operand then .ok (op.name ++ " " ++ operand)
            else .error (.malformedLine line .badOperand)
        | .address, _ => .error (.malformedLine line .operandCount)

/-- The instruction of a line, or nothing if the line has no words. -/
def decodeLine (number : Nat) (line : String) : Except (Located DecodeError) (Option String) :=
  match tokens number line with
  | [] => .ok none
  | t :: ts =>
      match decodeWords line t.value (ts.map (·.value)) with
      | .ok inst => .ok (some inst)
      | .error e => .error (t.replace e)

/-! ## Listings -/

/-- The source of a listing. -/
def disassemble (listing : String) : Except (Located DecodeError) String := do
  let decoded ← ((lines listing).zipIdx 1).mapM fun (line, number) => decodeLine number line
  return unlines (decoded.filterMap id)

example : disassemble "01 5\n05 ??\n\nff\n?? UNKNOWN INSTRUCTION\n" =
    .ok "LOAD 5\nJMP ??\nHLT\n??\n" := by rfl
example : disassemble "FF\n  07 1\n" = .error ⟨⟨2, 3⟩, .invalidOpcode "07"⟩ := by rfl

end TwoPass
