import TwoPass.Listing

/-!
# Assembly

Assembly passes the statements of a source twice.  The first pass binds each
label to the address of the next instruction (`SymbolTable.ofStatements`).  The
second gives each instruction its address and its code, so a label may be used
before its definition.

Every instruction takes up one address, whether or not it is an operation.  So
the address of an entry is its position in the listing.
-/

namespace TwoPass

/-! ## The second pass -/

/-- The code of an instruction under a symbol table.  What stands behind `HLT`
is ignored. -/
def Instruction.encode (symbols : SymbolTable) (inst : Instruction) : Code :=
  match Operation.ofName? inst.name with
  | none => .unknown inst.name
  | some op =>
      match op.arity with
      | .nullary => .halt
      | .address => .encoded op (Operand.resolve symbols inst.operand)

/-- The instructions among some statements. -/
def instructions (ss : List (Located Statement)) : List (Located Instruction) :=
  ss.filterMap fun s => s.value.instruction?.map s.replace

/-- The entries of some statements under a symbol table. -/
def entries (symbols : SymbolTable) (ss : List (Located Statement)) : List Entry :=
  (instructions ss).zipIdx.map fun (s, address) => ⟨address, s.loc, s.value.encode symbols⟩

/-- The errors of some entries. -/
def problems (es : List Entry) : List (Located Diagnostic) :=
  es.filterMap fun e => e.code.problem?.map (⟨e.loc, ·⟩)

/-! ## Both passes -/

/-- Diagnostics by place.  Those at one place keep their order. -/
def sortDiagnostics (ds : List (Located Diagnostic)) : List (Located Diagnostic) :=
  ds.mergeSort fun a b => a.loc.le b.loc

/-- The listing of a source.  At one place a warning about ignored words comes
before an error. -/
def assemble (source : String) : Listing :=
  let ls := sourceLines source
  let ss := statements ls
  let symbols := SymbolTable.ofStatements ss
  let es := entries symbols ss
  ⟨es, symbols, sortDiagnostics (surplusWarnings ls ++ duplicateWarnings ss ++ problems es)⟩

theorem assemble_entries (source : String) :
    (assemble source).entries =
      entries (assemble source).symbols (statements (sourceLines source)) := rfl

theorem assemble_symbols (source : String) :
    (assemble source).symbols = SymbolTable.ofStatements (statements (sourceLines source)) := rfl

theorem assemble_diagnostics (source : String) :
    (assemble source).diagnostics =
      sortDiagnostics (surplusWarnings (sourceLines source) ++
        duplicateWarnings (statements (sourceLines source)) ++
          problems (assemble source).entries) := rfl

example : (assemble "START: LOAD 5\njmp START\nFOO\nHLT 3").text =
    "01 5\n05 0\n?? UNKNOWN INSTRUCTION\nFF\n" := by decide

end TwoPass
