import Std.Data.ExtTreeMap
import TwoPass.Statement

/-!
# Symbol tables

A symbol table binds labels to addresses.  Defining a label again rebinds it
and gives the address it had before.  The table of a source binds each label to
the number of instructions before its definition, which is the address of the
next instruction.  If a label is defined twice the last definition wins, with a
warning.

A report lists a table by address and then by label (`SymbolTable.sorted`).  No
two bindings share a label, so nothing about the report depends on the order of
the definitions.
-/

namespace TwoPass

/-! ## Tables -/

/-- Labels bound to addresses. -/
structure SymbolTable where
  /-- The address of each label. -/
  bindings : Std.ExtTreeMap String Nat

namespace SymbolTable

/-- The table without labels. -/
def empty : SymbolTable := ⟨∅⟩

instance : EmptyCollection SymbolTable := ⟨empty⟩

instance : Inhabited SymbolTable := ⟨∅⟩

/-- The address of a label. -/
def get? (t : SymbolTable) (label : String) : Option Nat := t.bindings[label]?

/-- Bind a label.  The first component is the address it had before. -/
def define (t : SymbolTable) (label : String) (address : Nat) : Option Nat × SymbolTable :=
  (t.get? label, ⟨t.bindings.insert label address⟩)

/-- The number of labels. -/
def size (t : SymbolTable) : Nat := t.bindings.size

/-- Whether there is no label. -/
def isEmpty (t : SymbolTable) : Bool := t.bindings.isEmpty

/-- Bind some labels, one after the other. -/
def ofList (bindings : List (String × Nat)) : SymbolTable :=
  bindings.foldl (fun t b => (t.define b.1 b.2).2) ∅

/-- Whether a binding comes before another in a report, or is the same. -/
def reportLe (a b : String × Nat) : Bool :=
  a.2 < b.2 || (a.2 == b.2 && a.1 ≤ b.1)

/-- The bindings by address and then by label. -/
def sorted (t : SymbolTable) : List (String × Nat) := t.bindings.toList.mergeSort reportLe

@[simp] theorem get?_empty (label : String) : (∅ : SymbolTable).get? label = none :=
  Std.ExtTreeMap.getElem?_empty

/-- A table is known by the addresses of its labels. -/
theorem ext {t u : SymbolTable} (h : ∀ label, t.get? label = u.get? label) : t = u := by
  cases t
  cases u
  congr
  exact Std.ExtTreeMap.ext_getElem? h

theorem get?_define (t : SymbolTable) (label other : String) (address : Nat) :
    (t.define label address).2.get? other = if label = other then some address else t.get? other := by
  simp [define, get?, Std.ExtTreeMap.getElem?_insert]

end SymbolTable

/-! ## The table of some statements -/

/-- The state of the first pass after some statements. -/
structure Binding where
  /-- The address of the next instruction. -/
  address : Nat := 0
  /-- The labels bound so far. -/
  table : SymbolTable := ∅
  /-- The warnings so far, last first. -/
  warnings : List (Located Diagnostic) := []

namespace Binding

/-- Pass one statement. -/
def step (b : Binding) (s : Located Statement) : Binding :=
  match s.value with
  | .label name =>
      let (previous, table) := b.table.define name b.address
      match previous with
      | none => { b with table }
      | some address =>
          { b with table, warnings := s.replace (.duplicateLabel name address) :: b.warnings }
  | .instruction _ => { b with address := b.address + 1 }
  | .blank | .comment => b

/-- Pass some statements. -/
def run (ss : List (Located Statement)) : Binding := ss.foldl step {}

end Binding

/-- The labels that some statements define. -/
def SymbolTable.ofStatements (ss : List (Located Statement)) : SymbolTable := (Binding.run ss).table

/-- The warnings about labels that some statements define more than once. -/
def duplicateWarnings (ss : List (Located Statement)) : List (Located Diagnostic) :=
  (Binding.run ss).warnings.reverse

end TwoPass
