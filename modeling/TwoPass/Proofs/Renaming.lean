import Mathlib.Logic.Equiv.Basic
import TwoPass.Proofs.Codes
import TwoPass.Proofs.Places

/-!
# Names of labels

The name of a label carries no meaning (`passes_rename`).  If labels and
operands are renamed so that no two names fall together and numerals stay, then
the table binds the new names to the old addresses, the entries have the same
text, and each diagnostic is the old one with the new name.

The two runs of the first pass go side by side (`Binding.RenamedTo`).  The
second pass looks an operand up under its new name and finds what it found
before.  A word that is no numeral does not become one, since the numeral is its
own new name.
-/

namespace TwoPass

/-! ## Renaming -/

/-- A statement with other names for its label or its operand. -/
def Statement.rename (f : String → String) : Statement → Statement
  | .label name => .label (f name)
  | .instruction inst => .instruction { inst with operand := inst.operand.map f }
  | .blank => .blank
  | .comment => .comment

/-- A diagnostic with other names for its label or its symbol. -/
def Diagnostic.rename (f : String → String) : Diagnostic → Diagnostic
  | .unresolvedSymbol symbol => .unresolvedSymbol (f symbol)
  | .duplicateLabel label previous => .duplicateLabel (f label) previous
  | .missingOperand operation => .missingOperand operation
  | .unknownInstruction name => .unknownInstruction name
  | .extraTokens name count => .extraTokens name count

/-- An operand with another name for its label or its symbol. -/
def Operand.rename (f : String → String) : Operand → Operand
  | .literal numeral => .literal numeral
  | .label name address => .label (f name) address
  | .unresolved symbol => .unresolved (symbol.map f)

/-- A code with another name in its operand. -/
def Code.rename (f : String → String) : Code → Code
  | .encoded op operand => .encoded op (operand.rename f)
  | .halt => .halt
  | .unknown name => .unknown name

/-- An entry with another name in its operand. -/
def Entry.rename (f : String → String) (e : Entry) : Entry := { e with code := e.code.rename f }

variable {f : String → String}

@[simp] theorem Operand.text_rename (operand : Operand) :
    (operand.rename f).text = operand.text := by
  cases operand <;> rfl

@[simp] theorem Code.text_rename (code : Code) : (code.rename f).text = code.text := by
  cases code with
  | encoded op operand => rw [rename, text, Operand.text_rename, text]
  | halt => rfl
  | unknown name => rfl

theorem Code.problem?_rename (code : Code) :
    (code.rename f).problem? = code.problem?.map (Diagnostic.rename f) := by
  cases code with
  | encoded op operand =>
      cases operand with
      | literal numeral => rfl
      | label name address => rfl
      | unresolved symbol => cases symbol <;> rfl
  | halt => rfl
  | unknown name => rfl

/-! ## The first pass -/

/-- A run of the first pass is another one with other names. -/
structure Binding.RenamedTo (f : String → String) (b c : Binding) : Prop where
  /-- The next address is the same. -/
  address : c.address = b.address
  /-- The new names have the addresses of the old ones. -/
  get? : ∀ label, c.table.get? (f label) = b.table.get? label
  /-- Nothing else is bound. -/
  other : ∀ label, (∀ old, f old ≠ label) → c.table.get? label = none
  /-- The warnings are the old ones with the new names. -/
  warnings : c.warnings = b.warnings.map (Located.map (Diagnostic.rename f))

namespace Binding.RenamedTo

variable {b c : Binding}

theorem empty : RenamedTo f {} {} := by
  refine ⟨rfl, ?_, ?_, rfl⟩
  · intro label
    rw [SymbolTable.get?_empty, SymbolTable.get?_empty]
  · intro label _
    exact SymbolTable.get?_empty label

theorem warning? (h : RenamedTo f b c) (s : Located Statement) :
    c.warning? (s.map (Statement.rename f)) =
      (b.warning? s).map (Located.map (Diagnostic.rename f)) := by
  obtain ⟨loc, value⟩ := s
  cases value with
  | blank => rfl
  | comment => rfl
  | label name =>
      simp only [Binding.warning?, Located.map, Located.replace, Statement.rename, h.get?,
        Option.map_map]
      rfl
  | instruction inst => rfl

theorem isInstruction_rename (s : Statement) : (s.rename f).isInstruction = s.isInstruction := by
  cases s <;> rfl

/-- One statement keeps the names in step.  A name that is not that of the label
does not become it. -/
theorem step (h : RenamedTo f b c) (injective : Function.Injective f) (s : Located Statement) :
    RenamedTo f (b.step s) (c.step (s.map (Statement.rename f))) := by
  refine ⟨?_, ?_, ?_, ?_⟩
  · rw [step_address, step_address, h.address, Located.map_value, isInstruction_rename]
  · intro label
    rw [step_get?, step_get?, h.address, h.get?, Located.map_value]
    obtain ⟨loc, value⟩ := s
    cases value with
    | blank => rfl
    | comment => rfl
    -- Here two names must not fall together, or the new label would hide another one.
    | label name => simp [Statement.rename, injective.eq_iff]
    | instruction inst => rfl
  · intro label absent
    rw [step_get?, h.other label absent, Located.map_value]
    obtain ⟨loc, value⟩ := s
    cases value with
    | blank => rfl
    | comment => rfl
    | label name => simp [Statement.rename, absent name]
    | instruction inst => rfl
  · rw [step_warnings, step_warnings, h.warnings, h.warning?, List.map_append]
    cases b.warning? s <;> rfl

theorem foldl (h : RenamedTo f b c) (injective : Function.Injective f)
    (ss : List (Located Statement)) :
    RenamedTo f (ss.foldl Binding.step b)
      ((ss.map (Located.map (Statement.rename f))).foldl Binding.step c) := by
  induction ss generalizing b c with
  | nil => exact h
  | cons s ss ih => exact ih (h.step injective s)

theorem run (injective : Function.Injective f) (ss : List (Located Statement)) :
    RenamedTo f (Binding.run ss) (Binding.run (ss.map (Located.map (Statement.rename f)))) :=
  empty.foldl injective ss

end Binding.RenamedTo

/-! ## The second pass -/

/-- A new name is a numeral if and only if the old one is. -/
theorem isDecimal_rename (injective : Function.Injective f)
    (numerals : ∀ word, isDecimal word = true → f word = word) (word : String) :
    isDecimal (f word) = isDecimal word := by
  rw [Bool.eq_iff_iff]
  constructor
  · intro decimal
    rwa [injective (numerals (f word) decimal)] at decimal
  · intro decimal
    rwa [numerals word decimal]

theorem Operand.resolve_rename (injective : Function.Injective f)
    (numerals : ∀ word, isDecimal word = true → f word = word) {symbols renamed : SymbolTable}
    (h : ∀ label, renamed.get? (f label) = symbols.get? label) (operand : Option String) :
    Operand.resolve renamed (operand.map f) = (Operand.resolve symbols operand).rename f := by
  cases operand with
  | none => rfl
  | some word =>
      simp only [Option.map_some, resolve, isDecimal_rename injective numerals, h]
      cases decimal : isDecimal word with
      | true => simp [rename, numerals word decimal]
      | false => cases symbols.get? word <;> rfl

theorem Instruction.encode_rename (injective : Function.Injective f)
    (numerals : ∀ word, isDecimal word = true → f word = word) {symbols renamed : SymbolTable}
    (h : ∀ label, renamed.get? (f label) = symbols.get? label) (inst : Instruction) :
    Instruction.encode renamed { inst with operand := inst.operand.map f } =
      (inst.encode symbols).rename f := by
  simp only [encode]
  cases Operation.ofName? inst.name with
  | none => rfl
  | some op =>
      cases harity : op.arity with
      | nullary => simp only [harity]; rfl
      | address =>
          simp only [harity, Operand.resolve_rename injective numerals h]
          rfl

theorem instructions_rename (ss : List (Located Statement)) :
    instructions (ss.map (Located.map (Statement.rename f))) =
      (instructions ss).map
        (Located.map fun inst => { inst with operand := inst.operand.map f }) := by
  rw [instructions, instructions, List.filterMap_map, List.map_filterMap]
  congr 1
  funext s
  obtain ⟨loc, value⟩ := s
  cases value <;> rfl

/-- The entries under the new names are the old ones with the new names. -/
theorem entries_rename (injective : Function.Injective f)
    (numerals : ∀ word, isDecimal word = true → f word = word) {symbols renamed : SymbolTable}
    (h : ∀ label, renamed.get? (f label) = symbols.get? label) (ss : List (Located Statement)) :
    entries renamed (ss.map (Located.map (Statement.rename f))) =
      (entries symbols ss).map (Entry.rename f) := by
  rw [entries, entries, instructions_rename, List.zipIdx_map, List.map_map, List.map_map]
  refine List.map_congr_left ?_
  intro p _
  simp only [Function.comp_apply, Prod.map, Located.map_loc, Located.map_value, Entry.rename, id_eq,
    Instruction.encode_rename injective numerals h]

theorem problems_rename (es : List Entry) :
    problems (es.map (Entry.rename f)) = (problems es).map (Located.map (Diagnostic.rename f)) := by
  rw [problems, problems, List.filterMap_map, List.map_filterMap]
  congr 1
  funext e
  rw [Function.comp_apply, Entry.rename, Code.problem?_rename, Option.map_map, Option.map_map]
  rfl

/-! ## Both passes -/

/-- Labels and operands may be renamed.  If no two names fall together and
numerals stay, the table binds the new names to the old addresses and nothing
else, the entries have the same addresses, places and texts, and the diagnostics
of both passes are the old ones with the new names. -/
theorem passes_rename (injective : Function.Injective f)
    (numerals : ∀ word, isDecimal word = true → f word = word) (ss : List (Located Statement)) :
    let ts := ss.map (Located.map (Statement.rename f))
    let symbols := SymbolTable.ofStatements ss
    let renamed := SymbolTable.ofStatements ts
    (∀ label, renamed.get? (f label) = symbols.get? label) ∧
    (∀ label, (∀ old, f old ≠ label) → renamed.get? label = none) ∧
    (entries renamed ts).map (fun e => (e.address, e.loc, e.code.text)) =
      (entries symbols ss).map (fun e => (e.address, e.loc, e.code.text)) ∧
    duplicateWarnings ts = (duplicateWarnings ss).map (Located.map (Diagnostic.rename f)) ∧
    problems (entries renamed ts) =
      (problems (entries symbols ss)).map (Located.map (Diagnostic.rename f)) := by
  intro ts symbols renamed
  have side := Binding.RenamedTo.run injective ss
  have listed : entries renamed ts = (entries symbols ss).map (Entry.rename f) :=
    entries_rename injective numerals side.get? ss
  refine ⟨side.get?, side.other, ?_, ?_, ?_⟩
  · rw [listed, List.map_map]
    refine List.map_congr_left ?_
    intro e _
    simp only [Function.comp_apply, Entry.rename, Code.text_rename]
  · rw [duplicateWarnings, side.warnings, ← List.map_reverse]
    rfl
  · rw [listed, problems_rename]

/-- Two labels that change their names, in a source that uses one of them before
its second definition. -/
theorem passes_rename_swap :
    let f : String → String := Equiv.swap "A" "B"
    let ss := statements (sourceLines "A: JMP B\nB: LOAD 7\nA: ADD C")
    let ts := ss.map (Located.map (Statement.rename f))
    Function.Injective f ∧ (∀ word, isDecimal word = true → f word = word) ∧
      (SymbolTable.ofStatements ts).get? "B" = some 2 ∧
      duplicateWarnings ts = [⟨⟨3, 1⟩, .duplicateLabel "B" 0⟩] := by
  intro f ss ts
  have injective : Function.Injective f := (Equiv.swap "A" "B").injective
  have numerals : ∀ word, isDecimal word = true → f word = word := by
    intro word decimal
    refine Equiv.swap_apply_of_ne_of_ne ?_ ?_
    · rintro rfl
      revert decimal
      decide
    · rintro rfl
      revert decimal
      decide
  obtain ⟨table, -, -, warnings, -⟩ := passes_rename injective numerals ss
  have renamed : f "A" = "B" := Equiv.swap_apply_left "A" "B"
  have before : duplicateWarnings ss = [⟨⟨3, 1⟩, .duplicateLabel "A" 0⟩] := by decide +kernel
  refine ⟨injective, numerals, ?_, ?_⟩
  · rw [← renamed, table]
    decide +kernel
  · rw [warnings, before, ← renamed]
    rfl

end TwoPass
