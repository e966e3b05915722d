import Mathlib.Data.List.Forall2
import TwoPass.Proofs.Addresses

/-!
# What an instruction encodes

The code of an instruction is given by rules, one for each kind of code
(`Encodes`), and what an operand stands for by rules of its own (`Resolves`).
The rules speak of the name, the operand and the table, and of nothing else.

No two rules fit the same instruction, and one of them always does.  The second
pass follows them under every table, also one that has nothing to do with the
statements (`encodes_iff`).  Under the table of the statements themselves a
label stands for the number of instructions before its last definition.
-/

namespace TwoPass

/-! ## The rules -/

/-- One or more ASCII digits. -/
structure IsNumeral (word : String) : Prop where
  /-- There is a digit. -/
  ne_nil : word.toList ≠ []
  /-- There is nothing else. -/
  digits : ∀ c ∈ word.toList, '0' ≤ c ∧ c ≤ '9'

theorem isDecimal_iff_isNumeral {word : String} : isDecimal word = true ↔ IsNumeral word := by
  have digit : ∀ c : Char, isDigit c = true ↔ '0' ≤ c ∧ c ≤ '9' := by
    intro c
    rw [isDigit, Bool.and_eq_true, decide_eq_true_eq, decide_eq_true_eq]
  rw [isDecimal_iff]
  constructor
  · rintro ⟨ne_nil, digits⟩
    exact ⟨ne_nil, fun c hc => (digit c).mp (digits c hc)⟩
  · rintro ⟨ne_nil, digits⟩
    exact ⟨ne_nil, fun c hc => (digit c).mpr (digits c hc)⟩

/-- What an operand stands for under a symbol table. -/
inductive Resolves (symbols : SymbolTable) : Option String → Operand → Prop
  /-- There is no operand. -/
  | missing : Resolves symbols none (.unresolved none)
  /-- A numeral stands for itself, even if a label is called so. -/
  | literal {word : String} (numeral : IsNumeral word) :
      Resolves symbols (some word) (.literal word)
  /-- A label stands for its address. -/
  | label {word : String} {address : Nat} (name : ¬ IsNumeral word)
      (bound : symbols.get? word = some address) :
      Resolves symbols (some word) (.label word address)
  /-- Any other word stands for nothing. -/
  | unresolved {word : String} (name : ¬ IsNumeral word) (unbound : symbols.get? word = none) :
      Resolves symbols (some word) (.unresolved (some word))

/-- The names of the operations that take an address. -/
def addressNames : List String := ["LOAD", "STORE", "ADD", "SUB", "JMP"]

/-- What an instruction encodes under a symbol table. -/
inductive Encodes (symbols : SymbolTable) : Instruction → Code → Prop
  /-- A name that is no operation's. -/
  | unknown {name : String} {operand : Option String} (other : name ∉ "HLT" :: addressNames) :
      Encodes symbols ⟨name, operand⟩ (.unknown name)
  /-- A halt, whatever stands behind it. -/
  | halt {operand : Option String} : Encodes symbols ⟨"HLT", operand⟩ .halt
  /-- An operation on what its operand stands for. -/
  | encoded {op : Operation} {operand : Option String} {resolved : Operand}
      (takes : op.name ∈ addressNames) (h : Resolves symbols operand resolved) :
      Encodes symbols ⟨op.name, operand⟩ (.encoded op resolved)

/-! ## The rules and the second pass -/

section

variable {symbols : SymbolTable}

theorem resolves_iff {operand : Option String} {resolved : Operand} :
    Resolves symbols operand resolved ↔ Operand.resolve symbols operand = resolved := by
  constructor
  · intro h
    cases h with
    | missing => rfl
    | literal numeral => simp [Operand.resolve, isDecimal_iff_isNumeral, numeral]
    | label name bound => simp [Operand.resolve, isDecimal_iff_isNumeral, name, bound]
    | unresolved name unbound => simp [Operand.resolve, isDecimal_iff_isNumeral, name, unbound]
  · rintro rfl
    cases operand with
    | none => exact .missing
    | some word =>
        rw [Operand.resolve]
        split
        next numeral => exact .literal (isDecimal_iff_isNumeral.mp numeral)
        next name =>
          have name' : ¬ IsNumeral word := fun numeral => name (isDecimal_iff_isNumeral.mpr numeral)
          split
          next address bound => exact .label name' bound
          next unbound => exact .unresolved name' unbound

theorem Operation.arity_eq_address_iff {op : Operation} :
    op.arity = .address ↔ op.name ∈ addressNames := by
  cases op <;> decide

theorem Operation.ofName?_eq_none_iff {name : String} :
    Operation.ofName? name = none ↔ name ∉ "HLT" :: addressNames := by
  have names : "HLT" :: addressNames =
      [halt.name, load.name, store.name, add.name, sub.name, jump.name] := rfl
  constructor
  · intro unknown member
    rw [names] at member
    simp only [List.mem_cons, List.not_mem_nil, or_false] at member
    rcases member with h | h | h | h | h | h <;> rw [h, ofName?_name] at unknown <;> cases unknown
  · intro other
    cases found : Operation.ofName? name with
    | none => rfl
    | some op =>
        obtain rfl := ofName?_eq_some_iff.mp found
        refine absurd ?_ other
        cases op <;> decide

/-- The rules give every instruction exactly the code that the second pass
gives it. -/
theorem encodes_iff {inst : Instruction} {code : Code} :
    Encodes symbols inst code ↔ inst.encode symbols = code := by
  constructor
  · intro h
    cases h with
    | unknown other => simp [Instruction.encode, Operation.ofName?_eq_none_iff.mpr other]
    | halt => rfl
    | encoded takes h =>
        simp [Instruction.encode, Operation.arity_eq_address_iff.mpr takes, resolves_iff.mp h]
  · rintro rfl
    obtain ⟨name, operand⟩ := inst
    rw [Instruction.encode]
    split
    next unknown => exact .unknown (Operation.ofName?_eq_none_iff.mp unknown)
    next op found =>
      obtain rfl := Operation.ofName?_eq_some_iff.mp found
      split
      next nullary =>
        obtain rfl := Operation.arity_eq_nullary_iff.mp nullary
        exact .halt
      next takes =>
        exact .encoded (Operation.arity_eq_address_iff.mp takes) (resolves_iff.mpr rfl)

end

example : (Instruction.mk "LOAD" (some "5")).encode ((∅ : SymbolTable).define "5" 9).2 =
    .encoded .load (.literal "5") := by
  rfl

/-! ## What cannot be encoded -/

namespace Encodes

variable {symbols : SymbolTable} {inst : Instruction} {op : Operation}

/-- No halt has an operand. -/
theorem ne_encoded_halt {code : Code} (h : Encodes symbols inst code) (operand : Operand) :
    code ≠ .encoded .halt operand := by
  rintro rfl
  cases h with
  | encoded takes => exact absurd takes (by decide)

theorem isNumeral {numeral : String} (h : Encodes symbols inst (.encoded op (.literal numeral))) :
    IsNumeral numeral := by
  cases h with
  | encoded _ resolved =>
      cases resolved with
      | literal numeral => exact numeral

theorem get?_label {name : String} {address : Nat}
    (h : Encodes symbols inst (.encoded op (.label name address))) :
    symbols.get? name = some address := by
  cases h with
  | encoded _ resolved =>
      cases resolved with
      | label _ bound => exact bound

end Encodes

/-! ## All instructions -/

/-- Each instruction gets an entry at its place, with the code it encodes. -/
theorem entries_forall₂ (symbols : SymbolTable) (ss : List (Located Statement)) :
    List.Forall₂ (fun s e => e.loc = s.loc ∧ Encodes symbols s.value e.code)
      (instructions ss) (entries symbols ss) := by
  have numbered : ∀ (is : List (Located Instruction)) (first : Nat),
      List.Forall₂ (fun s e => e.loc = s.loc ∧ Encodes symbols s.value e.code) is
        ((is.zipIdx first).map fun p => Entry.mk p.2 p.1.loc (p.1.value.encode symbols)) := by
    intro is
    induction is with
    | nil => exact fun _ => .nil
    | cons s is ih =>
        intro first
        exact .cons ⟨rfl, encodes_iff.mpr rfl⟩ (ih (first + 1))
  exact numbered (instructions ss) 0

theorem encodes_of_mem_entries {symbols : SymbolTable} {ss : List (Located Statement)} {e : Entry}
    (h : e ∈ entries symbols ss) : ∃ inst, Encodes symbols inst e.code := by
  obtain ⟨⟨s, address⟩, -, rfl⟩ := List.mem_map.mp h
  exact ⟨s.value, encodes_iff.mpr rfl⟩

/-- The second pass under any table.  It gives every instruction one entry, in
order and numbered from zero, with the code that the rules give it.  So a halt
never has an operand, a literal is a numeral, and a label has the address that
the table binds it to.  Under the table of the statements that address is the
number of instructions before the last definition of the label, which may stand
anywhere among them. -/
theorem entries_encode (symbols : SymbolTable) (ss : List (Located Statement)) :
    (entries symbols ss).map (·.address) = List.range (instructions ss).length ∧
    List.Forall₂ (fun s e => e.loc = s.loc ∧ ∀ code, Encodes symbols s.value code ↔ e.code = code)
      (instructions ss) (entries symbols ss) ∧
    (∀ e ∈ entries symbols ss, ∀ operand, e.code ≠ .encoded .halt operand) ∧
    (∀ e ∈ entries symbols ss, ∀ op numeral, e.code = .encoded op (.literal numeral) →
      IsNumeral numeral) ∧
    (∀ e ∈ entries symbols ss, ∀ op label address, e.code = .encoded op (.label label address) →
      symbols.get? label = some address) ∧
    (∀ e ∈ entries (SymbolTable.ofStatements ss) ss, ∀ op label address,
      e.code = .encoded op (.label label address) →
        ∃ before definition after, LastDefinition ss label before definition after ∧
          address = before.countP (·.value.isInstruction)) := by
  have length : (entries symbols ss).length = (instructions ss).length := by
    rw [entries, List.length_map, List.length_zipIdx]
  have bound : ∀ {table : SymbolTable}, ∀ e ∈ entries table ss, ∀ op label address,
      e.code = .encoded op (.label label address) → table.get? label = some address := by
    intro table e he op label address hcode
    obtain ⟨inst, encodes⟩ := encodes_of_mem_entries he
    rw [hcode] at encodes
    exact encodes.get?_label
  refine ⟨?_, ?_, ?_, ?_, bound, ?_⟩
  · rw [entries_address, length]
  · refine (entries_forall₂ symbols ss).imp ?_
    rintro s e ⟨hloc, encodes⟩
    refine ⟨hloc, fun code => ?_⟩
    rw [encodes_iff, encodes_iff.mp encodes]
  · intro e he
    obtain ⟨inst, encodes⟩ := encodes_of_mem_entries he
    exact encodes.ne_encoded_halt
  · intro e he op numeral hcode
    obtain ⟨inst, encodes⟩ := encodes_of_mem_entries he
    rw [hcode] at encodes
    exact encodes.isNumeral
  · intro e he op label address hcode
    have found := bound e he op label address hcode
    have defined : ∃ s ∈ ss, s.value = .label label :=
      isSome_get?_ofStatements_iff.mp (Option.isSome_of_eq_some found)
    obtain ⟨before, definition, after, cut⟩ := exists_lastDefinition defined
    rw [cut.get?] at found
    exact ⟨before, definition, after, cut, (Option.some.inj found).symm⟩

end TwoPass
