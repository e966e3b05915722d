import TwoPass.Assembly
import TwoPass.Proofs.Numerals
import TwoPass.Proofs.Source

/-!
# The codes of a listing

Not every code can stand in a listing.  `Code.WellFormed` says which can: an
operation that takes an address, with an operand whose literal is a numeral, or
a halt, or an unknown instruction.  The second pass yields no other
(`Instruction.encode_wellFormed`).

The text of such a code is one line.  It is the opcode and a numeral or the
marker (`Operand.WellFormed.text_cases`), or one of two fixed lines.
-/

namespace TwoPass

/-! ## Well-formed codes -/

/-- A literal is a numeral. -/
def Operand.WellFormed : Operand → Prop
  | .literal numeral => isDecimal numeral = true
  | .label _ _ => True
  | .unresolved _ => True

/-- An encoded operation takes an address, and its literal is a numeral. -/
def Code.WellFormed : Code → Prop
  | .encoded op operand => op.arity = .address ∧ operand.WellFormed
  | .halt => True
  | .unknown _ => True

theorem Operand.resolve_wellFormed (symbols : SymbolTable) (operand : Option String) :
    (Operand.resolve symbols operand).WellFormed := by
  cases operand with
  | none => trivial
  | some word =>
      rw [Operand.resolve]
      split
      next decimal => exact decimal
      next => split <;> trivial

/-- The second pass yields well-formed codes. -/
theorem Instruction.encode_wellFormed (symbols : SymbolTable) (inst : Instruction) :
    (inst.encode symbols).WellFormed := by
  rw [Instruction.encode]
  split
  next => trivial
  next op _ =>
    split
    next => trivial
    next arity => exact ⟨arity, Operand.resolve_wellFormed symbols inst.operand⟩

theorem entries_code (symbols : SymbolTable) (ss : List (Located Statement)) :
    (entries symbols ss).map (·.code) = (instructions ss).map (·.value.encode symbols) := by
  have members := List.zipIdx_map_fst 0 (instructions ss)
  rw [entries, List.map_map, ← congrArg (List.map (·.value.encode symbols)) members, List.map_map]
  rfl

/-- The codes of a listing are well-formed. -/
theorem code_wellFormed_of_mem_entries {source : String} {e : Entry}
    (h : e ∈ (assemble source).entries) : e.code.WellFormed := by
  have mem := List.mem_map_of_mem (f := Entry.code) h
  rw [assemble_entries, entries_code] at mem
  obtain ⟨inst, -, hcode⟩ := List.mem_map.mp mem
  rw [← hcode]
  exact inst.value.encode_wellFormed _

/-! ## Their text -/

theorem isWord_hexadecimal_opcode (op : Operation) : IsWord (hexadecimal 2 op.opcode) :=
  isWord_hexadecimal (by decide) op.opcode

theorem isWord_unresolvedMarker : IsWord unresolvedMarker := by
  decide

/-- The text of an operand is a numeral or the marker. -/
theorem Operand.WellFormed.text_cases {operand : Operand} (h : operand.WellFormed) :
    operand.text = unresolvedMarker ∨ isDecimal operand.text = true := by
  cases operand with
  | literal numeral => exact Or.inr h
  | label name address => exact Or.inr (isDecimal_repr address)
  | unresolved symbol => exact Or.inl rfl

theorem Operand.WellFormed.isWord_text {operand : Operand} (h : operand.WellFormed) :
    IsWord operand.text := by
  rcases h.text_cases with marker | decimal
  · rw [marker]
    exact isWord_unresolvedMarker
  · exact isWord_of_isDecimal decimal

/-- The text of a code is one line. -/
theorem Code.WellFormed.newline_not_mem_text {code : Code} (h : code.WellFormed) :
    '\n' ∉ code.text.toList := by
  cases code with
  | encoded op operand => exact newline_not_mem_pair (isWord_hexadecimal_opcode op) h.2.isWord_text
  | halt => decide
  | unknown name =>
      rw [Code.text]
      decide

/-- The lines of a listing are the texts of its codes. -/
theorem lines_text (source : String) :
    lines (assemble source).text = (assemble source).entries.map (·.code.text) ++ [""] := by
  rw [Listing.text, lines_unlines]
  intro line hline
  obtain ⟨e, he, rfl⟩ := List.mem_map.mp hline
  exact (code_wellFormed_of_mem_entries he).newline_not_mem_text

/-! ## Their markers -/

/-- Whether a text holds the marker of what could not be encoded. -/
def isMarked (text : String) : Bool := text.contains unresolvedMarker

theorem isMarked_iff {text : String} :
    isMarked text = true ↔ unresolvedMarker.toList <:+: text.toList :=
  String.contains_string_iff

theorem isMarked_eq_false {text : String} (h : '?' ∉ text.toList) : isMarked text = false := by
  rw [← Bool.not_eq_true, isMarked_iff]
  intro found
  exact h (found.mem (by decide))

/-- A text is marked if and only if one of its lines is. -/
theorem isMarked_unlines {ls : List String} :
    isMarked (unlines ls) = true ↔ ∃ line ∈ ls, isMarked line = true := by
  induction ls with
  | nil =>
      rw [isMarked_eq_false (by simp)]
      simp
  | cons line ls ih =>
      have split : (unlines (line :: ls)).toList = line.toList ++ '\n' :: (unlines ls).toList := by
        rw [unlines_cons]
        simp
      rw [isMarked_iff, split, infix_append_cons_iff (by decide) (by decide), ← isMarked_iff,
        ← isMarked_iff, ih]
      simp

end TwoPass
