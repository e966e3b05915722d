import TwoPass.Proofs.Disassembly
import TwoPass.Proofs.Encoding

/-!
# The grammar of a listing

A line of a listing is decoded by three rules (`DecodesTo`): it is the marker of
an unknown instruction between blanks, or a halt on its own, or one of the other
opcodes with one operand.  An opcode is two hexadecimal digits, so it has one
spelling, but for the letters of the halt (`Operation.spellings`).

A line with words that fits none of the rules is an error, which its first word
tells (`Offends`).  If this word is no opcode, then that is the error.
Otherwise the operands are wrong.

The rules decide every line (`decodesTo_iff`, `offends_iff`).  So a listing is
disassembled if and only if each of its lines with words fits a rule, and the
error of any other listing is that of its first line that fits none
(`disassemble_accepts`).
-/

namespace TwoPass

/-! ## The rules -/

/-- The line of source that a line of a listing is decoded to. -/
inductive DecodesTo (line : String) : String → Prop
  /-- The marker of an unknown instruction, with blanks at its ends only. -/
  | unknown {left right : String} (hl : AllBlank left) (hr : AllBlank right)
      (h : line = left ++ "?? UNKNOWN INSTRUCTION" ++ right) : DecodesTo line "??"
  /-- A halt stands alone. -/
  | halt {word : String} (ws : words line = [word]) (h : word ∈ Operation.halt.spellings) :
      DecodesTo line "HLT"
  /-- Any other opcode stands before a numeral or the marker. -/
  | encoded {op : Operation} {word operand : String} (ws : words line = [word, operand])
      (takes : op ≠ .halt) (h : word ∈ op.spellings)
      (address : operand = "??" ∨ IsNumeral operand) :
      DecodesTo line (op.name ++ " " ++ operand)

/-- The error of a line that has words and fits none of the rules. -/
inductive Offends (line : String) : DecodeError → Prop
  /-- The first word is no opcode. -/
  | opcode {word : String} {operands : List String} (ws : words line = word :: operands)
      (outside : ∀ inst, ¬ DecodesTo line inst) (h : ∀ op : Operation, word ∉ op.spellings) :
      Offends line (.invalidOpcode word)
  /-- Something stands behind a halt. -/
  | surplus {word : String} {operands : List String} (ws : words line = word :: operands)
      (outside : ∀ inst, ¬ DecodesTo line inst) (h : word ∈ Operation.halt.spellings) :
      Offends line (.malformedLine line .surplusOperand)
  /-- One word stands behind another opcode, but it is no address. -/
  | operand {op : Operation} {word operand : String} (ws : words line = [word, operand])
      (outside : ∀ inst, ¬ DecodesTo line inst) (takes : op ≠ .halt) (h : word ∈ op.spellings) :
      Offends line (.malformedLine line .badOperand)
  /-- No word or more than one stands behind another opcode. -/
  | count {op : Operation} {word : String} {operands : List String}
      (ws : words line = word :: operands) (outside : ∀ inst, ¬ DecodesTo line inst)
      (takes : op ≠ .halt) (h : word ∈ op.spellings) (number : operands.length ≠ 1) :
      Offends line (.malformedLine line .operandCount)

/-! ## The rules and the decoder -/

section

variable {line word inst : String} {operands : List String}

theorem Operation.arity_of_ne_halt {op : Operation} (h : op ≠ .halt) : op.arity = .address := by
  cases op with
  | halt => exact absurd rfl h
  | load | store | add | sub | jump => rfl

theorem isListingOperand_iff_isNumeral :
    isListingOperand word = true ↔ word = "??" ∨ IsNumeral word := by
  rw [isListingOperand_iff, isDecimal_iff_isNumeral]
  rfl

/-- A line with this marker between blanks is decoded by the first rule. -/
theorem decodesTo_of_marker (h : (trim line == unknownMarker) = true) : DecodesTo line "??" := by
  obtain ⟨left, right, hl, hr, hline⟩ := exists_eq_append_trim line
  rw [beq_iff_eq.mp h] at hline
  exact .unknown hl hr hline

theorem DecodesTo.decoded (h : DecodesTo line inst) : TwoPass.decoded line = .ok (some inst) := by
  rw [decoded_eq_ok_some_iff]
  cases h with
  | @unknown left right hl hr h =>
      have marked : trim line = unknownMarker := by
        rw [h]
        exact trim_append hl hr rfl (by decide) rfl (by decide)
      have ws : words line = ["??", "UNKNOWN", "INSTRUCTION"] := by
        rw [← words_trim, marked]
        decide
      refine ⟨_, _, ws, ?_⟩
      rw [decodeWords, if_pos (by rw [marked, beq_self_eq_true])]
      rfl
  | halt ws h =>
      refine ⟨_, _, ws, ?_⟩
      rw [decodeWords, trim_ne_unknownMarker (by simp [ws]), opcodeWord?_eq_some_iff.mpr h]
      rfl
  | encoded ws takes h address =>
      refine ⟨_, _, ws, ?_⟩
      rw [decodeWords, trim_ne_unknownMarker (by simp [ws]), opcodeWord?_eq_some_iff.mpr h]
      simp [Operation.arity_of_ne_halt takes, isListingOperand_iff_isNumeral.mpr address]

theorem decodesTo_of_decodeWords (ws : words line = word :: operands)
    (h : decodeWords line word operands = .ok inst) : DecodesTo line inst := by
  rw [decodeWords] at h
  split at h
  next marker =>
    cases h
    exact decodesTo_of_marker marker
  next =>
    split at h
    next => cases h
    next op hop =>
      have spelled := opcodeWord?_eq_some_iff.mp hop
      split at h
      next nullary =>
        cases h
        obtain rfl := Operation.arity_eq_nullary_iff.mp nullary
        exact .halt ws spelled
      next => cases h
      next operand address =>
        split at h
        next valid =>
          cases h
          have takes : op ≠ .halt := by
            rintro rfl
            cases address
          exact .encoded ws takes spelled (isListingOperand_iff_isNumeral.mp valid)
        next => cases h
      next => cases h

/-- The rules decode exactly the lines that the decoder does. -/
theorem decodesTo_iff : DecodesTo line inst ↔ decoded line = .ok (some inst) := by
  constructor
  · exact DecodesTo.decoded
  · intro h
    obtain ⟨word, operands, ws, hinst⟩ := decoded_eq_ok_some_iff.mp h
    exact decodesTo_of_decodeWords ws hinst

theorem marker_eq_false (outside : ∀ inst, ¬ DecodesTo line inst) :
    (trim line == unknownMarker) = false := by
  rw [← Bool.not_eq_true]
  intro marker
  exact outside _ (decodesTo_of_marker marker)

theorem Offends.decoded {e : DecodeError} (h : Offends line e) :
    TwoPass.decoded line = .error e := by
  rw [decoded_eq_error_iff]
  cases h with
  | @opcode word operands ws outside h =>
      have unknown : opcodeWord? word = none := by
        cases hop : opcodeWord? word with
        | none => rfl
        | some op => exact absurd (opcodeWord?_eq_some_iff.mp hop) (h op)
      refine ⟨word, operands, ws, ?_⟩
      rw [decodeWords, marker_eq_false outside, unknown]
      rfl
  | @surplus word operands ws outside h =>
      refine ⟨word, operands, ws, ?_⟩
      rw [decodeWords, marker_eq_false outside, opcodeWord?_eq_some_iff.mpr h]
      cases operands with
      | nil => exact absurd (.halt ws h) (outside _)
      | cons operand operands => rfl
  | @operand op word operand ws outside takes h =>
      refine ⟨word, [operand], ws, ?_⟩
      rw [decodeWords, marker_eq_false outside, opcodeWord?_eq_some_iff.mpr h]
      cases valid : isListingOperand operand with
      | true =>
          exact absurd (.encoded ws takes h (isListingOperand_iff_isNumeral.mp valid)) (outside _)
      | false => simp [Operation.arity_of_ne_halt takes, valid]
  | @count op word operands ws outside takes h number =>
      refine ⟨word, operands, ws, ?_⟩
      rw [decodeWords, marker_eq_false outside, opcodeWord?_eq_some_iff.mpr h]
      cases operands with
      | nil => simp [Operation.arity_of_ne_halt takes]
      | cons operand operands =>
          cases operands with
          | nil => exact absurd rfl number
          | cons other operands => simp [Operation.arity_of_ne_halt takes]

theorem offends_of_decodeWords {e : DecodeError} (ws : words line = word :: operands)
    (outside : ∀ inst, ¬ DecodesTo line inst) (h : decodeWords line word operands = .error e) :
    Offends line e := by
  rw [decodeWords] at h
  split at h
  next => cases h
  next =>
    split at h
    next unknown =>
      cases h
      refine .opcode ws outside ?_
      intro op spelled
      rw [opcodeWord?_eq_some_iff.mpr spelled] at unknown
      cases unknown
    next op hop =>
      have spelled := opcodeWord?_eq_some_iff.mp hop
      have takes : op.arity = .address → op ≠ .halt := by
        rintro address rfl
        cases address
      split at h
      next => cases h
      next nullary _ =>
        cases h
        obtain rfl := Operation.arity_eq_nullary_iff.mp nullary
        exact .surplus ws outside spelled
      next operand address =>
        split at h
        next => cases h
        next =>
          cases h
          exact .operand ws outside (takes address) spelled
      next address many =>
        cases h
        refine .count ws outside (takes address) spelled ?_
        intro one
        obtain ⟨operand, rfl⟩ := List.length_eq_one_iff.mp one
        exact many operand rfl

/-- The rules give the other lines exactly the errors that the decoder does. -/
theorem offends_iff {e : DecodeError} : Offends line e ↔ decoded line = .error e := by
  constructor
  · exact Offends.decoded
  · intro h
    have outside : ∀ inst, ¬ DecodesTo line inst := by
      intro inst fits
      rw [fits.decoded] at h
      cases h
    obtain ⟨word, operands, ws, hinst⟩ := decoded_eq_error_iff.mp h
    exact offends_of_decodeWords ws outside hinst

/-- A line that is decoded has no words or fits a rule. -/
theorem exists_decoded_iff :
    (∃ r, decoded line = .ok r) ↔ (words line ≠ [] → ∃ inst, DecodesTo line inst) := by
  constructor
  · rintro ⟨r, hr⟩ notBlank
    cases r with
    | none => exact absurd (decoded_eq_ok_none_iff.mp hr) notBlank
    | some inst => exact ⟨inst, decodesTo_iff.mpr hr⟩
  · intro fits
    by_cases blank : words line = []
    · exact ⟨none, decoded_eq_ok_none_iff.mpr blank⟩
    · obtain ⟨inst, h⟩ := fits blank
      exact ⟨some inst, h.decoded⟩

end

/-! ## Listings -/

theorem exists_forall₂_iff {α β : Type} {r : α → β → Prop} {l : List α} :
    (∃ bs, List.Forall₂ r l bs) ↔ ∀ a ∈ l, ∃ b, r a b := by
  induction l with
  | nil => exact ⟨fun _ => by simp, fun _ => ⟨[], .nil⟩⟩
  | cons a l ih =>
      rw [List.forall_mem_cons, ← ih]
      constructor
      · rintro ⟨_, _ | ⟨head, rest⟩⟩
        exact ⟨⟨_, head⟩, _, rest⟩
      · rintro ⟨⟨b, head⟩, bs, rest⟩
        exact ⟨b :: bs, .cons head rest⟩

/-- Lines without words are passed over, and the others are decoded one by
one. -/
theorem exists_forall₂_decoded_iff {ls insts : List String} :
    (∃ rs, List.Forall₂ (fun line r => decoded line = .ok r) ls rs ∧ rs.filterMap id = insts) ↔
      List.Forall₂ DecodesTo (ls.filter fun line => ! (words line).isEmpty) insts := by
  induction ls generalizing insts with
  | nil =>
      constructor
      · rintro ⟨_, ⟨⟩, rfl⟩
        exact .nil
      · rintro ⟨⟩
        exact ⟨[], .nil, rfl⟩
  | cons line ls ih =>
      by_cases blank : words line = []
      · have none : decoded line = .ok none := decoded_eq_ok_none_iff.mpr blank
        rw [List.filter_cons_of_neg (by simp [blank]), ← ih]
        constructor
        · rintro ⟨_, _ | ⟨head, rest⟩, rfl⟩
          rw [none] at head
          cases head
          exact ⟨_, rest, rfl⟩
        · rintro ⟨rs, rest, rfl⟩
          exact ⟨_, .cons none rest, rfl⟩
      · rw [List.filter_cons_of_pos (by simp [blank])]
        constructor
        · rintro ⟨_, _ | @⟨_, r, _, _, head, rest⟩, rfl⟩
          cases r with
          | none => exact absurd (decoded_eq_ok_none_iff.mp head) blank
          | some inst => exact .cons (decodesTo_iff.mpr head) (ih.mp ⟨_, rest, rfl⟩)
        · rintro (_ | ⟨head, rest⟩)
          obtain ⟨rs, decodedRest, rfl⟩ := ih.mpr rest
          exact ⟨_, .cons head.decoded decodedRest, rfl⟩

/-- The lines of a text that have words. -/
def linesWithWords (text : String) : List String :=
  (lines text).filter fun line => ! (words line).isEmpty

/-- A listing is disassembled to `source` if and only if each of its lines with
words fits a rule, and `source` has what the rules make of them, line by line.
Otherwise there is a first line that fits no rule, and the error is that of this
line, at its first word. -/
theorem disassemble_accepts (listing : String) :
    (∀ source, disassemble listing = .ok source ↔
      ∃ insts, List.Forall₂ DecodesTo (linesWithWords listing) insts ∧
        source = unlines insts) ∧
    ((∃ source, disassemble listing = .ok source) ↔
      ∀ line ∈ lines listing, words line ≠ [] → ∃ inst, DecodesTo line inst) ∧
    (∀ loc e, disassemble listing = .error ⟨loc, e⟩ ↔
      ∃ above line below, lines listing = above ++ line :: below ∧
        (∀ l ∈ above, words l ≠ [] → ∃ inst, DecodesTo l inst) ∧ Offends line e ∧
        loc = ⟨above.length + 1, indent line + 1⟩) := by
  have accepted : ∀ source, disassemble listing = .ok source ↔
      ∃ insts, List.Forall₂ DecodesTo (linesWithWords listing) insts ∧
        source = unlines insts := by
    intro source
    rw [disassemble_eq_ok_iff]
    constructor
    · rintro ⟨rs, hlines, rfl⟩
      exact ⟨_, exists_forall₂_decoded_iff.mp ⟨rs, hlines, rfl⟩, rfl⟩
    · rintro ⟨insts, fits, rfl⟩
      obtain ⟨rs, hlines, rfl⟩ := exists_forall₂_decoded_iff.mpr fits
      exact ⟨rs, hlines, rfl⟩
  refine ⟨accepted, ?_, ?_⟩
  · calc (∃ source, disassemble listing = .ok source)
        ↔ ∃ insts, List.Forall₂ DecodesTo (linesWithWords listing) insts := by
          constructor
          · rintro ⟨source, h⟩
            obtain ⟨insts, fits, -⟩ := (accepted source).mp h
            exact ⟨insts, fits⟩
          · rintro ⟨insts, fits⟩
            exact ⟨_, (accepted _).mpr ⟨insts, fits, rfl⟩⟩
      _ ↔ ∀ line ∈ linesWithWords listing, ∃ inst, DecodesTo line inst :=
          exists_forall₂_iff
      _ ↔ ∀ line ∈ lines listing, words line ≠ [] → ∃ inst, DecodesTo line inst := by
          simp [linesWithWords, List.mem_filter]
  · intro loc e
    rw [disassemble_eq_error_iff]
    simp only [exists_decoded_iff, offends_iff]

example : disassemble "ff\n\t\u3000+1 5" = .error ⟨⟨2, 5⟩, .invalidOpcode "+1"⟩ := by decide +kernel

end TwoPass
