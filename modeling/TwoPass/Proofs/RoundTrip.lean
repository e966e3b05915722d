import TwoPass.Proofs.Disassembly
import TwoPass.Proofs.Markers

/-!
# Assembly and disassembly

Assembly and disassembly meet at the well-formed codes.

* A listing is the text of some codes (`exists_codes_of_assemble`).
* The text of some codes is disassembled to their source
  (`disassemble_text`).
* The source of some codes is assembled to their text (`assemble_source_text`).
* What can be disassembled is, up to its spelling, the text of some codes
  (`exists_codes_of_disassemble`).

So a listing comes back from its disassembly character by character
(`disassemble_assemble`), and the listings are the texts that come back
(`listing_texts`).
-/

namespace TwoPass

/-! ## The source of codes is assembled to their text -/

/-- The instruction that the source of a code spells. -/
def Code.instruction : Code → Instruction
  | .encoded op operand => ⟨op.name, some operand.text⟩
  | .halt => ⟨Operation.halt.name, none⟩
  | .unknown _ => ⟨unresolvedMarker, none⟩

theorem isWord_operation_name (op : Operation) : IsWord op.name := by
  cases op <;> decide

theorem words_encoded_source {op : Operation} {operand : Operand} (h : operand.WellFormed) :
    words (Code.encoded op operand).source = [op.name, operand.text] := by
  exact words_pair (isWord_operation_name op) h.isWord_text

/-- The source of a code spells one instruction, and no label. -/
theorem spelled_source {code : Code} (h : code.WellFormed) :
    Statement.spelled (words code.source) = [.instruction code.instruction] := by
  cases code with
  | encoded op operand =>
      have ws : words (Code.encoded op operand).source = _ := words_encoded_source h.2
      have comment : isComment op.name = false := by cases op <;> decide
      have label : isLabel op.name = false := by cases op <;> decide
      have upper : uppercase op.name = op.name := by cases op <;> decide
      rw [ws, Statement.spelled, if_neg (by simp [label]),
        Statement.ofWords_instruction comment label, upper]
      rfl
  | halt => decide
  | unknown name =>
      show Statement.spelled (words unresolvedMarker) = [.instruction ⟨unresolvedMarker, none⟩]
      decide

/-- That instruction is encoded to the same text, without any label. -/
theorem text_encode_instruction {code : Code} (h : code.WellFormed) :
    (code.instruction.encode ∅).text = code.text := by
  cases code with
  | encoded op operand =>
      obtain ⟨arity, wellFormed⟩ := h
      have operandText : (Operand.resolve ∅ (some operand.text)).text = operand.text := by
        rcases wellFormed.text_cases with marker | decimal
        · have notDecimal : isDecimal unresolvedMarker = false := by decide
          rw [marker, Operand.resolve, notDecimal, SymbolTable.get?_empty]
          rfl
        · rw [Operand.resolve, if_pos decimal]
          rfl
      simp only [Code.instruction, Instruction.encode, Operation.ofName?_name, arity, Code.text,
        operandText]
  | halt => rfl
  | unknown name => rfl

theorem newline_not_mem_source {code : Code} (h : code.WellFormed) :
    '\n' ∉ code.source.toList := by
  cases code with
  | encoded op operand => exact newline_not_mem_pair (isWord_operation_name op) h.2.isWord_text
  | halt => decide
  | unknown name =>
      rw [Code.source]
      decide

theorem flatMap_spelled_source {codes : List Code} (h : ∀ code ∈ codes, code.WellFormed) :
    (codes.map Code.source).flatMap (fun line => Statement.spelled (words line)) =
      codes.map (fun code => Statement.instruction code.instruction) := by
  induction codes with
  | nil => rfl
  | cons code codes ih =>
      rw [List.map_cons, List.flatMap_cons, spelled_source (h code List.mem_cons_self),
        ih fun c hc => h c (List.mem_cons_of_mem _ hc)]
      rfl

theorem statements_source_value {codes : List Code} (h : ∀ code ∈ codes, code.WellFormed) :
    (statements (sourceLines (unlines (codes.map Code.source)))).map (·.value) =
      codes.map (fun code => Statement.instruction code.instruction) ++ [.blank] := by
  have oneLine : ∀ line ∈ codes.map Code.source, '\n' ∉ line.toList :=
    List.forall_mem_map.mpr fun code hcode => newline_not_mem_source (h code hcode)
  rw [statements_sourceLines_value, lines_unlines oneLine, List.flatMap_append,
    flatMap_spelled_source h]
  rfl

theorem instructions_value (ss : List (Located Statement)) :
    (instructions ss).map (·.value) = (ss.map (·.value)).filterMap Statement.instruction? := by
  induction ss with
  | nil => rfl
  | cons s ss ih =>
      obtain ⟨loc, value⟩ := s
      cases value with
      | instruction inst => exact congrArg (inst :: ·) ih
      | blank => exact ih
      | comment => exact ih
      | label name => exact ih

/-- The text of a listing, read off the instructions without their places. -/
theorem text_eq (source : String) :
    (assemble source).text =
      unlines ((((statements (sourceLines source)).map (·.value)).filterMap
        Statement.instruction?).map fun inst => (inst.encode (assemble source).symbols).text) := by
  have codes := congrArg (List.map Code.text)
    (entries_code (assemble source).symbols (statements (sourceLines source)))
  rw [List.map_map, List.map_map] at codes
  rw [← instructions_value, List.map_map, Listing.text, assemble_entries]
  exact congrArg unlines codes

/-- The source of some codes is assembled to their text. -/
theorem assemble_source_text {codes : List Code} (h : ∀ code ∈ codes, code.WellFormed) :
    (assemble (unlines (codes.map Code.source))).text = unlines (codes.map Code.text) := by
  have values := statements_source_value h
  have noLabels : (assemble (unlines (codes.map Code.source))).symbols = ∅ := by
    rw [assemble_symbols]
    refine ofStatements_eq_empty ?_
    intro s hs label hlabel
    have mem := List.mem_map_of_mem (f := fun s : Located Statement => s.value) hs
    rw [values, hlabel] at mem
    simp at mem
  have insts : (codes.map (fun code : Code => Statement.instruction code.instruction) ++
      [Statement.blank]).filterMap Statement.instruction? = codes.map Code.instruction := by
    rw [List.filterMap_append, List.filterMap_map, ← List.filterMap_eq_map]
    exact List.append_nil _
  rw [text_eq, values, noLabels, insts, List.map_map]
  refine congrArg unlines (List.map_congr_left ?_)
  intro code hcode
  exact text_encode_instruction (h code hcode)

/-! ## The text of codes is disassembled to their source -/

theorem disassemble_text {codes : List Code} (h : ∀ code ∈ codes, code.WellFormed) :
    disassemble (unlines (codes.map Code.text)) = .ok (unlines (codes.map Code.source)) := by
  have oneLine : ∀ line ∈ codes.map Code.text, '\n' ∉ line.toList :=
    List.forall_mem_map.mpr fun code hcode => (h code hcode).newline_not_mem_text
  rw [disassemble_eq_ok_iff, lines_unlines oneLine]
  refine ⟨codes.map (fun code => some code.source) ++ [none], ?_, ?_⟩
  · refine List.rel_append ?_ (.cons rfl .nil)
    rw [List.forall₂_map_left_iff, List.forall₂_map_right_iff, List.forall₂_same]
    intro code hcode
    exact decoded_text (h code hcode)
  · simp [List.filterMap_append, List.filterMap_map]

/-- A listing is the text of some codes. -/
theorem exists_codes_of_assemble (source : String) :
    ∃ codes : List Code, (∀ code ∈ codes, code.WellFormed) ∧
      (assemble source).entries.map (·.code) = codes ∧
      (assemble source).text = unlines (codes.map Code.text) := by
  refine ⟨_, ?_, rfl, ?_⟩
  · intro code hcode
    obtain ⟨e, he, rfl⟩ := List.mem_map.mp hcode
    exact code_wellFormed_of_mem_entries he
  · rw [List.map_map]
    rfl

/-! ## What can be disassembled -/

/-- The one spelling of a listing: its lines with words, each in its one
spelling and ended by a newline. -/
def canonical (listing : String) : String :=
  unlines (((lines listing).filter fun line => ! (words line).isEmpty).map canonicalLine)

theorem exists_codes_of_forall₂ {ls : List String} {rs : List (Option String)}
    (h : List.Forall₂ (fun line r => decoded line = .ok r) ls rs) :
    ∃ codes : List Code, (∀ code ∈ codes, code.WellFormed) ∧
      rs.filterMap id = codes.map Code.source ∧
      (ls.filter fun line => ! (words line).isEmpty).map canonicalLine = codes.map Code.text := by
  induction h with
  | nil => exact ⟨[], by simp, rfl, rfl⟩
  | @cons line r ls rs hline _ ih =>
      obtain ⟨codes, wellFormed, hsource, htext⟩ := ih
      cases r with
      | none =>
          have blank : words line = [] := decoded_eq_ok_none_iff.mp hline
          refine ⟨codes, wellFormed, hsource, ?_⟩
          rw [List.filter_cons_of_neg (by simp [blank]), htext]
      | some inst =>
          have notBlank : words line ≠ [] := by
            intro blank
            rw [decoded_eq_ok_none_iff.mpr blank] at hline
            cases hline
          obtain ⟨code, codeWellFormed, rfl, hcode⟩ := exists_code_of_decoded hline
          refine ⟨code :: codes, ?_, ?_, ?_⟩
          · exact List.forall_mem_cons.mpr ⟨codeWellFormed, wellFormed⟩
          · rw [List.map_cons, ← hsource]
            rfl
          · rw [List.filter_cons_of_pos (by simp [notBlank]), List.map_cons, List.map_cons, htext,
              hcode]

/-- A text that can be disassembled is, up to its spelling, the text of some
codes. -/
theorem exists_codes_of_disassemble {listing source : String}
    (h : disassemble listing = .ok source) :
    ∃ codes : List Code, (∀ code ∈ codes, code.WellFormed) ∧
      source = unlines (codes.map Code.source) ∧ canonical listing = unlines (codes.map Code.text) := by
  obtain ⟨rs, hlines, rfl⟩ := disassemble_eq_ok_iff.mp h
  obtain ⟨codes, wellFormed, hsource, htext⟩ := exists_codes_of_forall₂ hlines
  exact ⟨codes, wellFormed, by rw [hsource], by rw [canonical, htext]⟩

/-! ## The lines of a listing -/

/-- A line that a listing can have. -/
inductive ListingLine : String → Prop
  /-- An opcode from `01` to `05` with a numeral or the marker. -/
  | operand {d : Char} {word : String} (hd : d ∈ ['1', '2', '3', '4', '5'])
      (hword : word = "??" ∨ isDecimal word = true) :
      ListingLine (String.ofList ['0', d, ' '] ++ word)
  /-- The end of the program. -/
  | halt : ListingLine "FF"
  /-- The marker of an unknown instruction. -/
  | unknown : ListingLine "?? UNKNOWN INSTRUCTION"

/-- The lines of a listing are the texts of the well-formed codes. -/
theorem listingLine_iff {line : String} :
    ListingLine line ↔ ∃ code : Code, code.WellFormed ∧ code.text = line := by
  constructor
  · rintro (⟨hd, hword⟩ | _ | _)
    · obtain ⟨o, wellFormed, rfl⟩ :=
        exists_operand_of_isListingOperand (isListingOperand_iff.mpr hword)
      simp only [List.mem_cons, List.not_mem_nil, or_false] at hd
      rcases hd with rfl | rfl | rfl | rfl | rfl
      · exact ⟨.encoded .load o, ⟨rfl, wellFormed⟩, rfl⟩
      · exact ⟨.encoded .store o, ⟨rfl, wellFormed⟩, rfl⟩
      · exact ⟨.encoded .add o, ⟨rfl, wellFormed⟩, rfl⟩
      · exact ⟨.encoded .sub o, ⟨rfl, wellFormed⟩, rfl⟩
      · exact ⟨.encoded .jump o, ⟨rfl, wellFormed⟩, rfl⟩
    · exact ⟨.halt, trivial, rfl⟩
    · exact ⟨.unknown "", trivial, rfl⟩
  · rintro ⟨code, wellFormed, rfl⟩
    cases code with
    | encoded op operand =>
        obtain ⟨arity, operandWellFormed⟩ := wellFormed
        have hword := operandWellFormed.text_cases
        cases op with
        | load => exact .operand (d := '1') (by simp) hword
        | store => exact .operand (d := '2') (by simp) hword
        | add => exact .operand (d := '3') (by simp) hword
        | sub => exact .operand (d := '4') (by simp) hword
        | jump => exact .operand (d := '5') (by simp) hword
        | halt => cases arity
    | halt => exact .halt
    | unknown name => exact .unknown

theorem exists_codes_of_listingLines {ls : List String} (h : ∀ line ∈ ls, ListingLine line) :
    ∃ codes : List Code, (∀ code ∈ codes, code.WellFormed) ∧ codes.map Code.text = ls := by
  induction ls with
  | nil => exact ⟨[], by simp, rfl⟩
  | cons line ls ih =>
      obtain ⟨codes, wellFormed, rfl⟩ := ih fun l hl => h l (List.mem_cons_of_mem _ hl)
      obtain ⟨code, codeWellFormed, rfl⟩ := listingLine_iff.mp (h line List.mem_cons_self)
      exact ⟨code :: codes, List.forall_mem_cons.mpr ⟨codeWellFormed, wellFormed⟩, rfl⟩

/-! ## Round trips -/

/-- A line of source that neither defines a label nor refers to one. -/
structure LabelFree (line : String) : Prop where
  /-- It is one line. -/
  one_line : '\n' ∉ line.toList
  /-- No word ends in a colon. -/
  defines_none : ∀ word ∈ words line, beforeColon? word = none
  /-- What stands behind the first word is a numeral or the marker. -/
  refers_none : ∀ word ∈ (words line).tail, word = unresolvedMarker ∨ isDecimal word = true

theorem beforeColon?_eq_none_of_isDecimal {word : String} (h : isDecimal word = true) :
    beforeColon? word = none := by
  rw [beforeColon?, if_neg]
  intro colon
  have member : ':' ∈ word.toList := List.mem_of_getLast? (beq_iff_eq.mp colon)
  exact absurd ((isDecimal_iff.mp h).2 _ member) (by decide)

theorem labelFree_source {code : Code} (h : code.WellFormed) : LabelFree code.source := by
  cases code with
  | encoded op operand =>
      have ws : words (Code.encoded op operand).source = _ := words_encoded_source h.2
      refine ⟨newline_not_mem_source h, ?_, ?_⟩
      · rw [ws]
        intro word hword
        rcases List.mem_pair.mp hword with rfl | rfl
        · cases op <;> decide
        · rcases h.2.text_cases with marker | decimal
          · rw [marker]
            decide
          · exact beforeColon?_eq_none_of_isDecimal decimal
      · rw [ws]
        intro word hword
        rw [List.tail_cons, List.mem_singleton] at hword
        rw [hword]
        exact h.2.text_cases
  | halt => exact ⟨by decide, by decide, by decide⟩
  | unknown name =>
      rw [Code.source]
      exact ⟨by decide, by decide, by decide⟩

/-- A listing is disassembled to one line of source for each entry, in order and
without labels.  Each line is assembled to the line of its entry, and all of
them to the same text with the same verdict on errors. -/
theorem disassemble_assemble (source : String) :
    ∃ ls : List String,
      disassemble (assemble source).text = .ok (unlines ls) ∧
      List.Forall₂ (fun e line => LabelFree line ∧
          (assemble (line ++ "\n")).text = e.code.text ++ "\n")
        (assemble source).entries ls ∧
      (assemble (unlines ls)).text = (assemble source).text ∧
      (assemble (unlines ls)).hasErrors = (assemble source).hasErrors := by
  obtain ⟨codes, wellFormed, hcodes, htext⟩ := exists_codes_of_assemble source
  have same : (assemble (unlines (codes.map Code.source))).text = (assemble source).text := by
    rw [assemble_source_text wellFormed, htext]
  refine ⟨codes.map Code.source, ?_, ?_, same, ?_⟩
  · rw [htext]
    exact disassemble_text wellFormed
  · rw [← hcodes, List.map_map, List.forall₂_map_right_iff, List.forall₂_same]
    intro e he
    have code : e.code.WellFormed := code_wellFormed_of_mem_entries he
    have alone : (assemble (unlines ([e.code].map Code.source))).text =
        unlines ([e.code].map Code.text) := assemble_source_text (by simpa using code)
    exact ⟨labelFree_source code, by simpa [unlines] using alone⟩
  · rw [Bool.eq_iff_iff, hasErrors_iff_isMarked, hasErrors_iff_isMarked, same]

/-- What is disassembled is assembled to the one spelling of the listing, and
comes back from there.  So the texts that come back are the listings, and these
are the texts whose lines have one of the forms of `ListingLine`. -/
theorem listing_texts :
    (∀ {listing source : String}, disassemble listing = .ok source →
      (assemble source).text = canonical listing ∧
        disassemble (assemble source).text = .ok source) ∧
    (∀ text, (∃ source, disassemble text = .ok source ∧ (assemble source).text = text) ↔
      ∃ source, (assemble source).text = text) ∧
    ∀ text, (∃ source, (assemble source).text = text) ↔
      ∃ ls, (∀ line ∈ ls, ListingLine line) ∧ text = unlines ls := by
  refine ⟨?_, ?_, ?_⟩
  · intro listing source h
    obtain ⟨codes, wellFormed, rfl, hcanonical⟩ := exists_codes_of_disassemble h
    have text := assemble_source_text wellFormed
    refine ⟨by rw [text, hcanonical], ?_⟩
    rw [text]
    exact disassemble_text wellFormed
  · intro text
    constructor
    · rintro ⟨source, -, htext⟩
      exact ⟨source, htext⟩
    · rintro ⟨source, rfl⟩
      obtain ⟨codes, wellFormed, -, htext⟩ := exists_codes_of_assemble source
      rw [htext]
      exact ⟨_, disassemble_text wellFormed, assemble_source_text wellFormed⟩
  · intro text
    constructor
    · rintro ⟨source, rfl⟩
      obtain ⟨codes, wellFormed, -, htext⟩ := exists_codes_of_assemble source
      refine ⟨codes.map Code.text, ?_, htext⟩
      intro line hline
      obtain ⟨code, hcode, rfl⟩ := List.mem_map.mp hline
      exact listingLine_iff.mpr ⟨code, wellFormed code hcode, rfl⟩
    · rintro ⟨ls, hls, rfl⟩
      obtain ⟨codes, wellFormed, rfl⟩ := exists_codes_of_listingLines hls
      exact ⟨_, assemble_source_text wellFormed⟩

theorem listing_texts_of_blanks :
    disassemble " ff\t\r\n\n?? UNKNOWN INSTRUCTION \n01   07" = .ok "HLT\n??\nLOAD 07\n" ∧
      (assemble "HLT\n??\nLOAD 07\n").text = "FF\n?? UNKNOWN INSTRUCTION\n01 07\n" := by
  have source : disassemble " ff\t\r\n\n?? UNKNOWN INSTRUCTION \n01   07" =
      .ok "HLT\n??\nLOAD 07\n" := by rfl
  refine ⟨source, ?_⟩
  rw [(listing_texts.1 source).1]
  decide

end TwoPass
