import TwoPass.Proofs.Markers

/-!
# Annotated listings

An annotated line has the address in front of the code and the line of the
source behind it.  Address and code are padded, and either can be longer than
its padding: an address above `FFFF` has five digits or more, and a long operand
leaves no blank before the semicolon.

So columns do not tell the three fields apart.  But no digit and no code holds a
semicolon, so the only one in the line stands right behind the code and its
padding.  What is before it is the words of the code behind one word for the
address, and what is behind it ends in one word for the line
(`readAnnotation?_annotatedText`).

`annotated_reads_back` says this of every listing.  The lines of the source that
are read back increase, since a line of source holds at most one instruction.
-/

namespace TwoPass

/-! ## One annotated line -/

/-- What an annotated line says. -/
structure Annotation where
  /-- The address. -/
  address : Nat
  /-- The line of the listing. -/
  code : String
  /-- The number of the line of the source. -/
  line : Nat
deriving DecidableEq, Repr

/-- Read an annotated line.  Before the semicolon the first word is the address,
and the others are the code.  The second word behind it is the line of the
source. -/
def readAnnotation? (text : String) : Option Annotation :=
  match (pieces (· == ';') text.toList).map fun piece => words (String.ofList piece) with
  | [address :: code, [_, line]] =>
      some ⟨hexValue address.toList, " ".intercalate code, Nat.ofDigitChars 10 line.toList 0⟩
  | _ => none

/-- What the annotated line of an entry is to say. -/
def Entry.annotation (e : Entry) : Annotation := ⟨e.address, e.code.text, e.loc.line⟩

/-- What stands before the semicolon. -/
def Entry.front (e : Entry) : String := hexadecimal 4 e.address ++ "  " ++ padRight 24 e.code.text

/-- What stands behind it. -/
def Entry.behind (e : Entry) : String := " line " ++ e.loc.line.repr

theorem Entry.toList_annotatedText (e : Entry) :
    e.annotatedText.toList = e.front.toList ++ ';' :: e.behind.toList := by
  simp [annotatedText, front, behind]

/-- No code has a semicolon in its text. -/
theorem Code.WellFormed.semicolon_not_mem_text {code : Code} (h : code.WellFormed) :
    ';' ∉ code.text.toList := by
  cases code with
  | encoded op operand =>
      have opcode : ';' ∉ (hexadecimal 2 op.opcode).toList :=
        not_mem_hexadecimal (by decide) (by decide) _
      have operand' : ';' ∉ operand.text.toList := by
        rcases h.2.text_cases with marker | decimal
        · rw [marker]
          decide
        · intro mem
          exact absurd ((isDecimal_iff.mp decimal).2 _ mem) (by decide)
      simp [text, opcode, operand']
  | halt => decide
  | unknown name =>
      rw [text]
      decide

/-- The text of a code is its words with a space between them. -/
theorem Code.WellFormed.intercalate_words {code : Code} (h : code.WellFormed) :
    " ".intercalate (words code.text) = code.text := by
  cases code with
  | encoded op operand =>
      rw [text, words_pair (isWord_hexadecimal_opcode op) h.2.isWord_text]
      rfl
  | halt => decide
  | unknown name =>
      rw [text]
      decide

namespace Entry

variable {e : Entry}

/-- Before the semicolon there are digits, spaces and the code. -/
theorem not_mem_front {c : Char} (plain : c ∉ ' ' :: upperDigits) (code : c ∉ e.code.text.toList) :
    c ∉ e.front.toList := by
  obtain ⟨space, digit⟩ := List.ne_and_not_mem_of_not_mem_cons plain
  obtain ⟨fill, fills, padded⟩ := exists_padRight 24 e.code.text
  have address := not_mem_hexadecimal digit (show 0 < 4 by decide) e.address
  have padding : c ∉ fill.toList := fun mem => space (fills.only c mem)
  simp [front, padded, address, code, padding, space]

/-- Behind it there are a word, spaces and digits. -/
theorem not_mem_behind {c : Char} (word : c ∉ " line ".toList) (digit : isDigit c = false) :
    c ∉ e.behind.toList := by
  rw [behind, String.toList_append, List.mem_append]
  rintro (mem | mem)
  · exact word mem
  · have number := (isDecimal_iff.mp (isDecimal_repr e.loc.line)).2 c mem
    exact Bool.false_ne_true (digit.symm.trans number)

theorem semicolon_not_mem_front (h : e.code.WellFormed) : ';' ∉ e.front.toList :=
  not_mem_front (by decide) h.semicolon_not_mem_text

theorem semicolon_not_mem_behind : ';' ∉ e.behind.toList := not_mem_behind (by decide) rfl

/-- An annotated line holds one semicolon, whatever the code is. -/
theorem count_semicolon_annotatedText (h : e.code.WellFormed) :
    e.annotatedText.toList.count ';' = 1 := by
  rw [toList_annotatedText, List.count_append, List.count_cons_self,
    List.count_eq_zero_of_not_mem (semicolon_not_mem_front h),
    List.count_eq_zero_of_not_mem semicolon_not_mem_behind]

theorem newline_not_mem_annotatedText (h : e.code.WellFormed) :
    '\n' ∉ e.annotatedText.toList := by
  rw [toList_annotatedText, List.mem_append, List.mem_cons, not_or, not_or]
  exact ⟨not_mem_front (by decide) h.newline_not_mem_text, by decide,
    not_mem_behind (by decide) rfl⟩

/-- Before the semicolon the words of the code stand behind the address. -/
theorem words_front (e : Entry) :
    words e.front = hexadecimal 4 e.address :: words e.code.text := by
  have spelled : e.front =
      hexadecimal 4 e.address ++ " " ++ (" " ++ padRight 24 e.code.text ++ "") := by
    rw [← String.toList_inj]
    simp [front]
  have behind : AllBlank "" := by simp [AllBlank]
  rw [spelled, words_append_space, (isWord_hexadecimal (by decide) e.address).words_eq,
    words_append_of_allBlank allBlank_space behind, words_padRight, List.singleton_append]

theorem words_behind (e : Entry) : words e.behind = ["line", e.loc.line.repr] := by
  have spelled : e.behind = "" ++ " " ++ ("line" ++ " " ++ e.loc.line.repr) := by
    rw [← String.toList_inj]
    simp [behind]
  rw [spelled, words_append_space, words_pair (by decide) (isWord_of_isDecimal (isDecimal_repr _))]
  rfl

end Entry

/-- An annotated line says what its entry says.  This holds at all addresses and
for operands of all lengths. -/
theorem readAnnotation?_annotatedText {e : Entry} (h : e.code.WellFormed) :
    readAnnotation? e.annotatedText = some e.annotation := by
  have cut : pieces (· == ';') e.annotatedText.toList = [e.front.toList, e.behind.toList] := by
    have keep : ∀ {cs : List Char}, ';' ∉ cs → ∀ c ∈ cs, (c == ';') = false := by
      intro cs absent c hc
      rw [beq_eq_false_iff_ne]
      rintro rfl
      exact absent hc
    rw [Entry.toList_annotatedText, pieces_append_sep (by decide),
      pieces_eq_singleton (keep (Entry.semicolon_not_mem_front h)),
      pieces_eq_singleton (keep Entry.semicolon_not_mem_behind)]
    rfl
  have decimal : Nat.ofDigitChars 10 e.loc.line.repr.toList 0 = e.loc.line := by
    rw [Nat.toList_repr, Nat.ofDigitChars_ten_toDigits]
  have value := (spellsHex_hexadecimal (show 0 < 4 by decide) e.address).value
  rw [readAnnotation?, cut]
  simp only [List.map_cons, List.map_nil, String.ofList_toList, Entry.words_front,
    Entry.words_behind, h.intercalate_words, decimal, value, Entry.annotation]

example : readAnnotation? "1ABCD  01 0000000000000000000000; line 109804" =
    some ⟨0x1ABCD, "01 0000000000000000000000", 109804⟩ := by
  decide

theorem mapM_readAnnotation? {es : List Entry} (h : ∀ e ∈ es, e.code.WellFormed) :
    (es.map Entry.annotatedText).mapM readAnnotation? = some (es.map Entry.annotation) := by
  induction es with
  | nil => rfl
  | cons e es ih =>
      obtain ⟨wellFormed, h⟩ := List.forall_mem_cons.mp h
      rw [List.map_cons, List.mapM_cons, readAnnotation?_annotatedText wellFormed, ih h]
      rfl

/-! ## The lines of the instructions -/

/-- An instruction stands on a line of the source, and has the number of that
line. -/
theorem exists_line_of_mem_instructions {source : String} {s : Located Instruction}
    (h : s ∈ instructions (statements (sourceLines source))) :
    ∃ ln ∈ sourceLines source, ⟨s.loc, .instruction s.value⟩ ∈ ln.statements ∧
      s.loc.line = ln.number := by
  obtain ⟨ln, hln, mem⟩ := List.mem_flatMap.mp (mem_instructions_iff.mp h)
  exact ⟨ln, hln, mem, line_of_mem_statements hln mem⟩

/-- No two instructions stand on one line, and those on later lines come later. -/
theorem instructions_line_increasing (source : String) :
    ((instructions (statements (sourceLines source))).map (·.loc.line)).Pairwise (· < ·) := by
  have locs : ((statements (sourceLines source)).filter (·.value.isInstruction)).Pairwise
      fun a b => a.loc.line < b.loc.line := by
    rw [statements, List.filter_flatMap, List.pairwise_flatMap]
    refine ⟨?_, (sourceLines_number source).imp_of_mem ?_⟩
    · intro ln _
      have one := ln.countP_isInstruction_le
      rw [List.countP_eq_length_filter] at one
      cases found : ln.statements.filter (·.value.isInstruction) with
      | nil => exact .nil
      | cons s ss =>
          rw [found, List.length_cons] at one
          obtain rfl := List.eq_nil_of_length_eq_zero (Nat.le_zero.mp (Nat.le_of_succ_le_succ one))
          exact List.pairwise_singleton _ _
    · intro a b ha hb before x hx y hy
      rwa [line_of_mem_statements ha (List.mem_of_mem_filter hx),
        line_of_mem_statements hb (List.mem_of_mem_filter hy)]
  have members := congrArg (List.map Location.line)
    (instructions_loc (statements (sourceLines source)))
  rw [List.map_map, List.map_map] at members
  exact members ▸ List.pairwise_map.mpr locs

/-! ## Annotated listings -/

theorem lines_annotated (source : String) : lines (assemble source).annotated =
    (assemble source).entries.map Entry.annotatedText ++ [""] := by
  rw [Listing.annotated, lines_unlines]
  intro line hline
  obtain ⟨e, he, rfl⟩ := List.mem_map.mp hline
  exact Entry.newline_not_mem_annotatedText (code_wellFormed_of_mem_entries he)

theorem length_entries_eq (source : String) : (assemble source).entries.length =
    (instructions (statements (sourceLines source))).length := by
  rw [assemble_entries, entries, List.length_map, List.length_zipIdx]

/-- The entry of an instruction has its position as the address. -/
theorem getElem?_entries (source : String) (i : Nat) : (assemble source).entries[i]? =
    (instructions (statements (sourceLines source)))[i]?.map fun s =>
      ⟨i, s.loc, s.value.encode (assemble source).symbols⟩ := by
  rw [assemble_entries, entries, List.getElem?_map, List.getElem?_zipIdx, Option.map_map,
    Nat.zero_add]
  rfl

theorem entries_line_increasing (source : String) :
    ((assemble source).entries.map (·.loc.line)).Pairwise (· < ·) := by
  have locs := (entries_loc (assemble source).symbols (statements (sourceLines source))).trans
    (instructions_loc _).symm
  have lineNumbers := congrArg (List.map Location.line) locs
  rw [← assemble_entries, List.map_map, List.map_map] at lineNumbers
  exact lineNumbers ▸ instructions_line_increasing source

/-- The annotations show wherever there is code. -/
theorem annotated_eq_text_iff (source : String) :
    (assemble source).annotated = (assemble source).text ↔ (assemble source).entries = [] := by
  constructor
  · intro same
    have rows := lines_annotated source
    rw [same, lines_text, List.append_cancel_right_eq] at rows
    cases entries : (assemble source).entries with
    | nil => rfl
    | cons e es =>
        have mem : e ∈ (assemble source).entries := by
          rw [entries]
          exact List.mem_cons_self
        have wellFormed := code_wellFormed_of_mem_entries mem
        have one := Entry.count_semicolon_annotatedText wellFormed
        rw [entries] at rows
        rw [← (List.cons.inj rows).1,
          List.count_eq_zero_of_not_mem wellFormed.semicolon_not_mem_text] at one
        cases one
  · intro none
    rw [Listing.annotated, Listing.text, none, List.map_nil, List.map_nil]

/-- The annotated text carries the listing.  It has a row for each instruction,
as the text has a line.  A row is the address in upper-case hexadecimal, the
line of the text and the number of the source line on which the instruction
stands.  It holds one semicolon, and the three are read back from it.  The codes
that are read back from all rows are the text, and the source lines increase.
The address has four digits or as many as it takes, and the code has spaces
behind it up to 24 characters. -/
theorem annotated_reads_back (source : String) :
    let listing := assemble source
    let insts := instructions (statements (sourceLines source))
    (∃ rows codes, lines listing.annotated = rows ++ [""] ∧ lines listing.text = codes ++ [""] ∧
      rows.length = insts.length ∧ codes.length = insts.length ∧
      (∀ i row code s, rows[i]? = some row → codes[i]? = some code → insts[i]? = some s →
        ∃ ln ∈ sourceLines source, ⟨s.loc, .instruction s.value⟩ ∈ ln.statements ∧
          row = hexadecimal 4 i ++ "  " ++ padRight 24 code ++ "; line " ++ ln.number.repr ∧
          row.toList.count ';' = 1 ∧ readAnnotation? row = some ⟨i, code, ln.number⟩) ∧
      ∃ annotations, rows.mapM readAnnotation? = some annotations ∧
        unlines (annotations.map (·.code)) = listing.text ∧
        (annotations.map (·.line)).Pairwise (· < ·)) ∧
    (∀ address, SpellsHex 4 address (hexadecimal 4 address)) ∧
    ∀ code, ∃ fill, Fills ' ' 24 code.length fill ∧ padRight 24 code = code ++ fill := by
  intro listing insts
  have wellFormed : ∀ e ∈ (assemble source).entries, e.code.WellFormed :=
    fun e => code_wellFormed_of_mem_entries
  refine ⟨⟨_, _, lines_annotated source, lines_text source, ?_, ?_, ?_, ?_⟩,
    spellsHex_hexadecimal (by decide), exists_padRight 24⟩
  · rw [List.length_map, length_entries_eq]
  · rw [List.length_map, length_entries_eq]
  · intro i row code s hrow hcode hs
    obtain ⟨ln, hln, mem, number⟩ := exists_line_of_mem_instructions (List.mem_of_getElem? hs)
    have entry := getElem?_entries source i
    rw [hs, Option.map_some] at entry
    rw [List.getElem?_map, entry, Option.map_some] at hrow hcode
    obtain rfl := Option.some.inj hrow
    obtain rfl := Option.some.inj hcode
    have h := wellFormed _ (List.mem_of_getElem? entry)
    refine ⟨ln, hln, mem, ?_, Entry.count_semicolon_annotatedText h, ?_⟩
    · rw [← number]
      rfl
    · rw [← number]
      exact readAnnotation?_annotatedText h
  · refine ⟨_, mapM_readAnnotation? wellFormed, ?_, ?_⟩
    · rw [List.map_map]
      rfl
    · rw [List.map_map]
      exact entries_line_increasing source

end TwoPass
