import TwoPass.Proofs.Agreement
import TwoPass.Proofs.Bindings
import TwoPass.Proofs.SourceGrammar

/-!
# The report on a symbol table

The report has a line for each label, in the order of `ReportedBefore`.  The
label stands in front and is filled up to the width of the longest one.  That
width counts bytes, and what is filled up counts characters.  A label has at
most as many characters as bytes, so all of them fit, and the addresses stand in
one column (`IsSymbolLine`).

A label holds no blank (`not_blank_of_get?_symbols`), whatever else it holds.
So the words of a line are the label, unless it is empty, and the address twice,
and the line can be read back (`readSymbolLine?_symbolLine`).  Hence the report
tells the table (`symbolsText_inj`).
-/

namespace TwoPass

/-! ## Labels -/

/-- No label holds a blank. -/
theorem not_blank_of_get?_symbols {source label : String} {address : Nat}
    (h : (assemble source).symbols.get? label = some address) :
    ∀ c ∈ label.toList, isBlank c = false := by
  obtain ⟨line, -, word, hword, -, colon⟩ := exists_word_of_get?_symbols h
  have word_eq := beforeColon?_eq_some_iff.mp colon
  intro c hc
  refine (isWord_of_mem_words hword).not_blank c ?_
  rw [word_eq, String.toList_append]
  exact List.mem_append_left _ hc

/-! ## The width -/

namespace SymbolTable

/-- The bytes of the longest label. -/
def width (t : SymbolTable) : Nat := (t.sorted.map (·.1.utf8ByteSize)).max?.getD 0

theorem le_width {t : SymbolTable} {label : String} {address : Nat}
    (h : t.get? label = some address) : label.utf8ByteSize ≤ t.width :=
  List.le_max?_getD_of_mem (List.mem_map_of_mem (f := fun b : String × Nat => b.1.utf8ByteSize)
    ((t.lists_sorted.mem_iff label address).mpr h))

theorem exists_width {t : SymbolTable} (h : t.size ≠ 0) :
    ∃ label address, t.get? label = some address ∧ label.utf8ByteSize = t.width := by
  have ne_nil : t.sorted.map (·.1.utf8ByteSize) ≠ [] := by
    intro none
    rw [← t.length_sorted, ← List.length_map, none] at h
    exact h rfl
  obtain ⟨size, longest⟩ := Option.ne_none_iff_exists'.mp (mt List.max?_eq_none_iff.mp ne_nil)
  obtain ⟨⟨label, address⟩, mem, rfl⟩ := List.mem_map.mp (List.max?_mem longest)
  refine ⟨label, address, (t.lists_sorted.mem_iff label address).mp mem, ?_⟩
  rw [width, longest, Option.getD_some]

end SymbolTable

/-! ## One line -/

/-- What a line of a symbol report says. -/
structure SymbolRow where
  /-- The label. -/
  label : String
  /-- The address that the hexadecimal numeral spells. -/
  hexadecimal : Nat
  /-- The address that the decimal numeral in brackets spells. -/
  decimal : Nat
deriving DecidableEq, Repr

/-- The number that a word spells between its first character and its last. -/
def bracketedValue (word : String) : Nat := Nat.ofDigitChars 10 word.toList.tail.dropLast 0

/-- Read a line of a symbol report.  Without a label there are only the two
addresses. -/
def readSymbolLine? (line : String) : Option SymbolRow :=
  match words line with
  | [hex, decimal] => some ⟨"", hexValue hex.toList, bracketedValue decimal⟩
  | [label, hex, decimal] => some ⟨label, hexValue hex.toList, bracketedValue decimal⟩
  | _ => none

/-- The numeral of an address in brackets. -/
def bracketed (address : Nat) : String := "(" ++ address.repr ++ ")"

theorem isWord_bracketed (address : Nat) : IsWord (bracketed address) := by
  have number := isWord_of_isDecimal (isDecimal_repr address)
  refine ⟨by simp [bracketed], ?_⟩
  intro c hc
  simp only [bracketed, String.toList_append, List.mem_append] at hc
  rcases hc with (bracket | digit) | bracket
  · rw [List.mem_singleton.mp bracket]
    decide
  · exact number.not_blank c digit
  · rw [List.mem_singleton.mp bracket]
    decide

theorem bracketedValue_bracketed (address : Nat) : bracketedValue (bracketed address) = address := by
  have digits : (bracketed address).toList.tail.dropLast = address.repr.toList := by
    simp [bracketed]
  rw [bracketedValue, digits, Nat.toList_repr, Nat.ofDigitChars_ten_toDigits]

section Line

variable {width : Nat} {b : String × Nat}

theorem words_symbolLine (plain : ∀ c ∈ b.1.toList, isBlank c = false) :
    words (symbolLine width b) =
      (if b.1 = "" then [] else [b.1]) ++ [hexadecimal 4 b.2, bracketed b.2] := by
  have spelled : symbolLine width b = padRight width b.1 ++ " " ++
      (" " ++ hexadecimal 4 b.2 ++ " ") ++ " " ++ bracketed b.2 := by
    rw [← String.toList_inj]
    simp [symbolLine, bracketed]
  rw [spelled, words_append_space, words_append_space, words_padRight, words_eq_of_not_blank plain,
    words_append_of_allBlank allBlank_space allBlank_space,
    (isWord_hexadecimal (by decide) b.2).words_eq, (isWord_bracketed b.2).words_eq,
    List.append_assoc, List.singleton_append]

/-- A line is read back, whatever its width. -/
theorem readSymbolLine?_symbolLine (plain : ∀ c ∈ b.1.toList, isBlank c = false) :
    readSymbolLine? (symbolLine width b) = some ⟨b.1, b.2, b.2⟩ := by
  have value := (spellsHex_hexadecimal (show 0 < 4 by decide) b.2).value
  rw [readSymbolLine?, words_symbolLine plain]
  split_ifs with empty
  · simp [value, bracketedValue_bracketed, empty]
  · simp [value, bracketedValue_bracketed]

example : readSymbolLine? (symbolLine 6 ("ä(1)", 255)) = some ⟨"ä(1)", 255, 255⟩ := by decide

theorem newline_not_mem_symbolLine (plain : ∀ c ∈ b.1.toList, isBlank c = false) :
    '\n' ∉ (symbolLine width b).toList := by
  have label : '\n' ∉ b.1.toList := by
    intro mem
    exact absurd (plain _ mem) (by decide)
  have address := (isWord_hexadecimal (show 0 < 4 by decide) b.2).newline_not_mem
  have number := (isWord_of_isDecimal (isDecimal_repr b.2)).newline_not_mem
  rw [Nat.toList_repr] at number
  obtain ⟨fill, fills, padded⟩ := exists_padRight width b.1
  have padding : '\n' ∉ fill.toList := fun mem => absurd (fills.only _ mem) (by decide)
  simp [symbolLine, padded, label, address, number, padding]

/-- A line of a report on labels of at most `width` bytes. -/
structure IsSymbolLine (width : Nat) (b : String × Nat) (line : String) : Prop where
  /-- The label stands in front, with spaces behind it. -/
  label : line.toList.take (width + 2) =
    b.1.toList ++ List.replicate (width + 2 - b.1.length) ' '
  /-- The address starts two columns behind the longest label. -/
  address : line.toList.drop (width + 2) =
    (hexadecimal 4 b.2 ++ "  (" ++ b.2.repr ++ ")").toList
  /-- The label and both numerals of the address are read back. -/
  reads : readSymbolLine? line = some ⟨b.1, b.2, b.2⟩

theorem isSymbolLine_symbolLine (fits : b.1.utf8ByteSize ≤ width)
    (plain : ∀ c ∈ b.1.toList, isBlank c = false) :
    IsSymbolLine width b (symbolLine width b) := by
  have short : b.1.length ≤ width := Nat.le_trans (length_le_utf8ByteSize b.1) fits
  have front : (b.1.toList ++ List.replicate (width + 2 - b.1.length) ' ').length = width + 2 := by
    rw [List.length_append, List.length_replicate, String.length_toList]
    omega
  have cut : (symbolLine width b).toList =
      (b.1.toList ++ List.replicate (width + 2 - b.1.length) ' ') ++
        (hexadecimal 4 b.2 ++ "  (" ++ b.2.repr ++ ")").toList := by
    obtain ⟨fill, fills, padded⟩ := exists_padRight width b.1
    rw [symbolLine, padded, fills_iff.mp fills, Nat.sub_add_comm short, List.replicate_add]
    simp
  refine ⟨?_, ?_, readSymbolLine?_symbolLine plain⟩
  · rw [cut, List.take_left' front]
  · rw [cut, List.drop_left' front]

end Line

/-! ## The report -/

section Report

variable {t u : SymbolTable}

/-- No label of a table holds a blank. -/
def SymbolTable.Plain (t : SymbolTable) : Prop :=
  ∀ label address, t.get? label = some address → ∀ c ∈ label.toList, isBlank c = false

theorem plain_symbols (source : String) : (assemble source).symbols.Plain :=
  fun _ _ => not_blank_of_get?_symbols

/-- The lines of a report. -/
def SymbolTable.reportLines (t : SymbolTable) : List String := t.sorted.map (symbolLine t.width)

theorem symbolsText_eq (t : SymbolTable) : symbolsText t = unlines t.reportLines := rfl

theorem lines_symbolsText (plain : t.Plain) : lines (symbolsText t) = t.reportLines ++ [""] := by
  rw [symbolsText_eq, lines_unlines]
  intro line hline
  obtain ⟨⟨label, address⟩, mem, rfl⟩ := List.mem_map.mp hline
  exact newline_not_mem_symbolLine (plain label address ((t.lists_sorted.mem_iff _ _).mp mem))

theorem forall₂_isSymbolLine (plain : t.Plain) :
    List.Forall₂ (IsSymbolLine t.width) t.sorted t.reportLines := by
  rw [SymbolTable.reportLines, List.forall₂_map_right_iff, List.forall₂_same]
  rintro ⟨label, address⟩ mem
  have bound := (t.lists_sorted.mem_iff label address).mp mem
  exact isSymbolLine_symbolLine (SymbolTable.le_width bound) (plain label address bound)

theorem mapM_readSymbolLine? {bindings : List (String × Nat)} {rows : List String} {width : Nat}
    (h : List.Forall₂ (IsSymbolLine width) bindings rows) :
    rows.mapM readSymbolLine? = some (bindings.map fun b => ⟨b.1, b.2, b.2⟩) := by
  induction h with
  | nil => rfl
  | cons first _ ih =>
      rw [List.mapM_cons, first.reads, ih]
      rfl

/-- The report tells the table. -/
theorem symbolsText_inj (ht : t.Plain) (hu : u.Plain) : symbolsText t = symbolsText u ↔ t = u := by
  refine ⟨fun same => ?_, fun same => by rw [same]⟩
  have rows := lines_symbolsText ht
  rw [same, lines_symbolsText hu, List.append_cancel_right_eq] at rows
  have readings := mapM_readSymbolLine? (forall₂_isSymbolLine ht)
  rw [← rows, mapM_readSymbolLine? (forall₂_isSymbolLine hu), Option.some.injEq] at readings
  have bindings := congrArg (List.map fun r : SymbolRow => (r.label, r.decimal)) readings
  simp only [List.map_map, Function.comp_def, List.map_id'] at bindings
  refine SymbolTable.ext fun label => Option.ext fun address => ?_
  rw [← t.lists_sorted.mem_iff, ← u.lists_sorted.mem_iff, bindings]

end Report

/-! ## The command -/

section Command

variable {w : Workspace} {input : String}

theorem run_symbols_of_text {source : String} (readable : w.text? input = some source)
    {program : Program} {arguments : List String}
    (asked : Request.ofArguments program arguments = .command (.symbols input)) :
    w.run (program.run arguments) =
      ({ output := symbolsText (assemble source).symbols }, w) := by
  rw [run_of_ofArguments asked, Command.run, run_withListing_of_text readable]
  rfl

/-- What a report says of a table.  It has a line for each label, by the address
and then by the bytes of the label.  The labels hold no blank.  They stand in a
column that is as wide as the longest of them has bytes, the addresses stand
behind it, and each line is read back. -/
structure SymbolTable.Reports (t : SymbolTable) (report : String) : Prop where
  /-- The labels hold no blank. -/
  plain : t.Plain
  /-- The lines are those of the bindings in order. -/
  rows : ∃ width rows bindings, lines report = rows ++ [""] ∧ rows.length = t.size ∧
    t.Lists bindings ∧ bindings.Pairwise ReportedBefore ∧
    List.Forall₂ (IsSymbolLine width) bindings rows ∧
    (∀ label address, t.get? label = some address → label.utf8ByteSize ≤ width) ∧
    (t.size ≠ 0 → ∃ label address, t.get? label = some address ∧ label.utf8ByteSize = width)

theorem reports_symbolsText {t : SymbolTable} (plain : t.Plain) : t.Reports (symbolsText t) := by
  refine ⟨plain, t.width, t.reportLines, t.sorted, lines_symbolsText plain, ?_, t.lists_sorted,
    t.sorted_ordered, forall₂_isSymbolLine plain, fun _ _ => SymbolTable.le_width,
    SymbolTable.exists_width⟩
  rw [SymbolTable.reportLines, List.length_map, SymbolTable.length_sorted]

/-- On a readable input the command prints the report on the symbol table of the
source, says nothing else and changes nothing.  Two sources, each in its own
workspace, have the same report if and only if they have the same table. -/
theorem symbols_reported (w : Workspace) (input : String) :
    (∀ words, NamesInput input words →
      Request.ofArguments .tpasm ("symbols" :: words) = .command (.symbols input)) ∧
    ∀ source, w.text? input = some source →
      ∃ report, (assemble source).symbols.Reports report ∧
        (∀ program arguments, Request.ofArguments program arguments = .command (.symbols input) →
          w.run (program.run arguments) = ({ output := report }, w)) ∧
        ∀ (w' : Workspace) (input' source' : String), w'.text? input' = some source' →
          ∀ program arguments, Request.ofArguments program arguments = .command (.symbols input') →
            ((w'.run (program.run arguments)).1.output = report ↔
              (assemble source').symbols = (assemble source).symbols) := by
  refine ⟨fun words names => ofArguments_symbols names, fun source readable =>
    ⟨symbolsText (assemble source).symbols, reports_symbolsText (plain_symbols source),
      fun program arguments asked => run_symbols_of_text readable asked, ?_⟩⟩
  intro w' input' source' readable' program arguments asked
  rw [run_symbols_of_text readable' asked]
  exact symbolsText_inj (plain_symbols source') (plain_symbols source)

end Command

end TwoPass
