import TwoPass.Proofs.RoundTrip
import TwoPass.Proofs.Walk

/-!
# What a line means

Most of what a source holds does not reach its listing: where the statements
stand, the blank lines and comments, and a comment that stands where an operand
would.  `meaning` reads off the words of a line what is left, and a source means
what its lines mean, one after the other (`sourceMeaning`).

The text of a listing, the table and the severities of the diagnostics are the
same for two sources that mean the same (`assemble_eq_of_sourceMeaning_eq`).
Each of them is a function of the readings that skips what is not essential
(`Reading.essential?`).

A comment in place of an operand is looked up like any other word.  It is never
found, since no label starts like a comment (`get?_symbols_of_isComment`).  So
its instruction gets the marker that it gets without an operand.
-/

namespace TwoPass

/-! ## The meaning of a line -/

/-- The instruction without a comment in place of its operand. -/
def Instruction.bare (inst : Instruction) : Instruction :=
  { inst with operand := inst.operand.filter (! isComment ·) }

theorem Instruction.bare_of_isComment (name : String) {word : String}
    (h : isComment word = true) : bare ⟨name, some word⟩ = ⟨name, none⟩ := by
  rw [bare, Option.filter_some_neg (by simp [h])]

theorem Instruction.bare_of_not_isComment (name : String) {word : String}
    (h : isComment word = false) : bare ⟨name, some word⟩ = ⟨name, some word⟩ := by
  rw [bare, Option.filter_some_pos (by simp [h])]

/-- What is left of a reading. -/
def Reading.essential? (r : Reading) : Option Reading :=
  match r.statement with
  | .blank | .comment => none
  | .label _ => some r
  | .instruction inst => some { r with statement := .instruction inst.bare }

/-- What the words of a line mean. -/
def meaning : List String → List Reading
  | [] => []
  | word :: rest =>
      if isComment word then []
      else
        match beforeColon? word with
        | some name => ⟨.label name, 0⟩ :: meaning rest
        | none =>
            [⟨.instruction (Instruction.bare ⟨uppercase word, rest.head?⟩), surplus (word :: rest)⟩]

/-- What the lines of a source mean. -/
def sourceMeaning (source : String) : List Reading :=
  (lines source).flatMap fun line => meaning (words line)

section Meaning

variable {word name : String} {rest : List String}

theorem meaning_comment (h : isComment word = true) : meaning (word :: rest) = [] := by
  rw [meaning, if_pos h]

theorem meaning_label (comment : isComment word = false) (colon : beforeColon? word = some name) :
    meaning (word :: rest) = ⟨.label name, 0⟩ :: meaning rest := by
  simp [meaning, comment, colon]

theorem meaning_instruction (comment : isComment word = false) (colon : beforeColon? word = none) :
    meaning (word :: rest) =
      [⟨.instruction (Instruction.bare ⟨uppercase word, rest.head?⟩), surplus (word :: rest)⟩] := by
  simp [meaning, comment, colon]

end Meaning

/-- A line means what is left of its readings. -/
theorem Line.readings_essential (ln : Line) :
    (ln.readings.map (·.value)).filterMap Reading.essential? = meaning (ln.tokens.map (·.value)) := by
  obtain ⟨n, ts⟩ := ln
  induction ts with
  | nil => rfl
  | cons t ts ih =>
      cases h : isLabel t.value with
      | true =>
          obtain ⟨comment, name, colon⟩ := isLabel_iff.mp h
          have label : (Reading.ofWords [t.value]).essential? = some ⟨.label name, 0⟩ := by
            simp [Reading.ofWords, Statement.ofWords, comment, colon, Reading.essential?, surplus]
          rw [List.map_cons, meaning_label comment colon]
          cases ts with
          | nil =>
              rw [readings_label h]
              simp [label, meaning]
          | cons u ts =>
              rw [readings_label_cons h, List.map_cons, Located.replace_value,
                List.filterMap_cons_some label, ih]
      | false =>
          rw [readings_body h, List.map_cons, List.map_nil, List.map_cons]
          cases comment : isComment t.value with
          | true =>
              rw [meaning_comment comment]
              simp [Reading.ofWords, Statement.ofWords, comment, Reading.essential?]
          | false =>
              have colon := beforeColon?_eq_none comment h
              rw [meaning_instruction comment colon]
              simp [Reading.ofWords, Statement.ofWords, comment, colon, Reading.essential?]

theorem readings_essential (source : String) :
    ((readings (sourceLines source)).map (·.value)).filterMap Reading.essential? =
      sourceMeaning source := by
  have numbered := List.flatMap_map (l := (lines source).zipIdx 1) (f := Prod.fst)
    (g := fun line => meaning (words line))
  rw [List.zipIdx_map_fst] at numbered
  rw [sourceMeaning, numbered, readings, List.map_flatMap, List.filterMap_flatMap, sourceLines,
    List.flatMap_map]
  simp only [Line.readings_essential, tokens_value]

/-! ## Labels are no comments -/

/-- What is left of a word without its colon starts like the word. -/
theorem isComment_of_beforeColon? {word name : String} (comment : isComment word = false)
    (colon : beforeColon? word = some name) : isComment name = false := by
  rw [beforeColon?] at colon
  split at colon
  next =>
    obtain rfl := Option.some.inj colon
    rw [isComment, String.toList_ofList, List.head?_dropLast]
    split
    next => exact comment
    next => rfl
  next => cases colon

/-- No label starts like a comment. -/
theorem get?_symbols_of_isComment (source : String) {word : String}
    (comment : isComment word = true) : (assemble source).symbols.get? word = none := by
  cases bound : (assemble source).symbols.get? word with
  | none => rfl
  | some address =>
      obtain ⟨line, -, whole, -, plain, colon⟩ := exists_word_of_get?_symbols bound
      rw [isComment_of_beforeColon? plain colon] at comment
      cases comment

/-! ## What depends on the meaning -/

theorem isDecimal_of_isComment {word : String} (h : isComment word = true) :
    isDecimal word = false := by
  rw [← Bool.not_eq_true, isDecimal_iff]
  rintro ⟨-, digits⟩
  have semicolon : ';' ∈ word.toList := List.mem_of_head? (by simpa [isComment] using h)
  exact absurd (digits _ semicolon) (by decide)

variable {symbols : SymbolTable}

/-- Without a comment in place of its operand an instruction has the same code,
unless the comment is what could not be resolved. -/
theorem Instruction.encode_bare_cases
    (comments : ∀ word, isComment word = true → symbols.get? word = none) (inst : Instruction) :
    inst.bare.encode symbols = inst.encode symbols ∨
      ∃ op word, inst.encode symbols = .encoded op (.unresolved (some word)) ∧
        inst.bare.encode symbols = .encoded op (.unresolved none) := by
  obtain ⟨name, operand⟩ := inst
  cases operand with
  | none => exact Or.inl rfl
  | some word =>
      cases comment : isComment word with
      | false => exact Or.inl (by rw [bare_of_not_isComment name comment])
      | true =>
          rw [bare_of_isComment name comment]
          simp only [encode]
          cases Operation.ofName? name with
          | none => exact Or.inl rfl
          | some op =>
              cases harity : op.arity with
              | nullary => exact Or.inl (by simp [harity])
              | address =>
                  refine Or.inr ⟨op, word, ?_, ?_⟩
                  · simp [harity, Operand.resolve, isDecimal_of_isComment comment,
                      comments word comment]
                  · simp [harity, Operand.resolve]

/-- The line of a reading in the listing. -/
def Reading.text? (symbols : SymbolTable) (r : Reading) : Option String :=
  r.statement.instruction?.map fun inst => (inst.encode symbols).text

theorem Reading.text?_essential
    (comments : ∀ word, isComment word = true → symbols.get? word = none) (r : Reading) :
    (r.essential?.bind fun e => e.text? symbols) = r.text? symbols := by
  obtain ⟨statement, ignored⟩ := r
  cases statement with
  | blank => rfl
  | comment => rfl
  | label name => rfl
  | instruction inst =>
      -- Whether the comment or nothing could not be resolved, the marker is the same.
      have same : (inst.bare.encode symbols).text = (inst.encode symbols).text := by
        rcases inst.encode_bare_cases comments with same | ⟨op, word, full, bare⟩
        · rw [same]
        · rw [full, bare]
          rfl
      exact congrArg some same

/-- The text of a listing is read off the meaning of its source. -/
theorem text_eq_sourceMeaning (source : String) :
    (assemble source).text =
      unlines ((sourceMeaning source).filterMap fun r => r.text? (assemble source).symbols) := by
  have comments : ∀ word, isComment word = true → (assemble source).symbols.get? word = none :=
    fun _ => get?_symbols_of_isComment source
  rw [text_eq, ← readings_statement, ← readings_essential, List.filterMap_filterMap, List.map_map,
    List.map_filterMap, List.filterMap_map, List.filterMap_map]
  congr 2
  funext r
  exact (r.value.text?_essential comments).symm

namespace Walk

/-- Pass some readings. -/
def pass (w : Walk) (rs : List Reading) : Walk := rs.foldl (fun w r => w.step r.statement) w

theorem pass_essential (w : Walk) (rs : List Reading) :
    w.pass (rs.filterMap Reading.essential?) = w.pass rs := by
  induction rs generalizing w with
  | nil => rfl
  | cons r rs ih =>
      obtain ⟨statement, ignored⟩ := r
      cases statement with
      | blank => exact ih w
      | comment => exact ih w
      | label name => exact ih _
      | instruction inst => exact ih _

/-- A label has the address at which a walk defined it last. -/
theorem lookup_pass_sourceMeaning (source label : String) :
    ((pass {} (sourceMeaning source)).defined).lookup label =
      (assemble source).symbols.get? label := by
  have follows := Follows.empty.foldl (statements (sourceLines source))
  have values : (statements (sourceLines source)).map (·.value) =
      ((readings (sourceLines source)).map (·.value)).map Reading.statement := by
    rw [← TwoPass.readings_statement, List.map_map, List.map_map]
    rfl
  rw [values, List.foldl_map] at follows
  rw [← readings_essential, pass_essential, assemble_symbols]
  exact follows.defined label

/-- The severities of what a walk says. -/
def severities (symbols : SymbolTable) : Walk → List Reading → List Severity
  | _, [] => []
  | w, r :: rs =>
      (w.remarks symbols r).map Diagnostic.severity ++ severities symbols (w.step r.statement) rs

theorem severities_walk (w : Walk) (rs : List (Located Reading)) :
    (walk symbols w rs).map (·.value.severity) = severities symbols w (rs.map (·.value)) := by
  induction rs generalizing w with
  | nil => rfl
  | cons r rs ih =>
      rw [walk, List.map_append, ih, List.map_map]
      rfl

/-- A comment in place of an operand does not change how bad an instruction is. -/
theorem severity_remarks_bare
    (comments : ∀ word, isComment word = true → symbols.get? word = none) (w : Walk)
    (inst : Instruction) (ignored : Nat) :
    (w.remarks symbols ⟨.instruction inst.bare, ignored⟩).map Diagnostic.severity =
      (w.remarks symbols ⟨.instruction inst, ignored⟩).map Diagnostic.severity := by
  have warning : (Reading.mk (.instruction inst.bare) ignored).warning? =
      (Reading.mk (.instruction inst) ignored).warning? := by
    cases ignored <;> rfl
  rw [remarks, remarks, List.map_append, List.map_append, warning]
  rcases inst.encode_bare_cases comments with same | ⟨op, word, full, bare⟩
  · rw [same]
  · rw [full, bare]
    rfl

theorem severities_essential
    (comments : ∀ word, isComment word = true → symbols.get? word = none) (w : Walk)
    (rs : List Reading) :
    severities symbols w (rs.filterMap Reading.essential?) = severities symbols w rs := by
  induction rs generalizing w with
  | nil => rfl
  | cons r rs ih =>
      obtain ⟨statement, ignored⟩ := r
      cases statement with
      | blank => exact ih w
      | comment => exact ih w
      | label name =>
          have kept : (Reading.mk (.label name) ignored).essential? =
              some ⟨.label name, ignored⟩ := rfl
          rw [List.filterMap_cons_some kept, severities, severities, ih]
      | instruction inst =>
          have kept : (Reading.mk (.instruction inst) ignored).essential? =
              some ⟨.instruction inst.bare, ignored⟩ := rfl
          rw [List.filterMap_cons_some kept, severities, severities, ih,
            severity_remarks_bare comments]
          rfl

end Walk

/-- The severities of the diagnostics are read off the meaning of a source. -/
theorem severities_eq_sourceMeaning (source : String) :
    (assemble source).diagnostics.map (·.value.severity) =
      Walk.severities (assemble source).symbols {} (sourceMeaning source) := by
  rw [assemble_diagnostics_eq_walk, Walk.severities_walk, ← readings_essential,
    Walk.severities_essential fun _ => get?_symbols_of_isComment source]

theorem hasErrors_eq_any_severity (l : Listing) :
    l.hasErrors = (l.diagnostics.map (·.value.severity)).any (· == .error) := by
  rw [Listing.hasErrors, List.any_map]
  rfl

/-- Sources that mean the same have the same text, the same table, and
diagnostics of the same severities. -/
theorem assemble_eq_of_sourceMeaning_eq {source other : String}
    (h : sourceMeaning source = sourceMeaning other) :
    (assemble source).text = (assemble other).text ∧
      (assemble source).symbols = (assemble other).symbols ∧
      (assemble source).diagnostics.map (·.value.severity) =
        (assemble other).diagnostics.map (·.value.severity) := by
  have table : (assemble source).symbols = (assemble other).symbols := by
    apply SymbolTable.ext
    intro label
    rw [← Walk.lookup_pass_sourceMeaning, ← Walk.lookup_pass_sourceMeaning, h]
  refine ⟨?_, table, ?_⟩
  · rw [text_eq_sourceMeaning, text_eq_sourceMeaning, h, table]
  · rw [severities_eq_sourceMeaning, severities_eq_sourceMeaning, h, table]

end TwoPass
