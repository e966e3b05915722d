import Mathlib.Data.List.Forall2
import TwoPass.Proofs.Addresses
import TwoPass.Proofs.Codes

/-!
# Markers and errors

The text of a listing and its diagnostics are made apart, but they tell of the
same instructions.  An entry has a marker if and only if there is an error at
its place, and the error says what the marker stands for (`Diagnostic.Explains`).

Sorting does not disturb this.  The errors come in the order of the entries, so
they are sorted among themselves, and a stable sort keeps the order of what is
sorted already (`filter_sortDiagnostics`).
-/

namespace TwoPass

/-! ## One instruction -/

/-- A code belongs to the instruction of this name. -/
def Code.NamedBy (name : String) : Code → Prop
  | .encoded op _ => op.name = name
  | .halt => Operation.halt.name = name
  | .unknown asked => asked = name

theorem Instruction.encode_namedBy (symbols : SymbolTable) (inst : Instruction) :
    (inst.encode symbols).NamedBy inst.name := by
  rw [Instruction.encode]
  split
  next => rfl
  next op hop =>
    have name := Operation.ofName?_eq_some_iff.mp hop
    split
    next nullary =>
      rw [Operation.arity_eq_nullary_iff.mp nullary] at name
      exact name
    next => exact name

/-- An error says why the code of the instruction `name` has a marker. -/
inductive Diagnostic.Explains (name : String) : Diagnostic → Code → Prop
  /-- No operation has the name. -/
  | unknown : Explains name (.unknownInstruction name) (.unknown name)
  /-- There is no operand. -/
  | missing {op : Operation} (h : op.name = name) :
      Explains name (.missingOperand name) (.encoded op (.unresolved none))
  /-- The operand is neither a numeral nor a label. -/
  | unresolved {op : Operation} (h : op.name = name) (symbol : String) :
      Explains name (.unresolvedSymbol symbol) (.encoded op (.unresolved (some symbol)))

theorem isMarked_encoded_unresolved (op : Operation) (symbol : Option String) :
    isMarked (Code.encoded op (.unresolved symbol)).text = true := by
  rw [isMarked_iff, Code.text, Operand.text, String.toList_append]
  exact List.infix_append_right

theorem isMarked_encoded_decimal (op : Operation) {operand : Operand}
    (h : isDecimal operand.text = true) : isMarked (Code.encoded op operand).text = false := by
  have opcode : '?' ∉ (hexadecimal 2 op.opcode).toList :=
    not_mem_hexadecimal (by decide) (by decide) _
  have digits : '?' ∉ operand.text.toList := by
    intro hmem
    exact absurd ((isDecimal_iff.mp h).2 _ hmem) (by decide)
  apply isMarked_eq_false
  simp [Code.text, opcode, digits]

/-- A code has a marker and an error that explains it, or neither. -/
theorem Code.WellFormed.problem?_cases {code : Code} {name : String} (h : code.WellFormed)
    (named : code.NamedBy name) :
    (code.problem? = none ∧ isMarked code.text = false) ∨
      ∃ d, code.problem? = some d ∧ isMarked code.text = true ∧ d.Explains name code := by
  cases code with
  | encoded op operand =>
      cases operand with
      | literal numeral => exact Or.inl ⟨rfl, isMarked_encoded_decimal op h.2⟩
      | label label address =>
          exact Or.inl ⟨rfl, isMarked_encoded_decimal op (isDecimal_repr address)⟩
      | unresolved symbol =>
          have marked := isMarked_encoded_unresolved op symbol
          have same : op.name = name := named
          cases symbol with
          | none => exact Or.inr ⟨_, rfl, marked, same ▸ .missing rfl⟩
          | some symbol => exact Or.inr ⟨_, rfl, marked, .unresolved same symbol⟩
  | halt => exact Or.inl ⟨rfl, isMarked_eq_false (by decide)⟩
  | unknown asked =>
      obtain rfl : asked = name := named
      refine Or.inr ⟨_, rfl, isMarked_iff.mpr ?_, .unknown⟩
      rw [Code.text]
      decide

/-! ## All instructions -/

/-- The entry of an instruction at one of some tokens. -/
def Entry.StandsAt (ts : List Token) (e : Entry) : Prop :=
  ∃ t ∈ ts, t.loc = e.loc ∧ e.code.NamedBy (uppercase t.value)

/-- The tokens of a source. -/
def sourceTokens (source : String) : List Token := (sourceLines source).flatMap (·.tokens)

theorem standsAt_of_mem_entries {source : String} {e : Entry}
    (h : e ∈ (assemble source).entries) : e.StandsAt (sourceTokens source) := by
  rw [assemble_entries] at h
  obtain ⟨⟨inst, address⟩, hinst, rfl⟩ := List.mem_map.mp h
  have hs := mem_instructions_iff.mp (List.fst_mem_of_mem_zipIdx hinst)
  obtain ⟨ln, hln, hmem⟩ := List.mem_flatMap.mp hs
  obtain ⟨t, ht, hloc, hname⟩ := Line.instruction_token hmem rfl
  refine ⟨t, List.mem_flatMap.mpr ⟨ln, hln, ht⟩, hloc, ?_⟩
  rw [← hname]
  exact inst.value.encode_namedBy _

/-- The errors of some entries, one for each marker and in their order. -/
theorem problems_forall₂ {es : List Entry} {ts : List Token}
    (h : ∀ e ∈ es, e.code.WellFormed ∧ e.StandsAt ts) :
    List.Forall₂ (fun d e => d.loc = e.loc ∧
        ∃ t ∈ ts, t.loc = e.loc ∧ d.value.Explains (uppercase t.value) e.code)
      (problems es) (es.filter (isMarked ·.code.text)) := by
  induction es with
  | nil => exact .nil
  | cons e es ih =>
      have rest := ih fun e' he' => h e' (List.mem_cons_of_mem _ he')
      obtain ⟨wellFormed, t, ht, hloc, named⟩ := h e List.mem_cons_self
      rcases wellFormed.problem?_cases named with ⟨none, unmarked⟩ | ⟨d, some, marked, explains⟩
      · rw [problems, List.filterMap_cons_none (by rw [none]; rfl),
          List.filter_cons_of_neg (by simp [unmarked])]
        exact rest
      · rw [problems, List.filterMap_cons_some (by rw [some]; rfl),
          List.filter_cons_of_pos (by exact marked)]
        exact .cons ⟨rfl, t, ht, hloc, explains⟩ rest

/-! ## The diagnostics of a listing -/

theorem isError_of_mem_surplusWarnings {ls : List Line} {d : Located Diagnostic}
    (h : d ∈ surplusWarnings ls) : d.value.isError = false := by
  obtain ⟨ln, -, hwarning⟩ := List.mem_filterMap.mp h
  simp only [Line.warning?, Option.bind_eq_bind, Option.bind_eq_some_iff] at hwarning
  obtain ⟨s, -, inst, -, hcount⟩ := hwarning
  split at hcount
  next => cases hcount
  next =>
    obtain rfl := Option.some.inj hcount
    rfl

theorem isError_of_warning? {b : Binding} {s : Located Statement} {d : Located Diagnostic}
    (h : b.warning? s = some d) : d.value.isError = false := by
  rw [Binding.warning?] at h
  split at h
  next =>
    obtain ⟨address, -, rfl⟩ := Option.map_eq_some_iff.mp h
    rfl
  next => cases h

theorem isError_of_mem_duplicateWarnings {ss : List (Located Statement)} {d : Located Diagnostic}
    (h : d ∈ duplicateWarnings ss) : d.value.isError = false := by
  have run : ∀ (ss : List (Located Statement)) {b : Binding},
      (∀ w ∈ b.warnings, w.value.isError = false) →
        ∀ w ∈ (ss.foldl Binding.step b).warnings, w.value.isError = false := by
    intro ss
    induction ss with
    | nil => exact fun hb => hb
    | cons s ss ih =>
        intro b hb
        refine ih ?_
        intro w hw
        rw [Binding.step_warnings, List.mem_append, Option.mem_toList] at hw
        rcases hw with hw | hw
        · exact isError_of_warning? hw
        · exact hb w hw
  exact run ss (by simp) d (List.mem_reverse.mp h)

theorem Code.isError_of_problem? {code : Code} {d : Diagnostic} (h : code.problem? = some d) :
    d.isError = true := by
  cases code with
  | encoded op operand =>
      cases operand with
      | literal numeral => cases h
      | label name address => cases h
      | unresolved symbol => cases symbol <;> cases h <;> rfl
  | halt => cases h
  | unknown name => cases h; rfl

theorem isError_of_mem_problems {es : List Entry} {d : Located Diagnostic} (h : d ∈ problems es) :
    d.value.isError = true := by
  obtain ⟨e, -, hproblem⟩ := List.mem_filterMap.mp h
  obtain ⟨value, hvalue, rfl⟩ := Option.map_eq_some_iff.mp hproblem
  exact Code.isError_of_problem? hvalue

/-- Sorting keeps the order of diagnostics that are sorted among themselves. -/
theorem filter_sortDiagnostics {ds : List (Located Diagnostic)} {p : Located Diagnostic → Bool}
    (sorted : (ds.filter p).Pairwise fun a b => a.loc.le b.loc = true) :
    (sortDiagnostics ds).filter p = ds.filter p := by
  have sub : (ds.filter p).Sublist (sortDiagnostics ds) := by
    refine List.sublist_mergeSort ?_ ?_ sorted List.filter_sublist
    · intro a b c hab hbc
      exact Location.le_trans hab hbc
    · intro a b
      exact Location.le_total a.loc b.loc
  have kept := sub.filter p
  rw [List.filter_filter] at kept
  simp only [Bool.and_self] at kept
  exact (kept.eq_of_length ((List.mergeSort_perm ds _).filter p).length_eq.symm).symm

theorem problems_ordered {es : List Entry}
    (sorted : es.Pairwise fun a b : Entry => a.loc.lt b.loc = true) :
    (problems es).Pairwise fun a b => a.loc.le b.loc = true := by
  rw [problems, List.pairwise_filterMap]
  refine sorted.imp ?_
  intro a b hab x hx y hy
  obtain ⟨_, -, rfl⟩ := Option.map_eq_some_iff.mp hx
  obtain ⟨_, -, rfl⟩ := Option.map_eq_some_iff.mp hy
  exact Location.le_of_lt hab

/-- The errors of a listing are the problems of its entries. -/
theorem errors_eq_problems (source : String) :
    (assemble source).diagnostics.filter (·.value.isError) = problems (assemble source).entries := by
  have surplus : (surplusWarnings (sourceLines source)).filter (·.value.isError) = [] := by
    rw [List.filter_eq_nil_iff]
    intro d hd
    simp [isError_of_mem_surplusWarnings hd]
  have duplicate :
      (duplicateWarnings (statements (sourceLines source))).filter (·.value.isError) = [] := by
    rw [List.filter_eq_nil_iff]
    intro d hd
    simp [isError_of_mem_duplicateWarnings hd]
  have unsorted : (surplusWarnings (sourceLines source) ++
      duplicateWarnings (statements (sourceLines source)) ++
        problems (assemble source).entries).filter (·.value.isError) =
          problems (assemble source).entries := by
    rw [List.filter_append, List.filter_append, surplus, duplicate,
      List.filter_eq_self.mpr fun d hd => isError_of_mem_problems hd, List.append_nil, List.nil_append]
  rw [assemble_diagnostics, filter_sortDiagnostics]
  · exact unsorted
  · rw [unsorted, assemble_entries]
    exact problems_ordered (entries_ordered (statements_ordered source) _)

theorem forall₂_errors (source : String) :
    List.Forall₂ (fun d e => d.loc = e.loc ∧
        ∃ t ∈ sourceTokens source, t.loc = e.loc ∧ d.value.Explains (uppercase t.value) e.code)
      ((assemble source).diagnostics.filter (·.value.isError))
      ((assemble source).entries.filter (isMarked ·.code.text)) := by
  rw [errors_eq_problems]
  exact problems_forall₂ fun e he => ⟨code_wellFormed_of_mem_entries he, standsAt_of_mem_entries he⟩

/-- There are as many errors as markers. -/
theorem countP_isError (source : String) :
    (assemble source).diagnostics.countP (·.value.isError) =
      (assemble source).entries.countP (isMarked ·.code.text) := by
  rw [List.countP_eq_length_filter, List.countP_eq_length_filter]
  exact (forall₂_errors source).length_eq

/-- A source has errors if and only if its listing has a marker. -/
theorem hasErrors_iff_isMarked (source : String) :
    (assemble source).hasErrors = true ↔ isMarked (assemble source).text = true := by
  rw [Listing.hasErrors, List.any_eq_true, ← List.countP_pos_iff, countP_isError,
    List.countP_pos_iff, Listing.text, isMarked_unlines]
  constructor
  · rintro ⟨e, he, marked⟩
    exact ⟨e.code.text, List.mem_map_of_mem (f := fun e : Entry => e.code.text) he, marked⟩
  · rintro ⟨line, hline, marked⟩
    obtain ⟨e, he, rfl⟩ := List.mem_map.mp hline
    exact ⟨e, he, marked⟩

theorem countP_isMarked_lines (source : String) :
    (lines (assemble source).text).countP isMarked =
      (assemble source).entries.countP (isMarked ·.code.text) := by
  have last : isMarked "" = false := isMarked_eq_false (by simp)
  rw [lines_text, List.countP_append, List.countP_map, Function.comp_def,
    List.countP_cons_of_neg (by rw [last]; simp), List.countP_nil, Nat.add_zero]

/-- The errors of a listing are its markers, one by one and in order.  Each
stands at the place of its entry and explains its code, and the instruction is
named by the word that stands there.  So a listing has errors if and only if its
text has a marker, and there is one for each line with a marker. -/
theorem errors_match_markers (source : String) :
    let listing := assemble source
    let errors := listing.diagnostics.filter (·.value.isError)
    List.Forall₂ (fun d e => d.loc = e.loc ∧
        ∃ t ∈ sourceTokens source, t.loc = e.loc ∧ d.value.Explains (uppercase t.value) e.code)
      errors (listing.entries.filter (isMarked ·.code.text)) ∧
    (listing.hasErrors = true ↔ isMarked listing.text = true) ∧
    errors.length = (lines listing.text).countP isMarked := by
  refine ⟨forall₂_errors source, hasErrors_iff_isMarked source, ?_⟩
  rw [countP_isMarked_lines, ← countP_isError, List.countP_eq_length_filter]

end TwoPass
