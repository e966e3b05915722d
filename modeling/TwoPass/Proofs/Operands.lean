import TwoPass.Proofs.Encoding
import TwoPass.Proofs.Meaning
import TwoPass.Proofs.SourceGrammar

/-!
# What is said about an operand

An operation that takes an address can lack its operand, or have one that stands
for nothing.  `operand_diagnosis` says which of the two errors is reported, for
each word that names such an operation (`AsksForAddress`).

The word behind the name is the operand, also if it starts a comment.  A comment
is no numeral and no label.  So with a comment in place of its operand an
operation does not miss an operand, and the comment is what could not be
resolved.  The words that are ignored are counted by another rule, which takes
the same comment for a comment (`Ignores.comment`).
-/

namespace TwoPass

/-! ## The operations of a source -/

/-- A token of a source names an operation that takes an address.  Labels alone
stand before it on its line, and `rest` stands behind it. -/
structure AsksForAddress (source : String) (t : Token) (rest : List Token) : Prop where
  /-- Its line, and the labels before it. -/
  line : ∃ line number labels, (line, number) ∈ (lines source).zipIdx 1 ∧
    tokens number line = labels ++ t :: rest ∧ ∀ l ∈ labels, ∃ name, DefinesLabel l.value name
  /-- The operation takes an address. -/
  takes : uppercase t.value ∈ addressNames

theorem isComment_uppercase {word : String} (h : isComment word = true) :
    isComment (uppercase word) = true := by
  obtain ⟨rest, rfl⟩ := isComment_iff.mp h
  rw [isComment, uppercase, String.toList_append, List.flatMap_append, String.toList_ofList]
  rfl

theorem beforeColon?_uppercase {word name : String} (h : beforeColon? word = some name) :
    beforeColon? (uppercase word) = some (uppercase name) := by
  obtain rfl := beforeColon?_eq_some_iff.mp h
  rw [beforeColon?_eq_some_iff, ← String.toList_inj]
  simp only [uppercase, String.toList_append, List.flatMap_append, String.toList_ofList]
  rfl

/-- The name of an operation is no comment and no label, in either case of its
letters. -/
theorem plain_of_uppercase_mem {word : String} (h : uppercase word ∈ addressNames) :
    isComment word = false ∧ isLabel word = false := by
  have plain : ∀ name ∈ addressNames, isComment name = false ∧ beforeColon? name = none := by
    decide
  obtain ⟨comment, colon⟩ := plain _ h
  have starts : isComment word = false := by
    rw [← Bool.not_eq_true]
    intro starts
    rw [isComment_uppercase starts] at comment
    cases comment
  refine ⟨starts, ?_⟩
  rw [← Bool.not_eq_true, isLabel_iff]
  rintro ⟨-, name, ends⟩
  rw [beforeColon?_uppercase ends] at colon
  cases colon

/-! ## Their readings -/

namespace Line

variable {n : Nat}

/-- Behind labels a line is read as if it started there. -/
theorem mem_readings_append {labels ts : List Token} {r : Located Reading}
    (h : ∀ l ∈ labels, isLabel l.value = true) (ne_nil : ts ≠ [])
    (hr : r ∈ (Line.mk n ts).readings) : r ∈ (Line.mk n (labels ++ ts)).readings := by
  induction labels with
  | nil => exact hr
  | cons l labels ih =>
      obtain ⟨u, us, hus⟩ :=
        List.exists_cons_of_ne_nil (List.append_ne_nil_of_right_ne_nil labels ne_nil)
      have later := ih fun l' hl' => h l' (List.mem_cons_of_mem l hl')
      rw [List.cons_append, hus, readings_label_cons (h l List.mem_cons_self), ← hus]
      exact List.mem_cons_of_mem _ later

/-- An instruction is read at a token with labels alone before it. -/
theorem exists_of_mem_readings {ts : List Token} {r : Located Reading} {inst : Instruction}
    (hr : r ∈ (Line.mk n ts).readings) (hinst : r.value.statement = .instruction inst) :
    ∃ labels t rest, ts = labels ++ t :: rest ∧ (∀ l ∈ labels, isLabel l.value = true) ∧
      isComment t.value = false ∧ isLabel t.value = false ∧
      r = t.replace (Reading.ofWords ((t :: rest).map (·.value))) := by
  induction ts with
  | nil =>
      obtain rfl := List.mem_singleton.mp hr
      cases hinst
  | cons t ts ih =>
      cases label : isLabel t.value with
      | true =>
          have head : r ≠ t.replace (Reading.ofWords [t.value]) := by
            rintro rfl
            obtain ⟨name, hname⟩ := Statement.ofWords_of_isLabel label
            rw [Located.replace_value, Reading.ofWords, hname] at hinst
            cases hinst
          cases ts with
          | nil =>
              rw [readings_label label] at hr
              exact absurd (List.mem_singleton.mp hr) head
          | cons u us =>
              rw [readings_label_cons label] at hr
              obtain ⟨labels, t', rest, cut, all, found⟩ :=
                ih ((List.mem_cons.mp hr).resolve_left head)
              refine ⟨t :: labels, t', rest, by rw [cut, List.cons_append], ?_, found⟩
              exact List.forall_mem_cons.mpr ⟨label, all⟩
      | false =>
          rw [readings_body label] at hr
          obtain rfl := List.mem_singleton.mp hr
          have comment : isComment t.value = false := by
            rw [← Bool.not_eq_true]
            intro comment
            simp [Reading.ofWords, Statement.ofWords, comment] at hinst
          exact ⟨[], t, ts, rfl, by simp, comment, label, rfl⟩

end Line

section Readings

variable {source : String} {t : Token} {rest : List Token}

/-- The instruction at a token. -/
def instructionAt (t : Token) (rest : List Token) : Instruction :=
  ⟨uppercase t.value, (rest.map (·.value)).head?⟩

theorem AsksForAddress.statement (h : AsksForAddress source t rest) :
    Statement.ofWords ((t :: rest).map (·.value)) = .instruction (instructionAt t rest) := by
  obtain ⟨comment, label⟩ := plain_of_uppercase_mem h.takes
  exact Statement.ofWords_instruction comment label (rest.map (·.value))

/-- The name of an operation is read with the words behind it. -/
theorem AsksForAddress.mem_readings (h : AsksForAddress source t rest) :
    t.replace (Reading.ofWords ((t :: rest).map (·.value))) ∈ readings (sourceLines source) := by
  obtain ⟨line, number, labels, mem, cut, define⟩ := h.line
  refine List.mem_flatMap.mpr ⟨⟨number, tokens number line⟩, List.mem_map_of_mem mem, ?_⟩
  rw [cut]
  refine Line.mem_readings_append ?_ (List.cons_ne_nil t rest) ?_
  · exact fun l hl => isLabel_iff_definesLabel.mpr (define l hl)
  · rw [Line.readings_body (plain_of_uppercase_mem h.takes).2]
    exact List.mem_singleton_self _

theorem AsksForAddress.mem_statements (h : AsksForAddress source t rest) :
    ⟨t.loc, .instruction (instructionAt t rest)⟩ ∈ statements (sourceLines source) := by
  rw [← readings_statement, ← h.statement]
  exact List.mem_map_of_mem h.mem_readings

/-- An instruction that takes an address is that of a token. -/
theorem exists_asksForAddress {loc : Location} {inst : Instruction}
    (h : ⟨loc, .instruction inst⟩ ∈ statements (sourceLines source))
    (takes : inst.name ∈ addressNames) :
    ∃ t rest, AsksForAddress source t rest ∧ t.loc = loc ∧ inst = instructionAt t rest := by
  rw [← readings_statement] at h
  obtain ⟨r, hr, same⟩ := List.mem_map.mp h
  obtain ⟨place, hinst⟩ := (Located.mk.injEq ..).mp same
  obtain ⟨ln, hln, hread⟩ := List.mem_flatMap.mp hr
  obtain ⟨⟨line, number⟩, mem, rfl⟩ := List.mem_map.mp hln
  obtain ⟨labels, t, rest, cut, all, comment, label, rfl⟩ := Line.exists_of_mem_readings hread hinst
  have read : Statement.ofWords ((t :: rest).map (·.value)) = .instruction inst := hinst
  rw [List.map_cons, Statement.ofWords_instruction comment label] at read
  obtain rfl := Statement.instruction.inj read
  refine ⟨t, rest, ⟨⟨line, number, labels, mem, cut, ?_⟩, takes⟩, place, rfl⟩
  exact fun l hl => isLabel_iff_definesLabel.mp (all l hl)

end Readings

/-! ## What is wrong with an instruction -/

/-- An instruction has an error under a symbol table. -/
inductive Faulty (symbols : SymbolTable) : Instruction → Diagnostic → Prop
  /-- A name that is no operation's. -/
  | unknown {name : String} {operand : Option String} (other : name ∉ "HLT" :: addressNames) :
      Faulty symbols ⟨name, operand⟩ (.unknownInstruction name)
  /-- An operation without the operand that it takes. -/
  | missing {name : String} (takes : name ∈ addressNames) :
      Faulty symbols ⟨name, none⟩ (.missingOperand name)
  /-- An operation with an operand that stands for nothing. -/
  | unresolved {name symbol : String} (takes : name ∈ addressNames) (other : ¬ IsNumeral symbol)
      (unbound : symbols.get? symbol = none) :
      Faulty symbols ⟨name, some symbol⟩ (.unresolvedSymbol symbol)

theorem exists_operation_of_takes {name : String} (takes : name ∈ addressNames) :
    ∃ op : Operation, op.name = name := by
  cases found : Operation.ofName? name with
  | none => exact absurd (List.mem_cons_of_mem _ takes) (Operation.ofName?_eq_none_iff.mp found)
  | some op => exact ⟨op, Operation.ofName?_eq_some_iff.mp found⟩

/-- An instruction has exactly the error that its code got a marker for. -/
theorem faulty_iff {symbols : SymbolTable} {inst : Instruction} {d : Diagnostic} :
    Faulty symbols inst d ↔ (inst.encode symbols).problem? = some d := by
  constructor
  · intro h
    cases h with
    | unknown other =>
        rw [encodes_iff.mp (.unknown other)]
        rfl
    | missing takes =>
        obtain ⟨op, rfl⟩ := exists_operation_of_takes takes
        rw [encodes_iff.mp (.encoded takes .missing)]
        rfl
    | unresolved takes other unbound =>
        obtain ⟨op, rfl⟩ := exists_operation_of_takes takes
        rw [encodes_iff.mp (.encoded takes (.unresolved other unbound))]
        rfl
  · intro problem
    have rule := encodes_iff.mpr (rfl : inst.encode symbols = _)
    generalize inst.encode symbols = code at problem rule
    cases rule with
    | unknown other =>
        obtain rfl := Option.some.inj problem
        exact .unknown other
    | halt => cases problem
    | encoded takes resolved =>
        cases resolved with
        | missing =>
            obtain rfl := Option.some.inj problem
            exact .missing takes
        | literal numeral => cases problem
        | label other bound => cases problem
        | unresolved other unbound =>
            obtain rfl := Option.some.inj problem
            exact .unresolved takes other unbound

/-! ## The diagnostics at one place -/

/-- The diagnostics at the place of a reading are what a walk says about it. -/
theorem filter_loc_diagnostics {source : String} {r : Located Reading}
    (h : r ∈ readings (sourceLines source)) :
    ∃ w : Walk, (assemble source).diagnostics.filter (·.loc == r.loc) =
      (w.remarks (assemble source).symbols r.value).map r.replace := by
  have ordered := Walk.track_ordered (readings_ordered source) {}
  rw [← Walk.track_snd {} (readings (sourceLines source))] at h
  obtain ⟨x, hx, rfl⟩ := List.mem_map.mp h
  refine ⟨x.value.1, ?_⟩
  rw [assemble_diagnostics_eq_walk, Walk.walk_eq_spread, filter_loc_spread]
  have self : x ∈ (Walk.track {} (readings (sourceLines source))).filter (·.loc == x.loc) :=
    List.mem_filter.mpr ⟨hx, beq_self_eq_true x.loc⟩
  rcases filter_loc_cases ordered x.loc with none | ⟨y, -, -, single⟩
  · rw [none] at self
    cases self
  · rw [single] at self
    obtain rfl := List.mem_singleton.mp self
    rw [Located.map_loc, single, spread, List.flatMap_singleton]
    rfl

/-- An error is reported where an instruction has that problem, and nowhere
else. -/
theorem mem_diagnostics_iff {source : String} {loc : Location} {d : Diagnostic}
    (error : d.isError = true) :
    ⟨loc, d⟩ ∈ (assemble source).diagnostics ↔
      ∃ inst, ⟨loc, .instruction inst⟩ ∈ statements (sourceLines source) ∧
        Faulty (assemble source).symbols inst d := by
  simp only [faulty_iff]
  have kept : ⟨loc, d⟩ ∈ (assemble source).diagnostics ↔
      ⟨loc, d⟩ ∈ (assemble source).diagnostics.filter (·.value.isError) := by
    rw [List.mem_filter]
    exact (and_iff_left error).symm
  rw [kept, errors_eq_problems, assemble_entries, Walk.problems_eq_spread, spread_eq_filterMap,
    List.mem_filterMap]
  constructor
  · rintro ⟨⟨place, value⟩, hs, hproblem⟩
    obtain ⟨d', hd', same⟩ := Option.map_eq_some_iff.mp hproblem
    obtain ⟨rfl, rfl⟩ := (Located.mk.injEq ..).mp same
    obtain ⟨inst, hinst, problem⟩ := Option.bind_eq_some_iff.mp hd'
    cases value with
    | instruction i =>
        obtain rfl := Option.some.inj hinst
        exact ⟨i, hs, problem⟩
    | blank => cases hinst
    | comment => cases hinst
    | label name => cases hinst
  · rintro ⟨inst, hs, problem⟩
    refine ⟨⟨loc, .instruction inst⟩, hs, ?_⟩
    rw [Option.map_eq_some_iff]
    exact ⟨d, problem, rfl⟩

/-! ## Comments in place of operands -/

/-- A comment stands for nothing under the table of any source. -/
theorem not_resolved_of_startsComment (source : String) {word : String} (h : StartsComment word) :
    ¬ IsNumeral word ∧ (assemble source).symbols.get? word = none := by
  have comment := isComment_iff.mpr h
  refine ⟨?_, get?_symbols_of_isComment source comment⟩
  rw [← isDecimal_iff_isNumeral, isDecimal_of_isComment comment]
  exact Bool.false_ne_true

section

variable {source : String} {t : Token} {rest : List Token}

/-- Where no words are ignored, an operation has the error of its operand and
nothing else is said. -/
theorem AsksForAddress.filter_loc (h : AsksForAddress source t rest) {d : Diagnostic}
    (ignored : surplus ((t :: rest).map (·.value)) = 0)
    (fault : Faulty (assemble source).symbols (instructionAt t rest) d) :
    (assemble source).diagnostics.filter (·.loc == t.loc) = [t.replace d] := by
  obtain ⟨w, said⟩ := filter_loc_diagnostics h.mem_readings
  rw [Located.replace_value, Reading.ofWords, h.statement, ignored] at said
  have remarks : w.remarks (assemble source).symbols ⟨.instruction (instructionAt t rest), 0⟩ =
      [d] := by
    simp [Walk.remarks, Reading.warning?, faulty_iff.mp fault]
  rw [remarks] at said
  exact said

/-- What is reported for an operation that takes an address.  With nothing behind
its name it misses its operand.  With a comment behind it the comment is taken
for the operand and could not be resolved.  In both cases nothing else is said
there.  An operand is missed at no other place, and a symbol is unresolved where
it is the next word, is no numeral and has no definition. -/
theorem operand_diagnosis (source : String) :
    let diagnostics := (assemble source).diagnostics
    (∀ t, AsksForAddress source t [] →
      diagnostics.filter (·.loc == t.loc) = [t.replace (.missingOperand (uppercase t.value))]) ∧
    (∀ t c rest, AsksForAddress source t (c :: rest) → StartsComment c.value →
      diagnostics.filter (·.loc == t.loc) = [t.replace (.unresolvedSymbol c.value)]) ∧
    (∀ loc name, ⟨loc, .missingOperand name⟩ ∈ diagnostics ↔
      ∃ t, AsksForAddress source t [] ∧ t.loc = loc ∧ uppercase t.value = name) ∧
    (∀ loc symbol, ⟨loc, .unresolvedSymbol symbol⟩ ∈ diagnostics ↔
      ∃ t c rest, AsksForAddress source t (c :: rest) ∧ t.loc = loc ∧ c.value = symbol ∧
        ¬ IsNumeral symbol ∧ (assemble source).symbols.get? symbol = none) ∧
    ∀ word, StartsComment word →
      ¬ IsNumeral word ∧ (assemble source).symbols.get? word = none := by
  refine ⟨?_, ?_, ?_, ?_, fun word => not_resolved_of_startsComment source⟩
  · intro t h
    exact h.filter_loc rfl (.missing h.takes)
  · intro t c rest h comment
    obtain ⟨other, unbound⟩ := not_resolved_of_startsComment source comment
    have ignored : Ignores ((c :: rest).map (·.value)) 0 := .comment comment
    exact h.filter_loc ((ignores_iff t.value).mp ignored) (.unresolved h.takes other unbound)
  · intro loc name
    rw [mem_diagnostics_iff rfl]
    constructor
    · rintro ⟨inst, hinst, fault⟩
      cases fault with
      | missing takes =>
          obtain ⟨t, rest, h, place, same⟩ := exists_asksForAddress hinst takes
          obtain ⟨named, operand⟩ := (Instruction.mk.injEq ..).mp same
          obtain rfl : rest = [] := by simpa using operand.symm
          exact ⟨t, h, place, named.symm⟩
    · rintro ⟨t, h, rfl, rfl⟩
      exact ⟨_, h.mem_statements, .missing h.takes⟩
  · intro loc symbol
    rw [mem_diagnostics_iff rfl]
    constructor
    · rintro ⟨inst, hinst, fault⟩
      cases fault with
      | unresolved takes other unbound =>
          obtain ⟨t, rest, h, place, same⟩ := exists_asksForAddress hinst takes
          obtain ⟨-, operand⟩ := (Instruction.mk.injEq ..).mp same
          cases rest with
          | nil => cases operand
          | cons c rest =>
              exact ⟨t, c, rest, h, place, Option.some.inj operand.symm, other, unbound⟩
    · rintro ⟨t, c, rest, h, rfl, rfl, other, unbound⟩
      exact ⟨_, h.mem_statements, .unresolved h.takes other unbound⟩

/-- At `LOAD ;c` no operand is missed, and the comment is an unresolved symbol. -/
theorem operand_diagnosis_of_comment :
    AsksForAddress "LOAD ;c" ⟨⟨1, 1⟩, "LOAD"⟩ [⟨⟨1, 6⟩, ";c"⟩] ∧ StartsComment ";c" ∧
      (assemble "LOAD ;c").diagnostics = [⟨⟨1, 1⟩, .unresolvedSymbol ";c"⟩] ∧
      ⟨⟨1, 1⟩, .missingOperand "LOAD"⟩ ∉ (assemble "LOAD ;c").diagnostics := by
  have said : (assemble "LOAD ;c").diagnostics = [⟨⟨1, 1⟩, .unresolvedSymbol ";c"⟩] := by
    rw [assemble_diagnostics_eq_walk]
    decide
  refine ⟨⟨⟨"LOAD ;c", 1, [], by decide, by decide, by simp⟩, by decide⟩, ⟨"c", rfl⟩, said, ?_⟩
  rw [said]
  decide

end

end TwoPass
