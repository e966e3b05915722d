import TwoPass.Proofs.Encoding
import TwoPass.Proofs.Relocation
import TwoPass.Proofs.Renumbering
import TwoPass.Proofs.SourceGrammar

/-!
# A label that is put in

A line that defines a new label is put into a source (`NewLabel`).  Only the
instructions that use the label notice (`assemble_newLabel`).

* A label takes up no address, so no other label and no instruction gets another
  one.  The new label is bound to the number of instructions before its line.
* The instructions that use the label, before and behind the line, had the
  marker in place of their operand.  Now they have the address.
* What is said about the other statements stays.  It only moves down by one line
  if it stands behind the new one.

The last is shown in two steps.  A walk under the table with the new label says
the same as before but for the label (`walk_define`).  And a walk does not see a
definition that it passes, as long as no other definition of the label follows
(`walk_insert`).
-/

namespace TwoPass

/-! ## The new line -/

/-- The number that a line gets when a line is put behind the first `k`. -/
def lineBehind (k n : Nat) : Nat := if n ≤ k then n else n + 1

/-- A source gets a line that defines a label it did not define. -/
structure NewLabel (source edited label : String) (above below : List String) : Prop where
  /-- The label holds no blank. -/
  word : ∀ c ∈ label.toList, isBlank c = false
  /-- The label does not start a comment. -/
  plain : ¬ StartsComment label
  /-- The label is no numeral. -/
  name : ¬ IsNumeral label
  /-- The source does not define the label. -/
  fresh : ∀ s ∈ statements (sourceLines source), s.value ≠ .label label
  /-- The source is cut between two lines, or at one of its ends. -/
  cut : lines source = above ++ below
  /-- The new line stands at the cut. -/
  put : lines edited = above ++ (label ++ ":") :: below

/-- The instruction at a position is an operation on a label. -/
structure UsedAt (insts : List (Located Instruction)) (label : String) (op : Operation)
    (position : Nat) : Prop where
  /-- The operation takes an address. -/
  takes : op.name ∈ addressNames
  /-- The instruction consists of the name of the operation and the label. -/
  names : ∃ loc, insts[position]? = some ⟨loc, ⟨op.name, some label⟩⟩

namespace UsedAt

variable {insts : List (Located Instruction)} {label : String} {op : Operation} {position : Nat}

theorem refersTo (used : UsedAt insts label op position) (name : isDecimal label = false) :
    (Instruction.mk op.name (some label)).RefersTo label :=
  ⟨⟨op, Operation.ofName?_name op, Operation.arity_eq_address_iff.mpr used.takes⟩, rfl, name⟩

theorem line_eq (used : UsedAt insts label op position) (symbols : SymbolTable) :
    (insts.map (fun inst => (inst.value.encode symbols).text) ++ [""])[position]? =
      some ((Instruction.mk op.name (some label)).encode symbols).text := by
  obtain ⟨loc, found⟩ := used.names
  have inside : position < insts.length := (List.getElem?_eq_some_iff.mp found).1
  rw [List.getElem?_append_left (by rwa [List.length_map]), List.getElem?_map, found]
  rfl

end UsedAt

/-- Tables that give an instruction the same code give it the same line. -/
theorem line_congr {insts : List (Located Instruction)} {position : Nat} {t u : SymbolTable}
    (h : ∀ inst, insts[position]? = some inst → inst.value.encode t = inst.value.encode u) :
    (insts.map (fun inst => (inst.value.encode t).text) ++ [""])[position]? =
      (insts.map (fun inst => (inst.value.encode u).text) ++ [""])[position]? := by
  rw [List.getElem?_append, List.getElem?_append, List.length_map, List.length_map,
    List.getElem?_map, List.getElem?_map]
  cases found : insts[position]? with
  | none => rfl
  | some inst => rw [Option.map_some, Option.map_some, h inst found]

theorem exists_usedAt_of_refersTo {insts : List (Located Instruction)} {label : String}
    {position : Nat} {inst : Located Instruction} (found : insts[position]? = some inst)
    (refers : inst.value.RefersTo label) : ∃ op, UsedAt insts label op position := by
  obtain ⟨loc, name, operand⟩ := inst
  obtain ⟨⟨op, hop, harity⟩, hword, -⟩ := refers
  obtain rfl : op.name = name := Operation.ofName?_eq_some_iff.mp hop
  obtain rfl : operand = some label := hword
  exact ⟨op, Operation.arity_eq_address_iff.mp harity, loc, found⟩

theorem definesLabel_append_colon {label : String} (plain : ¬ StartsComment label) :
    DefinesLabel (label ++ ":") label := by
  refine ⟨rfl, ?_⟩
  have head : isComment (label ++ ":") = isComment label := by
    rw [isComment, isComment, String.toList_append, List.head?_append]
    cases label.toList <;> rfl
  rw [← isComment_iff, head, isComment_iff]
  exact plain

theorem isWord_append_colon {label : String} (word : ∀ c ∈ label.toList, isBlank c = false) :
    IsWord (label ++ ":") := by
  refine ⟨by simp, ?_⟩
  intro c hc
  rw [String.toList_append, List.mem_append] at hc
  rcases hc with label | colon
  · exact word c label
  · obtain rfl := List.mem_singleton.mp colon
    decide

/-- A line with a new label can be put at any cut of any source. -/
theorem exists_newLabel {source label : String} {above below : List String}
    (word : ∀ c ∈ label.toList, isBlank c = false) (plain : ¬ StartsComment label)
    (name : ¬ IsNumeral label)
    (fresh : ∀ s ∈ statements (sourceLines source), s.value ≠ .label label)
    (cut : lines source = above ++ below) : ∃ edited, NewLabel source edited label above below := by
  have newline : ∀ line ∈ above ++ (label ++ ":") :: below, '\n' ∉ line.toList := by
    intro line hline
    rw [List.mem_append, List.mem_cons] at hline
    rcases hline with habove | rfl | hbelow
    · exact newline_not_mem_of_mem_lines (by rw [cut]; exact List.mem_append_left _ habove)
    · exact (isWord_append_colon word).newline_not_mem
    · exact newline_not_mem_of_mem_lines (by rw [cut]; exact List.mem_append_right _ hbelow)
  obtain ⟨edited, put⟩ := exists_lines_eq (by simp) newline
  exact ⟨edited, word, plain, name, fresh, cut, put⟩

/-- The new line is read as one definition. -/
theorem exists_readings_of_definesLabel {word label : String} (isWord : IsWord word)
    (defines : DefinesLabel word label) (n : Nat) :
    ∃ r, (Line.mk n (tokens n word)).readings = [r] ∧ r.value.statement = .label label := by
  have values : (tokens n word).map (·.value) = [word] := by rw [tokens_value, isWord.words_eq]
  obtain ⟨t, htokens, hvalue⟩ := List.map_eq_singleton_iff.mp values
  have labels : isLabel t.value = true := by
    rw [hvalue]
    exact isLabel_iff_definesLabel.mpr ⟨label, defines⟩
  refine ⟨_, by rw [htokens, Line.readings_label labels], ?_⟩
  rw [Located.replace_value, hvalue]
  exact defines.ofWords

theorem number_of_mem_numbered {first : Nat} {ls : List String} {ln : Line}
    (h : ln ∈ numbered first ls) : first ≤ ln.number ∧ ln.number < first + ls.length := by
  obtain ⟨⟨line, n⟩, hmem, rfl⟩ := List.mem_map.mp h
  exact ⟨List.le_snd_of_mem_zipIdx hmem, List.snd_lt_add_of_mem_zipIdx hmem⟩

namespace NewLabel

variable {source edited label : String} {above below : List String}

theorem sourceLines_source (h : NewLabel source edited label above below) :
    sourceLines source = numbered 1 above ++ numbered (1 + above.length) below := by
  rw [sourceLines_eq_numbered, h.cut, numbered_append]

theorem sourceLines_edited (h : NewLabel source edited label above below) :
    sourceLines edited =
      (numbered 1 above).map (Line.renumber (lineBehind above.length)) ++
        ⟨above.length + 1, tokens (above.length + 1) (label ++ ":")⟩ ::
          (numbered (1 + above.length) below).map (Line.renumber (lineBehind above.length)) := by
  have kept : ∀ i < above.length, lineBehind above.length (1 + i) = 1 + i := by
    intro i hi
    rw [lineBehind, if_pos (by omega)]
  have moved : ∀ i < below.length,
      lineBehind above.length (1 + above.length + i) = 1 + above.length + 1 + i := by
    intro i _
    rw [lineBehind, if_neg (by omega)]
    omega
  rw [map_renumber_numbered _ kept, map_renumber_numbered _ moved, sourceLines_eq_numbered, h.put,
    numbered_append, numbered_cons, Nat.add_comm 1 above.length]

/-- The readings before and behind the new line are those of the source, on
lines with other numbers. -/
theorem exists_readings (h : NewLabel source edited label above below) :
    ∃ front back r,
      readings (sourceLines source) = front ++ back ∧
      readings (sourceLines edited) =
        front.map (Located.renumber (lineBehind above.length)) ++
          r :: back.map (Located.renumber (lineBehind above.length)) ∧
      r.value.statement = .label label ∧
      (∀ s ∈ front, s.loc.line ≤ above.length) ∧ ∀ s ∈ back, above.length < s.loc.line := by
  obtain ⟨r, hr, defines⟩ := exists_readings_of_definesLabel (isWord_append_colon h.word)
    (definesLabel_append_colon h.plain) (above.length + 1)
  have line : ∀ ln ∈ sourceLines source, ∀ s ∈ ln.readings, s.loc.line = ln.number := by
    intro ln hln s hs
    have mem := List.mem_map_of_mem (f := Located.map Reading.statement) hs
    rw [Line.readings_statement] at mem
    exact line_of_mem_statements hln mem
  rw [h.sourceLines_source] at line
  refine ⟨readings (numbered 1 above), readings (numbered (1 + above.length) below), r, ?_, ?_,
    defines, ?_, ?_⟩
  · rw [h.sourceLines_source, readings, List.flatMap_append]
    rfl
  · rw [h.sourceLines_edited, readings, List.flatMap_append, List.flatMap_cons, hr, ← readings,
      ← readings, readings_renumber, readings_renumber]
    rfl
  · intro s hs
    obtain ⟨ln, hln, hs⟩ := List.mem_flatMap.mp hs
    rw [line ln (List.mem_append_left _ hln) s hs]
    have bound := (number_of_mem_numbered hln).2
    omega
  · intro s hs
    obtain ⟨ln, hln, hs⟩ := List.mem_flatMap.mp hs
    rw [line ln (List.mem_append_right _ hln) s hs]
    have bound := (number_of_mem_numbered hln).1
    omega

/-- The statements before and behind the new line are those of the source. -/
theorem exists_statements (h : NewLabel source edited label above below) :
    ∃ front back s,
      statements (sourceLines source) = front ++ back ∧
      statements (sourceLines edited) =
        front.map (Located.renumber (lineBehind above.length)) ++
          s :: back.map (Located.renumber (lineBehind above.length)) ∧
      s.value = .label label ∧
      (∀ t ∈ front, t.loc.line ≤ above.length) ∧ ∀ t ∈ back, above.length < t.loc.line := by
  obtain ⟨front, back, r, whole, extended, defines, before, behind⟩ := h.exists_readings
  refine ⟨front.map (Located.map Reading.statement), back.map (Located.map Reading.statement),
    r.map Reading.statement, ?_, ?_, defines, ?_, ?_⟩
  · rw [← readings_statement, whole, List.map_append]
  · rw [← readings_statement, extended, List.map_append, List.map_cons, List.map_map, List.map_map,
      List.map_map, List.map_map]
    rfl
  · intro t ht
    obtain ⟨x, hx, rfl⟩ := List.mem_map.mp ht
    exact before x hx
  · intro t ht
    obtain ⟨x, hx, rfl⟩ := List.mem_map.mp ht
    exact behind x hx

end NewLabel

/-! ## The table -/

/-- One more definition binds its label and leaves the other labels, because it
takes up no address. -/
theorem ofStatements_insert {before after : List (Located Statement)} {s : Located Statement}
    {label : String} (defines : s.value = .label label)
    (fresh : ∀ t ∈ after, t.value ≠ .label label) :
    SymbolTable.ofStatements (before ++ s :: after) =
      ((SymbolTable.ofStatements (before ++ after)).define label
        (before.countP (·.value.isInstruction))).2 := by
  apply SymbolTable.ext
  intro other
  rw [SymbolTable.get?_define]
  by_cases same : label = other
  · -- No definition of the label follows, so the new one is the last.
    subst same
    have last : LastDefinition (before ++ s :: after) label before s after := ⟨rfl, defines, fresh⟩
    rw [if_pos rfl, last.get?]
  · have idle : s.value.isInstruction = false := by
      rw [defines]
      rfl
    have unbound : (SymbolTable.ofStatements [s]).get? other = none := by
      apply get?_ofStatements_eq_none
      intro t ht
      rw [List.mem_singleton.mp ht, defines]
      exact fun he => same (Statement.label.inj he)
    have single : s :: after = [s] ++ after := rfl
    rw [if_neg same, get?_ofStatements_append, get?_ofStatements_append, single,
      get?_ofStatements_append, unbound, List.countP_singleton, idle]
    simp

/-- The instructions on the first lines are those of the first part, if the
statements are cut there. -/
theorem countP_instructions_append {front back : List (Located Statement)} {k : Nat}
    (before : ∀ s ∈ front, s.loc.line ≤ k) (behind : ∀ s ∈ back, k < s.loc.line) :
    (instructions (front ++ back)).countP (·.loc.line ≤ k) =
      front.countP (·.value.isInstruction) := by
  have places : (instructions (front ++ back)).countP (·.loc.line ≤ k) =
      (front ++ back).countP fun s => decide (s.loc.line ≤ k) && s.value.isInstruction := by
    have locs := congrArg (List.countP fun loc : Location => decide (loc.line ≤ k))
      (instructions_loc (front ++ back))
    rw [List.countP_map, List.countP_map, List.countP_filter] at locs
    exact locs
  have all : front.countP (fun s => decide (s.loc.line ≤ k) && s.value.isInstruction) =
      front.countP (·.value.isInstruction) := by
    refine List.countP_congr ?_
    intro s hs
    simp [before s hs]
  have none : back.countP (fun s => decide (s.loc.line ≤ k) && s.value.isInstruction) = 0 := by
    refine List.countP_eq_zero.mpr ?_
    intro s hs
    simp [Nat.not_le.mpr (behind s hs)]
  rw [places, List.countP_append, all, none, Nat.add_zero]

/-! ## The code of an instruction -/

section Code

variable {t : SymbolTable} {label : String} {inst : Instruction} (address : Nat)

/-- An instruction that uses a new label gets its address in place of the
marker. -/
theorem Instruction.encode_define (unbound : t.get? label = none) (refers : inst.RefersTo label) :
    ∃ op, Operation.ofName? inst.name = some op ∧
      inst.encode t = .encoded op (.unresolved (some label)) ∧
      inst.encode (t.define label address).2 = .encoded op (.label label address) := by
  obtain ⟨⟨op, hop, harity⟩, hword, hdecimal⟩ := refers
  refine ⟨op, hop, ?_, ?_⟩
  · simp [encode, hop, harity, hword, Operand.resolve, hdecimal, unbound]
  · simp [encode, hop, harity, hword, Operand.resolve, hdecimal, SymbolTable.get?_define]

/-- Any other instruction keeps its code. -/
theorem Instruction.encode_define_of_not_refersTo (other : ¬ inst.RefersTo label) :
    inst.encode (t.define label address).2 = inst.encode t := by
  apply Instruction.encode_congr
  intro word refers
  have different : label ≠ word := by
    rintro rfl
    exact other refers
  rw [SymbolTable.get?_define, if_neg different]

/-- An instruction refers to what could not be resolved. -/
theorem Instruction.refersTo_of_problem?
    (h : (inst.encode t).problem? = some (.unresolvedSymbol label)) : inst.RefersTo label := by
  generalize hcode : inst.encode t = code at h
  cases encodes_iff.mpr hcode with
  | unknown other => cases h
  | halt => cases h
  | encoded takes resolved =>
      cases resolved with
      | missing => cases h
      | literal numeral => cases h
      | label name bound => cases h
      | unresolved name unbound =>
          obtain rfl := Diagnostic.unresolvedSymbol.inj (Option.some.inj h)
          refine ⟨⟨_, Operation.ofName?_name _, Operation.arity_eq_address_iff.mpr takes⟩, rfl, ?_⟩
          rw [← Bool.not_eq_true, isDecimal_iff_isNumeral]
          exact name

/-- A new label takes away what is said about itself. -/
theorem Instruction.problem?_encode_define (unbound : t.get? label = none) :
    (inst.encode (t.define label address).2).problem? =
      (inst.encode t).problem?.filter (· ≠ .unresolvedSymbol label) := by
  by_cases refers : inst.RefersTo label
  · obtain ⟨op, -, before, after⟩ := encode_define address unbound refers
    rw [before, after]
    exact (Option.filter_some_neg (by simp)).symm
  · rw [encode_define_of_not_refersTo address refers]
    cases problem : (inst.encode t).problem? with
    | none => rfl
    | some d =>
        have different : d ≠ .unresolvedSymbol label := by
          rintro rfl
          exact refers (refersTo_of_problem? problem)
        rw [Option.filter_some, if_pos (decide_eq_true different)]

end Code

/-! ## The walk -/

section Walk

variable {t : SymbolTable} {label : String} (address : Nat)

theorem Walk.remarks_define (unbound : t.get? label = none) (w : Walk) (r : Reading) :
    w.remarks (t.define label address).2 r =
      (w.remarks t r).filter (· ≠ .unresolvedSymbol label) := by
  obtain ⟨statement, ignored⟩ := r
  cases statement with
  | blank => rfl
  | comment => rfl
  | label name =>
      have kept : ((w.duplicate? (.label name)).toList).filter (· ≠ .unresolvedSymbol label) =
          (w.duplicate? (.label name)).toList := by
        rw [duplicate?]
        cases w.defined.lookup name <;> simp
      exact kept.symm
  | instruction inst =>
      have kept : (Reading.warning? ⟨.instruction inst, ignored⟩).toList.filter
            (· ≠ .unresolvedSymbol label) =
          (Reading.warning? ⟨.instruction inst, ignored⟩).toList := by
        cases ignored <;> simp [Reading.warning?]
      simp only [remarks]
      rw [List.filter_append, kept, Instruction.problem?_encode_define address unbound,
        Option.toList_filter]

/-- A walk under a table with a new label says all but that the label is not
resolved. -/
theorem walk_define (unbound : t.get? label = none) (w : Walk) (rs : List (Located Reading)) :
    walk (t.define label address).2 w rs =
      (walk t w rs).filter (·.value ≠ .unresolvedSymbol label) := by
  induction rs generalizing w with
  | nil => rfl
  | cons r rs ih =>
      rw [walk, walk, List.filter_append, ih, Walk.remarks_define address unbound, List.filter_map]
      rfl

end Walk

/-- Two walks know the same but for one label. -/
structure Walk.AgreesBut (label : String) (w v : Walk) : Prop where
  /-- The next address is the same. -/
  address : v.address = w.address
  /-- The other labels have the same addresses. -/
  defined : ∀ name, name ≠ label → v.defined.lookup name = w.defined.lookup name

namespace Walk.AgreesBut

variable {label : String} {w v : Walk}

theorem refl (label : String) (w : Walk) : w.AgreesBut label w := ⟨rfl, fun _ _ => rfl⟩

/-- A definition of the label tells only one of the walks something. -/
theorem define (h : w.AgreesBut label v) : w.AgreesBut label (v.step (.label label)) := by
  refine ⟨h.address, ?_⟩
  intro name different
  rw [← h.defined name different, lookup_step, if_neg (by simpa using Ne.symm different)]

theorem step (h : w.AgreesBut label v) (s : Statement) :
    (w.step s).AgreesBut label (v.step s) := by
  refine ⟨?_, ?_⟩
  · cases s with
    | instruction inst => exact congrArg (· + 1) h.address
    | blank => exact h.address
    | comment => exact h.address
    | label name => exact h.address
  · intro name different
    rw [lookup_step, lookup_step, h.address, h.defined name different]

/-- The walks say the same about any statement but a definition of the label. -/
theorem remarks_eq (h : w.AgreesBut label v) (symbols : SymbolTable) {r : Reading}
    (other : r.statement ≠ .label label) : v.remarks symbols r = w.remarks symbols r := by
  obtain ⟨statement, ignored⟩ := r
  cases statement with
  | blank => rfl
  | comment => rfl
  | label name =>
      have different : name ≠ label := fun same => other (congrArg Statement.label same)
      simp only [Walk.remarks, Walk.duplicate?, h.defined name different]
  | instruction inst => rfl

theorem walk_eq (h : w.AgreesBut label v) (symbols : SymbolTable) {rs : List (Located Reading)}
    (fresh : ∀ r ∈ rs, r.value.statement ≠ .label label) :
    walk symbols v rs = walk symbols w rs := by
  induction rs generalizing w v with
  | nil => rfl
  | cons r rs ih =>
      obtain ⟨other, fresh⟩ := List.forall_mem_cons.mp fresh
      rw [walk, walk, h.remarks_eq symbols other, ih (h.step r.value.statement) fresh]

end Walk.AgreesBut

/-- A walk passes the first definition of a label in silence, and says the same
behind it if no other one follows. -/
theorem walk_insert (symbols : SymbolTable) {w : Walk} {label : String} {r : Located Reading}
    {front back : List (Located Reading)} (defines : r.value.statement = .label label)
    (undefined : w.defined.lookup label = none)
    (fresh : ∀ s ∈ front ++ back, s.value.statement ≠ .label label) :
    walk symbols w (front ++ r :: back) = walk symbols w (front ++ back) := by
  induction front generalizing w with
  | nil =>
      have silent : w.remarks symbols r.value = [] := by
        rw [Walk.remarks, defines]
        simp [Walk.duplicate?, undefined]
      -- Behind the definition the walks know the same but for the label, and nobody asks for it.
      have behind := (Walk.AgreesBut.refl label w).define.walk_eq symbols fresh
      rw [List.nil_append, walk, silent, defines]
      exact behind
  | cons s front ih =>
      rw [List.cons_append, List.forall_mem_cons] at fresh
      have still : (w.step s.value.statement).defined.lookup label = none := by
        rw [Walk.lookup_step, if_neg fresh.1, undefined]
      rw [List.cons_append, List.cons_append, walk, walk, ih still fresh.2]

/-! ## The listing -/

namespace NewLabel

variable {source edited label : String} {above below : List String}

theorem isDecimal_eq_false (h : NewLabel source edited label above below) :
    isDecimal label = false := by
  rw [← Bool.not_eq_true, isDecimal_iff_isNumeral]
  exact h.name

theorem get?_symbols (h : NewLabel source edited label above below) :
    (assemble source).symbols.get? label = none := by
  rw [assemble_symbols]
  exact get?_ofStatements_eq_none h.fresh

/-- The new label is bound to the number of instructions before its line. -/
theorem symbols_edited (h : NewLabel source edited label above below) :
    (assemble edited).symbols =
      ((assemble source).symbols.define label
        ((instructions (statements (sourceLines source))).countP
          (·.loc.line ≤ above.length))).2 := by
  obtain ⟨front, back, s, whole, extended, defines, before, behind⟩ := h.exists_statements
  have fresh := h.fresh
  rw [whole] at fresh
  have later : ∀ t ∈ back.map (Located.renumber (lineBehind above.length)),
      t.value ≠ .label label := by
    intro t ht
    obtain ⟨u, hu, rfl⟩ := List.mem_map.mp ht
    exact fresh u (List.mem_append_right _ hu)
  rw [assemble_symbols, assemble_symbols, extended, ofStatements_insert defines later,
    ← List.map_append, ofStatements_renumber, List.countP_map, whole,
    countP_instructions_append before behind]
  rfl

theorem instructions_edited (h : NewLabel source edited label above below) :
    instructions (statements (sourceLines edited)) =
      (instructions (statements (sourceLines source))).map
        (Located.renumber (lineBehind above.length)) := by
  obtain ⟨front, back, s, whole, extended, defines, -, -⟩ := h.exists_statements
  rw [whole, extended, ← instructions_renumber, List.map_append, instructions, instructions,
    List.filterMap_append, List.filterMap_append, List.filterMap_cons, defines]
  rfl

/-- The lines of both listings follow the instructions of the source. -/
theorem lines_text_edited (h : NewLabel source edited label above below) :
    lines (assemble edited).text =
      (instructions (statements (sourceLines source))).map
        (fun inst => (inst.value.encode (assemble edited).symbols).text) ++ [""] := by
  rw [lines_text, assemble_entries, entries_text, h.instructions_edited, List.map_map]
  rfl

/-- The walk over the new source says what the walk over the old one says, but
for the label. -/
theorem diagnostics_edited (h : NewLabel source edited label above below) :
    (assemble edited).diagnostics =
      ((assemble source).diagnostics.filter (·.value ≠ .unresolvedSymbol label)).map
        (Located.renumber (lineBehind above.length)) := by
  obtain ⟨front, back, r, whole, extended, defines, -, -⟩ := h.exists_readings
  have fresh : ∀ x ∈ front ++ back, x.value.statement ≠ .label label := by
    intro x hx
    have mem := List.mem_map_of_mem (f := Located.map Reading.statement) hx
    rw [← whole, readings_statement] at mem
    exact h.fresh _ mem
  have moved : ∀ x ∈ front.map (Located.renumber (lineBehind above.length)) ++
      back.map (Located.renumber (lineBehind above.length)),
      x.value.statement ≠ .label label := by
    intro x hx
    rw [← List.map_append] at hx
    obtain ⟨y, hy, rfl⟩ := List.mem_map.mp hx
    exact fresh y hy
  rw [assemble_diagnostics_eq_walk, assemble_diagnostics_eq_walk, extended,
    walk_insert _ defines rfl moved, ← List.map_append, walk_renumber, ← whole, h.symbols_edited,
    walk_define _ h.get?_symbols]

end NewLabel

/-- A line that defines a new label is put into a source.  The table gets the
label, bound to the number of instructions before the line.  The lines of the
listing that hold an operation on the label had the marker and now have the
address, and the others stay.  The diagnostics are the same but for those about
the label, with the lines behind the new one moved down by one. -/
theorem assemble_newLabel {source edited label : String} {above below : List String}
    (h : NewLabel source edited label above below) :
    let listing := assemble source
    let extended := assemble edited
    let insts := instructions (statements (sourceLines source))
    let address := insts.countP (·.loc.line ≤ above.length)
    listing.symbols.get? label = none ∧
    extended.symbols = (listing.symbols.define label address).2 ∧
    (∀ position op, UsedAt insts label op position →
      (lines listing.text)[position]? = some (hexadecimal 2 op.opcode ++ " " ++ "??") ∧
      (lines extended.text)[position]? =
        some (hexadecimal 2 op.opcode ++ " " ++ address.repr)) ∧
    (∀ position, (∀ op, ¬ UsedAt insts label op position) →
      (lines extended.text)[position]? = (lines listing.text)[position]?) ∧
    extended.diagnostics =
      (listing.diagnostics.filter (·.value ≠ .unresolvedSymbol label)).map
        (Located.renumber (lineBehind above.length)) := by
  intro listing extended insts address
  have unbound : listing.symbols.get? label = none := h.get?_symbols
  have table : extended.symbols = (listing.symbols.define label address).2 := h.symbols_edited
  have old : lines listing.text =
      insts.map (fun inst => (inst.value.encode listing.symbols).text) ++ [""] := by
    rw [lines_text, assemble_entries, entries_text]
  have new : lines extended.text =
      insts.map (fun inst => (inst.value.encode extended.symbols).text) ++ [""] :=
    h.lines_text_edited
  rw [old, new, table]
  refine ⟨unbound, rfl, ?_, ?_, h.diagnostics_edited⟩
  · intro position op used
    obtain ⟨other, hop, before, after⟩ :=
      Instruction.encode_define address unbound (used.refersTo h.isDecimal_eq_false)
    obtain rfl : op = other := Option.some.inj ((Operation.ofName?_name op).symm.trans hop)
    rw [used.line_eq, used.line_eq, before, after]
    simp only [Code.text, Operand.text, unresolvedMarker, and_self]
  · intro position unused
    refine line_congr ?_
    intro inst found
    apply Instruction.encode_define_of_not_refersTo
    intro refers
    obtain ⟨op, used⟩ := exists_usedAt_of_refersTo found refers
    exact unused op used

/-- A jump forward to the new label and a load that names it behind the line.
The ignored words and the other open label are still reported. -/
theorem assemble_newLabel_of_jump :
    let source := "JMP L 1 2\nHLT\nLOAD L\nADD M"
    let edited := "JMP L 1 2\nHLT\nL:\nLOAD L\nADD M"
    NewLabel source edited "L" ["JMP L 1 2", "HLT"] ["LOAD L", "ADD M"] ∧
      (lines (assemble edited).text)[0]? = some "05 2" ∧
      (lines (assemble edited).text)[2]? = some "01 2" ∧
      (lines (assemble edited).text)[3]? = (lines (assemble source).text)[3]? ∧
      (assemble edited).diagnostics =
        [⟨⟨1, 1⟩, .extraTokens "JMP" 2⟩, ⟨⟨5, 1⟩, .unresolvedSymbol "M"⟩] := by
  intro source edited
  have put : NewLabel source edited "L" ["JMP L 1 2", "HLT"] ["LOAD L", "ADD M"] := by
    refine ⟨?_, ?_, ?_, by decide, by decide, by decide⟩
    · intro c hc
      obtain rfl := List.mem_singleton.mp hc
      decide
    · rw [← isComment_iff]
      decide
    · rw [← isDecimal_iff_isNumeral]
      decide
  obtain ⟨-, -, used, unused, diagnostics⟩ := assemble_newLabel put
  have insts : instructions (statements (sourceLines source)) =
      [⟨⟨1, 1⟩, ⟨"JMP", some "L"⟩⟩, ⟨⟨2, 1⟩, ⟨"HLT", none⟩⟩, ⟨⟨3, 1⟩, ⟨"LOAD", some "L"⟩⟩,
        ⟨⟨4, 1⟩, ⟨"ADD", some "M"⟩⟩] := by decide
  rw [insts] at used unused
  refine ⟨put, ?_, ?_, ?_, ?_⟩
  · exact (used 0 .jump ⟨by decide, ⟨1, 1⟩, rfl⟩).2.trans (by decide)
  · exact (used 2 .load ⟨by decide, ⟨3, 1⟩, rfl⟩).2.trans (by decide)
  · refine unused 3 ?_
    rintro op ⟨-, loc, found⟩
    simp at found
  · rw [diagnostics, assemble_diagnostics_eq_walk]
    decide

end TwoPass
