import TwoPass.Proofs.Addresses
import TwoPass.Proofs.Codes
import TwoPass.Proofs.Renumbering

/-!
# Two sources in a row

A source that is put behind another one is relocated (`assemble_append_newline`).

* Its statements stand further down, by the lines of the first source.
* Its labels and its entries have higher addresses, by the instructions of the
  first source.  A label of both sources is that of the second.
* Each instruction has its code under the common table.

The code of an instruction depends on the words it refers to and on nothing else
in the table (`Instruction.encode_eq_relocate`).  So the first source keeps its
text unless the second defines a word that the first refers to, and the second
keeps its text, up to the addresses of its labels, unless the first defines a
word that the second leaves open.
-/

namespace TwoPass

/-! ## Statements further down -/

/-- The place `k` lines further down. -/
def Location.down (k : Nat) (a : Location) : Location := { a with line := a.line + k }

/-- A value `k` lines further down. -/
def Located.down {α : Type} (k : Nat) (x : Located α) : Located α := { x with loc := x.loc.down k }

/-- A line `k` lines further down. -/
def Line.down (k : Nat) (ln : Line) : Line := ⟨ln.number + k, ln.tokens.map (Located.down k)⟩

theorem sourceLines_append_newline (first second : String) :
    sourceLines (first ++ "\n" ++ second) =
      sourceLines first ++ (sourceLines second).map (Line.down (lines first).length) := by
  have behind : (numbered 1 (lines second)).map (Line.renumber (· + (lines first).length)) =
      numbered (1 + (lines first).length) (lines second) := by
    apply map_renumber_numbered
    intro i _
    omega
  rw [sourceLines_eq_numbered, lines_append_newline, numbered_append, ← behind]
  rfl

theorem statements_append_newline (first second : String) :
    statements (sourceLines (first ++ "\n" ++ second)) =
      statements (sourceLines first) ++
        (statements (sourceLines second)).map (Located.down (lines first).length) := by
  have behind := statements_renumber (· + (lines first).length) (sourceLines second)
  rw [sourceLines_append_newline, statements, List.flatMap_append]
  exact congrArg (statements (sourceLines first) ++ ·) behind

/-! ## The common table -/

/-- A label of the second part has its address behind the first part, and any
other label has that of the first part. -/
theorem get?_ofStatements_append (ss ts : List (Located Statement)) (label : String) :
    (SymbolTable.ofStatements (ss ++ ts)).get? label =
      (((SymbolTable.ofStatements ts).get? label).map (· + ss.countP (·.value.isInstruction))).or
        ((SymbolTable.ofStatements ss).get? label) := by
  by_cases defined : ∃ t ∈ ts, t.value = .label label
  -- The last definition in the second part is the last one in both.
  · obtain ⟨before, definition, after, cut⟩ := exists_lastDefinition defined
    have whole : LastDefinition (ss ++ ts) label (ss ++ before) definition after :=
      ⟨by rw [cut.split, List.append_assoc], cut.defines, cut.last⟩
    rw [whole.get?, cut.get?, List.countP_append, Nat.add_comm]
    rfl
  · have none : ∀ t ∈ ts, t.value ≠ .label label := fun t ht he => defined ⟨t, ht, he⟩
    rw [get?_ofStatements_eq_none none, SymbolTable.ofStatements, Binding.run, List.foldl_append,
      Binding.foldl_get?_of_not_label none]
    rfl

theorem ofStatements_down (k : Nat) (ss : List (Located Statement)) :
    SymbolTable.ofStatements (ss.map (Located.down k)) = SymbolTable.ofStatements ss :=
  ofStatements_renumber (· + k) ss

/-! ## Entries at higher addresses -/

/-- An entry `n` addresses higher, of an instruction `k` lines further down. -/
def Entry.shift (n k : Nat) (e : Entry) : Entry :=
  { e with address := e.address + n, loc := e.loc.down k }

theorem map_text_shift (n k : Nat) (es : List Entry) :
    (es.map (Entry.shift n k)).map (·.code.text) = es.map (·.code.text) := by
  rw [List.map_map]
  rfl

theorem instructions_down (k : Nat) (ss : List (Located Statement)) :
    instructions (ss.map (Located.down k)) = (instructions ss).map (Located.down k) :=
  instructions_renumber (· + k) ss

/-- The entries of two parts are numbered through. -/
theorem entries_append_down (symbols : SymbolTable) (ss ts : List (Located Statement)) (k : Nat) :
    entries symbols (ss ++ ts.map (Located.down k)) =
      entries symbols ss ++
        (entries symbols ts).map (Entry.shift (ss.countP (·.value.isInstruction)) k) := by
  have length : (instructions ss).length = ss.countP (·.value.isInstruction) := by
    rw [← length_entries symbols ss, entries, List.length_map, List.length_zipIdx]
  have parts : instructions (ss ++ ts.map (Located.down k)) =
      instructions ss ++ (instructions ts).map (Located.down k) := by
    rw [← instructions_down, instructions, List.filterMap_append]
    rfl
  rw [entries, parts, List.zipIdx_append, List.map_append, length, Nat.zero_add, entries, entries,
    List.zipIdx_map, List.zipIdx_eq_map_add (i := ss.countP _), List.map_map, List.map_map,
    List.map_map]
  congr 1
  refine List.map_congr_left ?_
  intro p _
  simp only [Function.comp_apply, Entry.shift, Entry.mk.injEq]
  exact ⟨Nat.add_comm _ _, rfl, rfl⟩

/-! ## Codes under another table -/

/-- An operand whose label is `n` addresses higher. -/
def Operand.relocate (n : Nat) : Operand → Operand
  | .label name address => .label name (address + n)
  | operand => operand

/-- A code whose label, if it has one, is `n` addresses higher. -/
def Code.relocate (n : Nat) : Code → Code
  | .encoded op operand => .encoded op (operand.relocate n)
  | code => code

/-- An instruction refers to its operand if the operation takes an address and
the operand is no numeral. -/
def Instruction.RefersTo (inst : Instruction) (word : String) : Prop :=
  (∃ op, Operation.ofName? inst.name = some op ∧ op.arity = .address) ∧
    inst.operand = some word ∧ isDecimal word = false

/-- A table with higher addresses for the words that an instruction refers to
gives it the code with the higher address. -/
theorem Instruction.encode_eq_relocate {inst : Instruction} {t u : SymbolTable} {n : Nat}
    (h : ∀ word, inst.RefersTo word → t.get? word = (u.get? word).map (· + n)) :
    inst.encode t = (inst.encode u).relocate n := by
  obtain ⟨name, operand⟩ := inst
  simp only [encode]
  cases hop : Operation.ofName? name with
  | none => rfl
  | some op =>
      simp only
      cases harity : op.arity with
      | nullary => rfl
      | address =>
          cases operand with
          | none => rfl
          | some word =>
              simp only [Operand.resolve, Code.relocate]
              cases hword : isDecimal word with
              | true => rfl
              | false =>
                  rw [h word ⟨⟨op, hop, harity⟩, rfl, hword⟩]
                  cases u.get? word <;> rfl

theorem Operand.relocate_zero (operand : Operand) : operand.relocate 0 = operand := by
  cases operand <;> rfl

theorem Code.relocate_zero (code : Code) : code.relocate 0 = code := by
  cases code with
  | encoded op operand => rw [relocate, Operand.relocate_zero]
  | halt => rfl
  | unknown name => rfl

/-- The code of an instruction depends on the words it refers to. -/
theorem Instruction.encode_congr {inst : Instruction} {t u : SymbolTable}
    (h : ∀ word, inst.RefersTo word → t.get? word = u.get? word) :
    inst.encode t = inst.encode u := by
  have relocated : inst.encode t = (inst.encode u).relocate 0 := by
    apply encode_eq_relocate
    intro word refers
    rw [h word refers, Option.map_congr (fun _ _ => Nat.add_zero _), Option.map_id']
  rw [relocated, Code.relocate_zero]

/-- A word that an instruction refers to and that is no label is left open. -/
theorem Instruction.encode_of_get?_eq_none {inst : Instruction} {symbols : SymbolTable}
    {word : String} (refers : inst.RefersTo word) (unbound : symbols.get? word = none) :
    ∃ op, inst.encode symbols = .encoded op (.unresolved (some word)) := by
  obtain ⟨⟨op, hop, harity⟩, hword, hdecimal⟩ := refers
  exact ⟨op, by simp [encode, hop, harity, hword, Operand.resolve, hdecimal, unbound]⟩

theorem entries_text (symbols : SymbolTable) (ss : List (Located Statement)) :
    (entries symbols ss).map (·.code.text) =
      (instructions ss).map fun inst => (inst.value.encode symbols).text := by
  have codes := congrArg (List.map Code.text) (entries_code symbols ss)
  rw [List.map_map, List.map_map] at codes
  exact codes

section Tables

variable {t u : SymbolTable} {ss : List (Located Statement)}

/-- The text of some entries under a table that agrees on what they refer to. -/
theorem entries_text_congr (h : ∀ inst ∈ instructions ss, ∀ word, inst.value.RefersTo word →
      t.get? word = u.get? word) :
    (entries t ss).map (·.code.text) = (entries u ss).map (·.code.text) := by
  rw [entries_text, entries_text]
  refine List.map_congr_left ?_
  intro inst hinst
  rw [Instruction.encode_congr (h inst hinst)]

/-- The text of some entries under a table with higher addresses for what they
refer to. -/
theorem entries_text_relocate {n : Nat} (h : ∀ inst ∈ instructions ss, ∀ word,
      inst.value.RefersTo word → t.get? word = (u.get? word).map (· + n)) :
    (entries t ss).map (·.code.text) = (entries u ss).map fun e => (e.code.relocate n).text := by
  have codes := congrArg (List.map fun code => (Code.relocate n code).text) (entries_code u ss)
  rw [List.map_map, List.map_map] at codes
  refine Eq.trans ?_ codes.symm
  rw [entries_text]
  refine List.map_congr_left ?_
  intro inst hinst
  rw [Instruction.encode_eq_relocate (h inst hinst)]
  rfl

/-- What holds of all words that are left open holds of a word that is referred
to and is no label. -/
theorem get?_eq_none_of_open (apart : ∀ e ∈ entries u ss, ∀ op word,
      e.code = .encoded op (.unresolved (some word)) → t.get? word = none)
    {inst : Located Instruction} (hinst : inst ∈ instructions ss) {word : String}
    (refers : inst.value.RefersTo word) (unbound : u.get? word = none) : t.get? word = none := by
  obtain ⟨op, hop⟩ := Instruction.encode_of_get?_eq_none refers unbound
  have mem := List.mem_map_of_mem (f := fun i : Located Instruction => i.value.encode u) hinst
  rw [← entries_code] at mem
  obtain ⟨e, he, hcode⟩ := List.mem_map.mp mem
  exact apart e he op word (hcode.trans hop)

end Tables

/-! ## Both sources -/

/-- Two sources in a row.  The second stands further down and at higher
addresses, and all instructions have their code under the common table.  The
first keeps its text if the second defines no word that the first refers to, and
the second keeps its text up to the addresses of its labels if the first defines
no word that the second leaves open. -/
theorem assemble_append_newline (first second : String) :
    statements (sourceLines (first ++ "\n" ++ second)) =
      statements (sourceLines first) ++
        (statements (sourceLines second)).map (Located.down (lines first).length) ∧
    let listing := assemble (first ++ "\n" ++ second)
    let front := assemble first
    let back := assemble second
    let ss := statements (sourceLines first)
    let ts := statements (sourceLines second)
    let n := front.entries.length
    let k := (lines first).length
    (∀ label, listing.symbols.get? label =
      ((back.symbols.get? label).map (· + n)).or (front.symbols.get? label)) ∧
    listing.entries =
      entries listing.symbols ss ++ (entries listing.symbols ts).map (Entry.shift n k) ∧
    ((∀ inst ∈ instructions ss, ∀ word, inst.value.RefersTo word → back.symbols.get? word = none) →
      unlines ((lines listing.text).take n) = front.text) ∧
    ((∀ e ∈ back.entries, ∀ op word, e.code = .encoded op (.unresolved (some word)) →
        front.symbols.get? word = none) →
      (lines listing.text).drop n =
        back.entries.map (fun e => (e.code.relocate n).text) ++ [""]) := by
  have joined := statements_append_newline first second
  refine ⟨joined, ?_⟩
  intro listing front back ss ts n k
  have length : ss.countP (·.value.isInstruction) = n := by
    rw [← length_entries front.symbols ss, ← assemble_entries]
  have table : ∀ label, listing.symbols.get? label =
      ((back.symbols.get? label).map (· + n)).or (front.symbols.get? label) := by
    intro label
    rw [assemble_symbols, joined, get?_ofStatements_append, ofStatements_down, length,
      ← assemble_symbols, ← assemble_symbols]
  have listed : listing.entries =
      entries listing.symbols ss ++ (entries listing.symbols ts).map (Entry.shift n k) := by
    rw [assemble_entries, joined, entries_append_down, length]
  have texts : lines listing.text = (entries listing.symbols ss).map (·.code.text) ++
      ((entries listing.symbols ts).map (·.code.text) ++ [""]) := by
    rw [lines_text, listed, List.map_append, map_text_shift, List.append_assoc]
  have cut : ((entries listing.symbols ss).map (·.code.text)).length = n := by
    rw [List.length_map, length_entries, length]
  refine ⟨table, listed, ?_, ?_⟩
  · intro apart
    have agree : ∀ inst ∈ instructions ss, ∀ word, inst.value.RefersTo word →
        listing.symbols.get? word = front.symbols.get? word := by
      intro inst hinst word refers
      rw [table, apart inst hinst word refers, Option.map_none, Option.none_or]
    rw [texts, List.take_left' cut, entries_text_congr agree, Listing.text, assemble_entries]
  · intro apart
    rw [assemble_entries] at apart
    have higher : ∀ inst ∈ instructions ts, ∀ word, inst.value.RefersTo word →
        listing.symbols.get? word = (back.symbols.get? word).map (· + n) := by
      intro inst hinst word refers
      rw [table]
      -- A word that is no label of the second source is left open there.
      cases hback : back.symbols.get? word with
      | some address => rfl
      | none => rw [get?_eq_none_of_open apart hinst refers hback, Option.map_none, Option.none_or]
    rw [texts, List.drop_left' cut, entries_text_relocate higher, assemble_entries]

/-- A source with a loop behind one with a jump.  The word that the second
leaves open stays open. -/
theorem assemble_append_newline_of_loop :
    let listing := assemble ("A: JMP B\nB: HLT" ++ "\n" ++ "C: JMP C\nLOAD X")
    unlines ((lines listing.text).take 2) = "05 1\nFF\n" ∧
      (lines listing.text).drop 2 = ["05 2", "01 ??", ""] := by
  intro listing
  have parts := assemble_append_newline "A: JMP B\nB: HLT" "C: JMP C\nLOAD X"
  obtain ⟨-, -, -, first, second⟩ := parts
  refine ⟨?_, ?_⟩
  · refine (first ?_).trans (by decide)
    have insts : instructions (statements (sourceLines "A: JMP B\nB: HLT")) =
        [⟨⟨1, 4⟩, ⟨"JMP", some "B"⟩⟩, ⟨⟨2, 4⟩, ⟨"HLT", none⟩⟩] := by decide
    rw [insts]
    intro inst hinst word refers
    have operand := refers.2.1
    rcases List.mem_cons.mp hinst with rfl | hlast
    · obtain rfl := Option.some.inj operand
      decide
    · rw [List.mem_singleton.mp hlast] at operand
      cases operand
  · refine (second ?_).trans (by decide)
    have es : (assemble "C: JMP C\nLOAD X").entries =
        [⟨0, ⟨1, 4⟩, .encoded .jump (.label "C" 0)⟩,
          ⟨1, ⟨2, 1⟩, .encoded .load (.unresolved (some "X"))⟩] := by decide
    rw [es]
    intro e he op word hcode
    rcases List.mem_cons.mp he with rfl | hlast
    · cases hcode
    · rw [List.mem_singleton.mp hlast] at hcode
      cases hcode
      decide

end TwoPass
