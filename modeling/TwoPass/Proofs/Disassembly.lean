import Mathlib.Data.List.Forall2
import TwoPass.Disassembly
import TwoPass.Proofs.Codes

/-!
# Lines of a listing

A line is decoded on its own (`decoded`).  Its number only tells where an error
is, so a listing is disassembled if and only if each of its lines is decoded
(`disassemble_eq_ok_iff`).

The text of a code is decoded to its source (`decoded_text`).  Every other line
that is decoded spells the text of a code in another way
(`exists_code_of_decoded`): with more blanks, or with small hexadecimal digits.
`canonicalLine` is the one spelling that a listing has.
-/

namespace TwoPass

/-! ## Decoding without places -/

/-- The instruction of a line, or nothing if the line has no words. -/
def decoded (line : String) : Except DecodeError (Option String) :=
  match words line with
  | [] => .ok none
  | word :: operands => (decodeWords line word operands).map some

theorem decodeLine_eq_ok_iff {number : Nat} {line : String} {r : Option String} :
    decodeLine number line = .ok r ↔ decoded line = .ok r := by
  rw [decoded, ← tokens_value number line, decodeLine]
  cases tokens number line with
  | nil => simp
  | cons t ts =>
      simp only [List.map_cons]
      cases decodeWords line t.value (ts.map (·.value)) with
      | ok inst => simp [Except.map]
      | error e => simp [Except.map]

/-- An error of a line stands behind the blanks at its start. -/
theorem decodeLine_eq_error_iff {number : Nat} {line : String} {loc : Location} {e : DecodeError} :
    decodeLine number line = .error ⟨loc, e⟩ ↔
      decoded line = .error e ∧ loc = ⟨number, indent line + 1⟩ := by
  rw [decoded, ← tokens_value number line, decodeLine]
  cases hts : tokens number line with
  | nil => simp
  | cons t ts =>
      simp only [List.map_cons]
      rw [← loc_of_tokens_eq_cons hts]
      cases decodeWords line t.value (ts.map (·.value)) with
      | ok inst => simp [Except.map]
      | error e' => simp [Except.map, Located.replace, eq_comm, and_comm]

theorem bind_eq_ok_iff {α β ε : Type} {x : Except ε α} {f : α → Except ε β} {b : β} :
    x >>= f = .ok b ↔ ∃ a, x = .ok a ∧ f a = .ok b := by
  cases x with
  | error e =>
      constructor
      · rintro ⟨⟩
      · rintro ⟨a, ⟨⟩, -⟩
  | ok a =>
      constructor
      · intro h
        exact ⟨a, rfl, h⟩
      · rintro ⟨a', ⟨⟩, h⟩
        exact h

theorem mapM_eq_ok_iff {α β ε : Type} {f : α → Except ε β} :
    ∀ {l : List α} {rs : List β},
      l.mapM f = .ok rs ↔ List.Forall₂ (fun a r => f a = .ok r) l rs
  | [], rs => by
      rw [List.mapM_nil, List.forall₂_nil_left_iff]
      constructor
      · rintro ⟨⟩
        rfl
      · rintro rfl
        rfl
  | a :: l, rs => by
      rw [List.mapM_cons, List.forall₂_cons_left_iff]
      constructor
      · intro h
        obtain ⟨r, hr, h⟩ := bind_eq_ok_iff.mp h
        obtain ⟨rs', hrs, ⟨⟩⟩ := bind_eq_ok_iff.mp h
        exact ⟨r, rs', hr, mapM_eq_ok_iff.mp hrs, rfl⟩
      · rintro ⟨r, rs', hr, hrs, rfl⟩
        rw [hr, mapM_eq_ok_iff.mpr hrs]
        rfl

theorem mapM_cons_eq_error_iff {α β ε : Type} {f : α → Except ε β} {e : ε} {a : α} {l : List α} :
    (a :: l).mapM f = .error e ↔ f a = .error e ∨ (∃ r, f a = .ok r) ∧ l.mapM f = .error e := by
  rw [List.mapM_cons]
  cases f a with
  | error e' => simp [bind, Except.bind]
  | ok r => cases l.mapM f <;> simp [bind, Except.bind, pure, Except.pure]

/-- The error of a list is that of its first member with an error. -/
theorem mapM_eq_error_iff {α β ε : Type} {f : α → Except ε β} {e : ε} :
    ∀ {l : List α},
      l.mapM f = .error e ↔
        ∃ above a below, l = above ++ a :: below ∧ (∀ b ∈ above, ∃ r, f b = .ok r) ∧ f a = .error e
  | [] => by
      rw [List.mapM_nil]
      constructor
      · rintro ⟨⟩
      · rintro ⟨above, a, below, h, -⟩
        exact absurd h (by simp)
  | a :: l => by
      rw [mapM_cons_eq_error_iff, mapM_eq_error_iff]
      constructor
      · rintro (bad | ⟨fine, above, b, below, rfl, rest, bad⟩)
        · exact ⟨[], a, l, rfl, by simp, bad⟩
        · exact ⟨a :: above, b, below, rfl, List.forall_mem_cons.mpr ⟨fine, rest⟩, bad⟩
      · rintro ⟨above, b, below, hl, fine, bad⟩
        cases above with
        | nil =>
            obtain ⟨rfl, -⟩ := List.cons.inj hl
            exact Or.inl bad
        | cons c above =>
            obtain ⟨rfl, rfl⟩ := List.cons.inj hl
            obtain ⟨head, rest⟩ := List.forall_mem_cons.mp fine
            exact Or.inr ⟨head, above, b, below, rfl, rest, bad⟩

/-- The number of a line says nothing about what it is decoded to. -/
theorem mapM_zipIdx_eq_ok_iff {f : String × Nat → Except (Located DecodeError) (Option String)}
    (hf : ∀ line number, f (line, number) = decodeLine number line) {ls : List String}
    {rs : List (Option String)} :
    (ls.zipIdx 1).mapM f = .ok rs ↔ List.Forall₂ (fun line r => decoded line = .ok r) ls rs := by
  have numbered := List.zipIdx_map_fst 1 ls
  have perLine : ∀ line r, f line = .ok r ↔ decoded line.1 = .ok r := by
    rintro ⟨line, number⟩ r
    rw [hf, decodeLine_eq_ok_iff]
  rw [mapM_eq_ok_iff, ← numbered, List.forall₂_map_left_iff, numbered]
  simp only [perLine]

/-- A listing is disassembled line by line. -/
theorem disassemble_eq_ok_iff {listing source : String} :
    disassemble listing = .ok source ↔
      ∃ rs, List.Forall₂ (fun line r => decoded line = .ok r) (lines listing) rs ∧
        source = unlines (rs.filterMap id) := by
  rw [disassemble, bind_eq_ok_iff]
  constructor
  · rintro ⟨rs, hrs, ⟨⟩⟩
    exact ⟨rs, (mapM_zipIdx_eq_ok_iff fun _ _ => rfl).mp hrs, rfl⟩
  · rintro ⟨rs, hlines, rfl⟩
    exact ⟨rs, (mapM_zipIdx_eq_ok_iff fun _ _ => rfl).mpr hlines, rfl⟩

theorem bind_pure_eq_error_iff {α β ε : Type} {x : Except ε α} {g : α → β} {e : ε} :
    (x >>= fun a => pure (g a)) = .error e ↔ x = .error e := by
  cases x with
  | ok a => exact ⟨fun h => (by cases h), fun h => (by cases h)⟩
  | error e' => exact ⟨fun h => (by cases h; rfl), fun h => (by cases h; rfl)⟩

/-- A listing that cannot be disassembled has the error of its first line that
cannot be decoded. -/
theorem disassemble_eq_error_iff {listing : String} {loc : Location} {e : DecodeError} :
    disassemble listing = .error ⟨loc, e⟩ ↔
      ∃ above line below, lines listing = above ++ line :: below ∧
        (∀ l ∈ above, ∃ r, decoded l = .ok r) ∧ decoded line = .error e ∧
        loc = ⟨above.length + 1, indent line + 1⟩ := by
  rw [disassemble, bind_pure_eq_error_iff, mapM_eq_error_iff]
  constructor
  · rintro ⟨numbered, ⟨line, n⟩, later, cut, fine, bad⟩
    obtain ⟨above, rest, hlines, rfl, hrest⟩ := List.zipIdx_eq_append_iff.mp cut
    obtain ⟨line', below, rfl, hline, -⟩ := List.zipIdx_eq_cons_iff.mp hrest.symm
    obtain ⟨rfl, rfl⟩ := Prod.mk.inj hline
    obtain ⟨bad, hloc⟩ := decodeLine_eq_error_iff.mp bad
    refine ⟨above, line, below, hlines, ?_, bad, by rw [hloc, Nat.add_comm]⟩
    intro l hl
    have mem : l ∈ (above.zipIdx 1).map Prod.fst := by rwa [List.zipIdx_map_fst]
    obtain ⟨⟨l', m⟩, hmem, rfl⟩ := List.mem_map.mp mem
    obtain ⟨r, hr⟩ := fine _ hmem
    exact ⟨r, decodeLine_eq_ok_iff.mp hr⟩
  · rintro ⟨above, line, below, hlines, fine, bad, rfl⟩
    refine ⟨above.zipIdx 1, (line, 1 + above.length), below.zipIdx (1 + above.length + 1),
      ?_, ?_, ?_⟩
    · rw [hlines, List.zipIdx_append, List.zipIdx_cons]
    · rintro ⟨l, m⟩ hmem
      obtain ⟨r, hr⟩ := fine l (List.fst_mem_of_mem_zipIdx hmem)
      exact ⟨r, decodeLine_eq_ok_iff.mpr hr⟩
    · exact decodeLine_eq_error_iff.mpr ⟨bad, by rw [Nat.add_comm]⟩

/-! ## The spelling of opcodes -/

/-- A word with its ASCII letters in upper case. -/
def upperHex (word : String) : String := String.ofList (word.toList.map Char.toUpper)

theorem hexDigit?_lt {c : Char} {v : Nat} (h : hexDigit? c = some v) : v < 16 ∧ c.toNat < 0x67 := by
  rw [hexDigit?] at h
  split at h
  next digit =>
    have bounds := isDigit_iff.mp digit
    have zero : '0'.toNat = 0x30 := rfl
    cases h
    omega
  next =>
    split at h
    next lower =>
      have bounds : 0x61 ≤ c.toNat ∧ c.toNat ≤ 0x66 := by
        rw [Bool.and_eq_true, decide_eq_true_eq, decide_eq_true_eq] at lower
        exact lower
      have small : 'a'.toNat = 0x61 := rfl
      cases h
      omega
    next =>
      split at h
      next upper =>
        have bounds : 0x41 ≤ c.toNat ∧ c.toNat ≤ 0x46 := by
          rw [Bool.and_eq_true, decide_eq_true_eq, decide_eq_true_eq] at upper
          exact upper
        have capital : 'A'.toNat = 0x41 := rfl
        cases h
        omega
      next => cases h

/-- The words that spell the opcode of an operation. -/
def Operation.spellings : Operation → List String
  | load => ["01"]
  | store => ["02"]
  | add => ["03"]
  | sub => ["04"]
  | jump => ["05"]
  | halt => ["FF", "Ff", "fF", "ff"]

/-- A hexadecimal digit is the digit of its value, in either case. -/
theorem eq_digitChar_of_hexDigit? {c : Char} {v : Nat} (h : hexDigit? c = some v) :
    c = Nat.digitChar v ∨ c = (Nat.digitChar v).toUpper := by
  have table : ∀ n < 0x67, ∀ v < 16, hexDigit? (Char.ofNat n) = some v →
      Char.ofNat n = Nat.digitChar v ∨ Char.ofNat n = (Nat.digitChar v).toUpper := by decide
  obtain ⟨hv, hc⟩ := hexDigit?_lt h
  have spelled := table c.toNat hc v hv
  rw [Char.ofNat_toNat] at spelled
  exact spelled h

/-- A word is read as an opcode if and only if it is one of its spellings. -/
theorem opcodeWord?_eq_some_iff {word : String} {op : Operation} :
    opcodeWord? word = some op ↔ word ∈ op.spellings := by
  constructor
  · intro h
    obtain ⟨n, hbyte, hop⟩ := Option.bind_eq_some_iff.mp h
    have opcode := Operation.ofOpcode?_eq_some_iff.mp hop
    rw [hexByte?] at hbyte
    split at hbyte
    next hi lo hword =>
      obtain ⟨a, ha, hrest⟩ := Option.bind_eq_some_iff.mp hbyte
      obtain ⟨b, hb, hsum⟩ := Option.bind_eq_some_iff.mp hrest
      have value : 16 * a + b = op.opcode := by
        rw [opcode]
        exact Option.some.inj hsum
      have bound := (hexDigit?_lt ha).1
      have bound' := (hexDigit?_lt hb).1
      obtain rfl : a = op.opcode / 16 := by omega
      obtain rfl : b = op.opcode % 16 := by omega
      have spelled : word = String.ofList [hi, lo] := by rw [← hword, String.ofList_toList]
      rw [spelled]
      rcases eq_digitChar_of_hexDigit? ha with rfl | rfl <;>
        rcases eq_digitChar_of_hexDigit? hb with rfl | rfl <;> cases op <;> decide
    next => cases hbyte
  · intro h
    cases op <;> revert word <;> decide

/-- A word that is read as an opcode spells it, up to the case of its letters. -/
theorem upperHex_of_opcodeWord? {word : String} {op : Operation} (h : opcodeWord? word = some op) :
    upperHex word = hexadecimal 2 op.opcode := by
  have table : ∀ spelling ∈ op.spellings, upperHex spelling = hexadecimal 2 op.opcode := by
    cases op <;> decide
  exact table word (opcodeWord?_eq_some_iff.mp h)

theorem opcodeWord?_hexadecimal (op : Operation) :
    opcodeWord? (hexadecimal 2 op.opcode) = some op := by
  cases op <;> decide

/-! ## Codes and their sources -/

/-- The line of source that a code is disassembled to. -/
def Code.source : Code → String
  | .encoded op operand => op.name ++ " " ++ operand.text
  | .halt => Operation.halt.name
  | .unknown _ => unresolvedMarker

theorem isListingOperand_iff {word : String} :
    isListingOperand word = true ↔ word = unresolvedMarker ∨ isDecimal word = true := by
  simp [isListingOperand]

theorem words_encoded_text {op : Operation} {operand : Operand} (h : operand.WellFormed) :
    words (Code.encoded op operand).text = [hexadecimal 2 op.opcode, operand.text] := by
  exact words_pair (isWord_hexadecimal_opcode op) h.isWord_text

/-- The marker of an unknown instruction has three words. -/
theorem trim_ne_unknownMarker {line : String} (h : (words line).length ≠ 3) :
    (trim line == unknownMarker) = false := by
  rw [beq_eq_false_iff_ne]
  intro same
  apply h
  rw [← words_trim, same]
  decide

/-- The text of a code is decoded to its source. -/
theorem decoded_text {code : Code} (h : code.WellFormed) :
    decoded code.text = .ok (some code.source) := by
  cases code with
  | encoded op operand =>
      have ws : words (Code.encoded op operand).text = _ := words_encoded_text h.2
      have notMarker : (trim (Code.encoded op operand).text == unknownMarker) = false :=
        trim_ne_unknownMarker (by simp [ws])
      have valid : isListingOperand operand.text = true := isListingOperand_iff.mpr h.2.text_cases
      simp [decoded, ws, decodeWords, notMarker, opcodeWord?_hexadecimal, h.1, valid, Except.map,
        Code.source]
  | halt => rfl
  | unknown name =>
      show decoded unknownMarker = .ok (some unresolvedMarker)
      rfl

theorem decoded_eq_ok_none_iff {line : String} : decoded line = .ok none ↔ words line = [] := by
  rw [decoded]
  cases words line with
  | nil => simp
  | cons word operands =>
      simp only [reduceCtorEq, iff_false]
      cases decodeWords line word operands <;> simp [Except.map]

theorem decoded_eq_ok_some_iff {line inst : String} :
    decoded line = .ok (some inst) ↔
      ∃ word operands, words line = word :: operands ∧
        decodeWords line word operands = .ok inst := by
  rw [decoded]
  cases words line with
  | nil => simp
  | cons word operands => cases h : decodeWords line word operands <;> simp [h, Except.map]

theorem decoded_eq_error_iff {line : String} {e : DecodeError} :
    decoded line = .error e ↔
      ∃ word operands, words line = word :: operands ∧
        decodeWords line word operands = .error e := by
  rw [decoded]
  cases words line with
  | nil => simp
  | cons word operands => cases h : decodeWords line word operands <;> simp [h, Except.map]

/-- The one spelling of a line: its words with single spaces between them, and
the first one in upper case, unless it is the marker. -/
def canonicalLine (line : String) : String :=
  if trim line == unknownMarker then unknownMarker
  else
    match words line with
    | [] => ""
    | opcode :: operands => " ".intercalate (upperHex opcode :: operands)

theorem exists_operand_of_isListingOperand {word : String} (h : isListingOperand word = true) :
    ∃ operand : Operand, operand.WellFormed ∧ operand.text = word := by
  rcases isListingOperand_iff.mp h with rfl | decimal
  · exact ⟨.unresolved none, trivial, rfl⟩
  · exact ⟨.literal word, decimal, rfl⟩

theorem exists_code_of_decodeWords {line word inst : String} {operands : List String}
    (hwords : words line = word :: operands) (h : decodeWords line word operands = .ok inst) :
    ∃ code : Code, code.WellFormed ∧ code.source = inst ∧ code.text = canonicalLine line := by
  rw [decodeWords] at h
  split at h
  next marker =>
    cases h
    refine ⟨.unknown word, trivial, rfl, ?_⟩
    rw [canonicalLine, if_pos marker]
    rfl
  next notMarker =>
    have canonical : canonicalLine line = " ".intercalate (upperHex word :: operands) := by
      rw [canonicalLine, if_neg notMarker, hwords]
    split at h
    next => cases h
    next op hop =>
      have opcode := upperHex_of_opcodeWord? hop
      split at h
      next nullary =>
        cases h
        have halt := Operation.arity_eq_nullary_iff.mp nullary
        refine ⟨.halt, trivial, by rw [halt]; rfl, ?_⟩
        rw [canonical, opcode, halt, Code.text]
        simp
      next => cases h
      next operand address =>
        split at h
        next valid =>
          cases h
          obtain ⟨o, wellFormed, htext⟩ := exists_operand_of_isListingOperand valid
          refine ⟨.encoded op o, ⟨address, wellFormed⟩, by rw [Code.source, htext], ?_⟩
          rw [canonical, opcode, Code.text, htext]
          simp
        next => cases h
      next => cases h

/-- A line that is decoded spells the text of a code. -/
theorem exists_code_of_decoded {line inst : String} (h : decoded line = .ok (some inst)) :
    ∃ code : Code, code.WellFormed ∧ code.source = inst ∧ code.text = canonicalLine line := by
  obtain ⟨word, operands, hwords, hinst⟩ := decoded_eq_ok_some_iff.mp h
  exact exists_code_of_decodeWords hwords hinst

end TwoPass
