import TwoPass.Proofs.Layout
import TwoPass.Proofs.SourceGrammar
import TwoPass.Proofs.Encoding

/-!
# The spellings of an operation

An operation is asked for by its name in upper case, and upper case is taken
character by character.  So a name has more spellings than the two cases of its
letters.

* A letter is spelled by itself or by its lower case.
* `S` is also spelled by `U+017F`, the long `s`.
* `ST` is also spelled by one character, `U+FB05` or `U+FB06`.

These are all (`Spelling`).  No other character has letters of a name for its
upper case, except that `U+00DF` has `SS`, which stands in no name
(`upperChar_eq_iff`).  The letters that a word spells are cut in one way only,
character by character, so the spellings of a name follow by induction on the
word (`flatMap_upperChar_eq_iff`).

A word that spells no name still takes up an address, where the listing has a
marker (`spellings_recognised`).
-/

namespace TwoPass

/-! ## Characters -/

/-- A character spells some letters. -/
inductive SpelledBy : List Char → Char → Prop
  /-- A letter. -/
  | same (letter : Char) : SpelledBy [letter] letter
  /-- A letter in lower case. -/
  | lower (letter : Char) : SpelledBy [letter] letter.toLower
  /-- The long `s`. -/
  | long : SpelledBy ['S'] '\u017F'
  /-- The ligatures of the long `s` and the `s` with `t`. -/
  | ligature {c : Char} (h : c = '\uFB05' ∨ c = '\uFB06') : SpelledBy ['S', 'T'] c

/-- The letters of the names of operations. -/
def nameLetters : List Char := Operation.all.flatMap (·.name.toList)

/-- Some letters that can stand together in a name. -/
structure IsNamePart (part : List Char) : Prop where
  /-- They are letters of names. -/
  letters : ∀ d ∈ part, d ∈ nameLetters
  /-- No name has `SS`. -/
  single : ¬ ['S', 'S'] <:+: part

theorem isNamePart_name (op : Operation) : IsNamePart op.name.toList := by
  refine ⟨fun d hd => List.mem_flatMap.mpr ⟨op, op.mem_all, hd⟩, ?_⟩
  cases op <;> decide

theorem IsNamePart.of_infix {part name : List Char} (h : IsNamePart name)
    (inside : part <:+: name) : IsNamePart part :=
  ⟨fun d hd => h.letters d (inside.subset hd), fun double => h.single (double.trans inside)⟩

/-! ### The tables -/

theorem toLower_toUpper_of_ascii {c : Char} (ascii : c.toNat < 0x80) :
    c.toUpper = c ∨ c.toUpper.toLower = c := by
  have table : ∀ n < 0x80, (Char.ofNat n).toUpper = Char.ofNat n ∨
      (Char.ofNat n).toUpper.toLower = Char.ofNat n := by decide
  have code := table c.toNat ascii
  rwa [Char.ofNat_toNat] at code

/-- Two characters beyond `U+007F` have one ASCII letter as their upper case. -/
theorem caseRanges_ascii : ∀ r ∈ caseRanges, r.upper < 0x80 →
    r.first = r.last ∧ (r.last = 0x131 ∧ r.upper = 0x49 ∨ r.last = 0x17F ∧ r.upper = 0x53) := by
  decide +kernel

/-- Two characters have some letters of a name as their upper case, and one has
`SS`. -/
theorem specialUppercase_letters : ∀ p ∈ specialUppercase,
    (∀ u ∈ p.2, Char.ofNat u ∈ nameLetters) →
      (p.1 = 0xFB05 ∨ p.1 = 0xFB06) ∧ p.2 = [0x53, 0x54] ∨ p.2 = [0x53, 0x53] := by
  decide +kernel

theorem code_of_mem_nameLetters {n : Nat} (h : Char.ofNat n ∈ nameLetters) :
    n < 0x80 ∧ n ≠ 0x49 := by
  have table : nameLetters.all (fun d => d.toNat < 0x80 ∧ d.toNat ≠ 0x49 ∧ d ≠ '\x00') = true := by
    decide
  obtain ⟨ascii, other, ne⟩ := of_decide_eq_true (List.all_eq_true.mp table _ h)
  by_cases valid : n.isValidChar
  · have code : (Char.ofNat n).toNat = n := by
      rw [Char.ofNat, dif_pos valid]
      rfl
    rw [code] at ascii other
    exact ⟨ascii, other⟩
  · -- A number that is no character stands for the null character.
    rw [Char.ofNat, dif_neg valid] at ne
    exact absurd rfl ne

theorem upperChar_of_mem_nameLetters {d : Char} (h : d ∈ nameLetters) :
    upperChar d = [d] ∧ upperChar d.toLower = [d] := by
  have table : nameLetters.all (fun d => upperChar d = [d] ∧ upperChar d.toLower = [d]) = true := by
    decide
  exact of_decide_eq_true (List.all_eq_true.mp table d h)

/-! ### One character -/

theorem spelledBy_of_mem_specialUppercase {c : Char} {us : List Nat}
    (mem : (c.toNat, us) ∈ specialUppercase) (h : IsNamePart (us.map Char.ofNat)) :
    SpelledBy (us.map Char.ofNat) c := by
  have letters : ∀ u ∈ us, Char.ofNat u ∈ nameLetters := fun u hu =>
    h.letters _ (List.mem_map_of_mem hu)
  rcases specialUppercase_letters _ mem letters with ⟨place, rfl⟩ | rfl
  · exact .ligature (place.imp Char.toNat_inj.mp Char.toNat_inj.mp)
  · exact absurd (List.infix_refl _) h.single

theorem spelledBy_of_mem_caseRanges {c : Char} {r : CaseRange} (mem : r ∈ caseRanges)
    (inside : r.contains c.toNat = true)
    (h : Char.ofNat (r.upper + (c.toNat - r.first)) ∈ nameLetters) :
    SpelledBy [Char.ofNat (r.upper + (c.toNat - r.first))] c := by
  obtain ⟨ascii, other⟩ := code_of_mem_nameLetters h
  simp only [CaseRange.contains, Bool.and_eq_true, decide_eq_true_eq] at inside
  obtain ⟨single, dotless | long⟩ := caseRanges_ascii r mem (by omega)
  · omega
  · obtain rfl : c = '\u017F' := Char.toNat_inj.mp (show c.toNat = 0x17F by omega)
    rw [single, long.1, long.2]
    exact .long

/-- A character has some letters of a name as its upper case if and only if it
spells them. -/
theorem upperChar_eq_iff {c : Char} {part : List Char} (h : IsNamePart part) :
    upperChar c = part ↔ SpelledBy part c := by
  constructor
  · rintro rfl
    rw [upperChar] at h ⊢
    split_ifs at h ⊢ with ascii
    · rcases toLower_toUpper_of_ascii ascii with same | lower
      · rw [same]
        exact .same c
      · have spelled := SpelledBy.lower c.toUpper
        rwa [lower] at spelled
    · rw [wideUppercase] at h ⊢
      split at h
      next us special =>
        obtain ⟨before, after, cut, -⟩ := List.lookup_eq_some_iff.mp special
        have mem : (c.toNat, us) ∈ specialUppercase := by
          rw [cut]
          exact List.mem_append_right _ List.mem_cons_self
        exact spelledBy_of_mem_specialUppercase mem h
      next =>
        split at h
        next r found =>
          have inside := List.find?_some found
          exact spelledBy_of_mem_caseRanges (List.mem_of_find?_eq_some found) inside
            (h.letters _ List.mem_cons_self)
        next => exact .same c
  · intro spelled
    cases spelled with
    | same => exact (upperChar_of_mem_nameLetters (h.letters _ List.mem_cons_self)).1
    | lower => exact (upperChar_of_mem_nameLetters (h.letters _ List.mem_cons_self)).2
    | long => decide
    | ligature place => rcases place with rfl | rfl <;> decide

/-! ## Words -/

/-- The characters of a word spell some letters, cut into as many parts. -/
inductive Spelling : List Char → List Char → Prop
  /-- No letters. -/
  | nil : Spelling [] []
  /-- The letters of the first character, and the rest. -/
  | cons {part letters cs : List Char} {c : Char} (first : SpelledBy part c)
      (rest : Spelling letters cs) : Spelling (part ++ letters) (c :: cs)

theorem flatMap_upperChar_eq_iff {cs letters : List Char} (h : IsNamePart letters) :
    cs.flatMap upperChar = letters ↔ Spelling letters cs := by
  induction cs generalizing letters with
  | nil =>
      constructor
      · rintro rfl
        exact .nil
      · intro spelling
        cases spelling
        rfl
  | cons c cs ih =>
      rw [List.flatMap_cons]
      constructor
      · rintro rfl
        have front := h.of_infix (List.prefix_append (upperChar c) _).isInfix
        have behind := h.of_infix (List.suffix_append _ (cs.flatMap upperChar)).isInfix
        exact .cons ((upperChar_eq_iff front).mp rfl) ((ih behind).mp rfl)
      · intro spelling
        cases spelling with
        | @cons part letters _ _ first rest =>
            have front := h.of_infix (List.prefix_append part _).isInfix
            have behind := h.of_infix (List.suffix_append _ letters).isInfix
            rw [(upperChar_eq_iff front).mpr first, (ih behind).mpr rest]

/-- A word spells the name of an operation. -/
def Operation.IsSpelled (op : Operation) (word : String) : Prop :=
  Spelling op.name.toList word.toList

theorem Operation.isSpelled_iff {op : Operation} {word : String} :
    op.IsSpelled word ↔ uppercase word = op.name := by
  rw [Operation.IsSpelled, ← flatMap_upperChar_eq_iff (isNamePart_name op), uppercase,
    ← String.toList_inj, String.toList_ofList]

theorem Operation.ofName?_uppercase_eq_some_iff {op : Operation} {word : String} :
    Operation.ofName? (uppercase word) = some op ↔ op.IsSpelled word := by
  rw [ofName?_eq_some_iff, isSpelled_iff, eq_comm]

instance (op : Operation) (word : String) : Decidable (op.IsSpelled word) :=
  decidable_of_iff' _ Operation.isSpelled_iff

example : Operation.sub.IsSpelled "\u017FuB" ∧ Operation.store.IsSpelled "\uFB05Ore" := by decide
example : ∀ op ∈ Operation.all, ¬ op.IsSpelled "\u00DFub" := by decide

/-! ## Lines of two words -/

/-- A word that asks for an operation: no comment and no label. -/
structure IsCall (word : String) : Prop where
  /-- It is a word. -/
  isWord : IsWord word
  /-- It starts no comment. -/
  comment : ¬ StartsComment word
  /-- It does not end in a colon. -/
  label : ∀ name, word ≠ name ++ ":"

section

variable {word operand : String}

theorem tokens_pair (hword : IsWord word) (hoperand : IsWord operand) :
    ∃ place, tokens 1 (word ++ " " ++ operand) = [⟨⟨1, 1⟩, word⟩, ⟨place, operand⟩] := by
  have values := tokens_value 1 (word ++ " " ++ operand)
  rw [words_pair hword hoperand] at values
  match found : tokens 1 (word ++ " " ++ operand), values with
  | [t, u], values =>
      obtain ⟨rfl, last⟩ := List.cons.inj values
      obtain ⟨rfl, -⟩ := List.cons.inj last
      have first : t.loc = ⟨1, 1⟩ := by
        obtain ⟨c, cs, chars⟩ := List.exists_cons_of_ne_nil hword.ne_empty
        have visible : isBlank c = false := hword.not_blank c (chars ▸ List.mem_cons_self)
        rw [loc_of_tokens_eq_cons found]
        simp [indent, Scan.blankSize, chars, visible]
      exact ⟨u.loc, by rw [← first]⟩

/-- With one word behind it a call is one instruction, and no word is ignored. -/
theorem IsCall.lineSays (h : IsCall word) (place : Location) (operand : String) :
    LineSays 1 [⟨⟨1, 1⟩, word⟩, ⟨place, operand⟩]
      [⟨⟨1, 1⟩, .instruction ⟨uppercase word, some operand⟩⟩] [] := by
  have behind : Ignores [operand] 0 := by
    by_cases comment : StartsComment operand
    · exact .comment comment
    · exact @Ignores.behind operand [] [] comment (by simp) (by simp)
  exact @LineSays.instruction 1 [] [] ⟨⟨1, 1⟩, word⟩ [⟨place, operand⟩] 0 .nil h.comment h.label
    behind

/-- Its code is that under the empty table. -/
theorem IsCall.assemble_eq (h : IsCall word) (hoperand : IsWord operand) :
    let code := Instruction.encode ∅ ⟨uppercase word, some operand⟩
    (assemble (word ++ " " ++ operand)).entries = [⟨0, ⟨1, 1⟩, code⟩] ∧
    (assemble (word ++ " " ++ operand)).diagnostics =
      (code.problem?.map (Located.mk ⟨1, 1⟩)).toList := by
  intro code
  obtain ⟨place, cut⟩ := tokens_pair h.isWord hoperand
  obtain ⟨said, kept⟩ := (h.lineSays place operand).eq
  have line : sourceLines (word ++ " " ++ operand) =
      [⟨1, [⟨⟨1, 1⟩, word⟩, ⟨place, operand⟩]⟩] := by
    rw [sourceLines, lines_eq_singleton (newline_not_mem_pair h.isWord hoperand), ← cut]
    rfl
  have whole : statements (sourceLines (word ++ " " ++ operand)) =
      [⟨⟨1, 1⟩, .instruction ⟨uppercase word, some operand⟩⟩] := by
    rw [line, statements, List.flatMap_singleton, said]
  have surplus : surplusWarnings (sourceLines (word ++ " " ++ operand)) = [] := by
    rw [line, surplusWarnings_eq_flatMap, List.flatMap_singleton, kept]
  have entries_eq : (assemble (word ++ " " ++ operand)).entries = [⟨0, ⟨1, 1⟩, code⟩] := by
    rw [assemble_entries, assemble_symbols, whole]
    rfl
  refine ⟨entries_eq, ?_⟩
  have problems_eq : problems [⟨0, ⟨1, 1⟩, code⟩] =
      (code.problem?.map (Located.mk ⟨1, 1⟩)).toList := by
    rw [problems, List.filterMap_cons, List.filterMap_nil]
    cases code.problem? <;> rfl
  rw [assemble_diagnostics, entries_eq, problems_eq, surplus, whole]
  cases code.problem? with
  | none => simp [sortDiagnostics, duplicateWarnings, Binding.run, Binding.step]
  | some d => simp [sortDiagnostics, duplicateWarnings, Binding.run, Binding.step]

end

/-! ## Recognition -/

section

variable {word operand : String} {op : Operation}

theorem opcode?_encode_name (symbols : SymbolTable) (op : Operation) (operand : Option String) :
    (Instruction.encode symbols ⟨op.name, operand⟩).opcode? = some op.opcode := by
  rw [Instruction.encode, Operation.ofName?_name]
  dsimp only
  cases arity : op.arity with
  | nullary => rw [Operation.arity_eq_nullary_iff.mp arity]; rfl
  | address => rfl

theorem exists_text_eq_of_opcode? {code : Code} (h : code.opcode? = some op.opcode) :
    ∃ rest, code.text = hexadecimal 2 op.opcode ++ rest := by
  cases code with
  | encoded other operand =>
      rw [← Option.some.inj h]
      exact ⟨" " ++ operand.text, String.append_assoc⟩
  | halt =>
      rw [← Option.some.inj h]
      exact ⟨"", String.append_empty.symm⟩
  | unknown name => cases h

/-- No opcode starts like the marker. -/
theorem opcode_ne_unknownMarker (op : Operation) (rest : String) :
    unlines [hexadecimal 2 op.opcode ++ rest] ≠ unlines [unknownMarker] := by
  intro same
  have digits : '?' ∉ (hexadecimal 2 op.opcode).toList :=
    not_mem_hexadecimal (by decide) (by decide) _
  obtain ⟨c, cs, chars⟩ := List.exists_cons_of_ne_nil (isWord_hexadecimal_opcode op).ne_empty
  rw [unlines_cons, unlines_cons, ← String.toList_inj] at same
  simp only [String.toList_append, chars, List.cons_append] at same
  have first : c = '?' := (List.cons.inj same).1
  rw [chars, first] at digits
  exact digits List.mem_cons_self

/-- On a line with an operand a word gets the code of the operation whose name it
spells.  The code is that of the name in capitals, so it is the same for all its
spellings.  A word that spells no name gets the marker and the error that goes
with it. -/
theorem spellings_recognised (h : IsCall word) (hoperand : IsWord operand) :
    let listing := assemble (word ++ " " ++ operand)
    (listing.text ≠ unlines [unknownMarker] ↔ ∃ op : Operation, op.IsSpelled word) ∧
    (∀ op : Operation, op.IsSpelled word → ∃ code rest,
      listing.entries = [⟨0, ⟨1, 1⟩, code⟩] ∧ Encodes ∅ ⟨op.name, some operand⟩ code ∧
      code.opcode? = some op.opcode ∧ listing.text = unlines [hexadecimal 2 op.opcode ++ rest]) ∧
    ((∀ op : Operation, ¬ op.IsSpelled word) → listing.text = unlines [unknownMarker] ∧
      listing.diagnostics = [⟨⟨1, 1⟩, .unknownInstruction (uppercase word)⟩]) := by
  intro listing
  obtain ⟨entries_eq, diagnostics_eq⟩ := h.assemble_eq hoperand
  have text_eq : listing.text =
      unlines [(Instruction.encode ∅ ⟨uppercase word, some operand⟩).text] := by
    rw [Listing.text, entries_eq]
    rfl
  have known : ∀ op : Operation, op.IsSpelled word → ∃ code rest,
      listing.entries = [⟨0, ⟨1, 1⟩, code⟩] ∧ Encodes ∅ ⟨op.name, some operand⟩ code ∧
      code.opcode? = some op.opcode ∧ listing.text = unlines [hexadecimal 2 op.opcode ++ rest] := by
    intro op spelled
    rw [Operation.isSpelled_iff.mp spelled] at entries_eq text_eq
    have opcode := opcode?_encode_name ∅ op (some operand)
    obtain ⟨rest, code_text⟩ := exists_text_eq_of_opcode? opcode
    exact ⟨_, rest, entries_eq, encodes_iff.mpr rfl, opcode, by rw [text_eq, code_text]⟩
  have unknown : (∀ op : Operation, ¬ op.IsSpelled word) → listing.text = unlines [unknownMarker] ∧
      listing.diagnostics = [⟨⟨1, 1⟩, .unknownInstruction (uppercase word)⟩] := by
    intro other
    have none : Operation.ofName? (uppercase word) = none := by
      cases found : Operation.ofName? (uppercase word) with
      | none => rfl
      | some op => exact absurd (Operation.ofName?_uppercase_eq_some_iff.mp found) (other op)
    have code : Instruction.encode ∅ ⟨uppercase word, some operand⟩ = .unknown (uppercase word) := by
      rw [Instruction.encode, none]
    rw [code] at text_eq diagnostics_eq
    exact ⟨text_eq, diagnostics_eq⟩
  refine ⟨⟨?_, ?_⟩, known, unknown⟩
  · intro marked
    by_contra other
    exact marked (unknown fun op spelled => other ⟨op, spelled⟩).1
  · rintro ⟨op, spelled⟩
    obtain ⟨code, rest, -, -, -, text⟩ := known op spelled
    rw [text]
    exact opcode_ne_unknownMarker op rest

/-- A ligature spells two letters of a name, and the line is no marker. -/
theorem spellings_recognised_of_ligature :
    IsCall "\uFB06ore" ∧ IsWord "5" ∧ Operation.store.IsSpelled "\uFB06ore" ∧
      (assemble ("\uFB06ore" ++ " " ++ "5")).text ≠ unlines [unknownMarker] := by
  have call : IsCall "\uFB06ore" := by
    refine ⟨by decide, ?_, fun name ends => ?_⟩
    · rw [← isComment_iff]
      decide
    · exact absurd (beforeColon?_eq_some_iff.mpr ends) (by simp [beforeColon?])
  have operand : IsWord "5" := by decide
  have spelled : Operation.store.IsSpelled "\uFB06ore" := by decide
  exact ⟨call, operand, spelled, (spellings_recognised call operand).1.mpr ⟨.store, spelled⟩⟩

end

end TwoPass
