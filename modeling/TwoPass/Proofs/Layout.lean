import Mathlib.Logic.Relation
import TwoPass.Proofs.Meaning

/-!
# Layout

How a source is laid out does not matter (`assemble_layout`).  `LayoutEdit` lists
the edits of one place.

* In a line, blanks are exchanged for other blanks, or put at one of its ends.
  A carriage return is a blank, so this covers the two ends of line.
* A comment is put at the end of a line.
* The letters of an instruction name are written in the other case.
* A line without a statement that matters is put between two lines.
* A line is broken behind labels it starts with.

Each of them leaves what the source means (`LayoutEdit.sourceMeaning_eq`).  Most
leave the words of their line.  A comment can become the operand of the
instruction before it, but it means no more there than a missing operand
(`meaning_append_comment`).
-/

namespace TwoPass

/-! ## Blanks between words -/

/-- One or more blanks. -/
structure IsGap (gap : String) : Prop where
  /-- There is a character. -/
  ne_empty : gap.toList ≠ []
  /-- Every character is blank. -/
  blank : ∀ c ∈ gap.toList, isBlank c = true

theorem words_empty : words "" = [] := by decide

theorem append_eq_ofList (left right : String) :
    left ++ right = String.ofList (left.toList ++ right.toList) := by
  rw [String.ofList_append, String.ofList_toList, String.ofList_toList]

theorem words_gap_append {gap : String} (h : IsGap gap) (right : String) :
    words (gap ++ right) = words right := by
  rw [append_eq_ofList, words_blanks_append h.blank, String.ofList_toList]

theorem words_append_gap {gap : String} (h : IsGap gap) (left : String) :
    words (left ++ gap) = words left := by
  rw [append_eq_ofList, words_append_blanks h.blank, String.ofList_toList]

theorem words_append_of_startsBlank {right : String} (h : StartsBlank right) (left : String) :
    words (left ++ right) = words left ++ words right := by
  cases hright : right.toList with
  | nil =>
      have empty : right = "" := String.toList_eq_nil_iff.mp hright
      rw [empty, String.append_empty, words_empty, List.append_nil]
  | cons c cs =>
      have blank : isBlank c = true := h c (by rw [hright]; rfl)
      have rest : words right = words (String.ofList cs) := by
        have dropped := words_append_blank blank [] cs
        rw [List.nil_append, ← hright, String.ofList_toList] at dropped
        exact dropped
      rw [append_eq_ofList, hright, words_append_blank blank, String.ofList_toList, rest]

theorem words_append_of_endsBlank {left : String} (h : EndsBlank left) (right : String) :
    words (left ++ right) = words left ++ words right := by
  rcases List.eq_nil_or_concat left.toList with hleft | ⟨cs, c, hleft⟩
  · have empty : left = "" := String.toList_eq_nil_iff.mp hleft
    rw [empty, String.empty_append, words_empty, List.nil_append]
  · rw [List.concat_eq_append] at hleft
    have blank : isBlank c = true := h c (by rw [hleft, List.getLast?_concat]; rfl)
    have first : words left = words (String.ofList cs) := by
      have dropped := words_append_blank blank cs []
      rw [← hleft, String.ofList_toList] at dropped
      rw [dropped]
      exact List.append_nil _
    rw [append_eq_ofList, hleft, List.append_assoc, List.singleton_append,
      words_append_blank blank, String.ofList_toList, first]

theorem IsGap.startsBlank_append {gap : String} (h : IsGap gap) (right : String) :
    StartsBlank (gap ++ right) := by
  intro c hc
  rw [String.toList_append, List.head?_append_of_ne_nil _ h.ne_empty] at hc
  exact h.blank c (List.mem_of_mem_head? hc)

/-- Which blanks stand between words does not matter. -/
theorem IsGap.words_append {gap : String} (h : IsGap gap) (left right : String) :
    words (left ++ gap ++ right) = words left ++ words right := by
  rw [String.append_assoc, words_append_of_startsBlank (h.startsBlank_append right),
    words_gap_append h]

/-- The words of a comment start with a comment. -/
theorem exists_words_of_isComment {comment : String} (h : isComment comment = true) :
    ∃ word rest, words comment = word :: rest ∧ isComment word = true := by
  obtain ⟨cs, hcs⟩ := List.head?_eq_some_iff.mp (beq_iff_eq.mp h)
  have keep : isBlank ';' = false := by decide
  rw [words, hcs, pieces_cons_keep keep]
  cases hpieces : pieces isBlank cs with
  | nil => exact absurd hpieces (pieces_ne_nil cs)
  | cons piece pieces =>
      refine ⟨String.ofList (';' :: piece), _, rfl, ?_⟩
      rw [isComment, String.toList_ofList]
      rfl

/-! ## Comments and labels in the meaning of a line -/

theorem surplus_append_comment {comment : String} (h : isComment comment = true) (word : String)
    (ws rest : List String) : surplus (word :: (ws ++ comment :: rest)) = surplus (word :: ws) := by
  cases ws with
  -- The comment is in place of the operand, so nothing counts behind it.
  | nil => simp [surplus, h]
  | cons operand ws =>
      have stops : (ws ++ comment :: rest).takeWhile (! isComment ·) =
          ws.takeWhile (! isComment ·) := by
        rw [List.takeWhile_append, List.takeWhile_cons_of_neg (by simp [h]), List.append_nil]
        split
        next full => exact (List.takeWhile_prefix _).eq_of_length full |>.symm
        next => rfl
      rw [List.cons_append, surplus, surplus, stops]

/-- A comment behind some words adds nothing to what they mean. -/
theorem meaning_append_comment {comment : String} (h : isComment comment = true)
    (ws rest : List String) : meaning (ws ++ comment :: rest) = meaning ws := by
  induction ws with
  | nil => exact meaning_comment h
  | cons word ws ih =>
      rw [List.cons_append]
      cases comment' : isComment word with
      | true => rw [meaning_comment comment', meaning_comment comment']
      | false =>
          cases colon : beforeColon? word with
          | some name => rw [meaning_label comment' colon, meaning_label comment' colon, ih]
          | none =>
              -- The comment can be the operand now, but only where there was none.
              have operand : Instruction.bare ⟨uppercase word, (ws ++ comment :: rest).head?⟩ =
                  Instruction.bare ⟨uppercase word, ws.head?⟩ := by
                cases ws with
                | nil => exact Instruction.bare_of_isComment _ h
                | cons other ws => rfl
              rw [meaning_instruction comment' colon, meaning_instruction comment' colon, operand,
                surplus_append_comment h]

/-- Labels at the start of a line mean the same on a line of their own. -/
theorem meaning_labels_append {ls : List String} (h : ∀ label ∈ ls, isLabel label = true)
    (rest : List String) : meaning (ls ++ rest) = meaning ls ++ meaning rest := by
  induction ls with
  | nil => rfl
  | cons label ls ih =>
      obtain ⟨comment, name, colon⟩ := isLabel_iff.mp (h label List.mem_cons_self)
      rw [List.cons_append, meaning_label comment colon, meaning_label comment colon,
        ih fun l hl => h l (List.mem_cons_of_mem _ hl), List.cons_append]

/-! ## The case of letters -/

/-- Whether a character is between `A` and `z`, as all ASCII letters are. -/
def NearLetter (c : Char) : Prop := 0x41 ≤ c.toNat ∧ c.toNat ≤ 0x7A

theorem toNat_toUpper (c : Char) :
    c.toUpper.toNat = if 0x61 ≤ c.toNat ∧ c.toNat ≤ 0x7A then c.toNat - 0x20 else c.toNat := by
  have range : ('a'.val ≤ c.val ∧ c.val ≤ 'z'.val) ↔ (0x61 ≤ c.toNat ∧ c.toNat ≤ 0x7A) := Iff.rfl
  delta Char.toUpper
  split
  next lower =>
    have bounds : 0x61 ≤ c.val.toNat ∧ c.val.toNat ≤ 0x7A := range.mp lower
    have shift : ('A'.val - 'a'.val).toNat = 2 ^ 32 - 0x20 := by decide
    rw [if_pos (range.mp lower)]
    show (c.val + ('A'.val - 'a'.val)).toNat = c.val.toNat - 0x20
    rw [UInt32.toNat_add]
    omega
  next other => rw [if_neg fun h => other (range.mpr h)]

/-- Two characters with one upper case are equal, or both near the letters. -/
theorem eq_or_nearLetter_of_toUpper_eq {c d : Char} (h : c.toUpper = d.toUpper) :
    c = d ∨ NearLetter c ∧ NearLetter d := by
  have codes := congrArg Char.toNat h
  rw [toNat_toUpper, toNat_toUpper] at codes
  by_cases same : c.toNat = d.toNat
  · exact Or.inl (Char.toNat_inj.mp same)
  · refine Or.inr ?_
    rw [NearLetter, NearLetter]
    split at codes <;> split at codes <;> omega

theorem upperChar_congr {c d : Char} (h : c.toUpper = d.toUpper) : upperChar c = upperChar d := by
  rcases eq_or_nearLetter_of_toUpper_eq h with rfl | ⟨hc, hd⟩
  · rfl
  · rw [NearLetter] at hc hd
    rw [upperChar, upperChar, if_pos (by omega), if_pos (by omega), h]

theorem isBlank_congr {c d : Char} (h : c.toUpper = d.toUpper) : isBlank c = isBlank d := by
  have letter : ∀ e : Char, NearLetter e → isBlank e = false := by
    intro e he
    rw [NearLetter] at he
    simp only [isBlank, blankRanges, List.any_cons, List.any_nil, Bool.or_false,
      Bool.or_eq_false_iff, Bool.and_eq_false_iff, decide_eq_false_iff_not]
    omega
  rcases eq_or_nearLetter_of_toUpper_eq h with rfl | ⟨hc, hd⟩
  · rfl
  · rw [letter c hc, letter d hd]

/-- Changing the case of letters neither makes nor removes a mark. -/
theorem beq_mark_congr (mark : Char) (small : mark.toNat < 0x41) {o p : Option Char}
    (h : o.map Char.toUpper = p.map Char.toUpper) : (o == some mark) = (p == some mark) := by
  have away : ∀ e : Char, NearLetter e → (some e == some mark) = false := by
    intro e he
    rw [beq_eq_false_iff_ne]
    intro same
    rw [Option.some.inj same, NearLetter] at he
    omega
  cases o with
  | none =>
      cases p with
      | none => rfl
      | some d => cases h
  | some c =>
      cases p with
      | none => cases h
      | some d =>
          rcases eq_or_nearLetter_of_toUpper_eq (Option.some.inj h) with rfl | ⟨hc, hd⟩
          · rfl
          · rw [away c hc, away d hd]

/-- Two words that differ in the case of ASCII letters only. -/
def SameLetters (word other : String) : Prop :=
  word.toList.map Char.toUpper = other.toList.map Char.toUpper

namespace SameLetters

variable {word other : String}

theorem uppercase_eq (h : SameLetters word other) : uppercase word = uppercase other := by
  have each : ∀ {cs ds : List Char}, cs.map Char.toUpper = ds.map Char.toUpper →
      cs.flatMap upperChar = ds.flatMap upperChar := by
    intro cs
    induction cs with
    | nil =>
        intro ds h
        rw [List.map_eq_nil_iff.mp h.symm]
    | cons c cs ih =>
        intro ds h
        cases ds with
        | nil => cases h
        | cons d ds =>
            obtain ⟨head, tail⟩ := List.cons.inj h
            rw [List.flatMap_cons, List.flatMap_cons, upperChar_congr head, ih tail]
  rw [uppercase, uppercase, each h]

theorem isWord (h : SameLetters word other) (hword : IsWord word) : IsWord other := by
  refine ⟨?_, ?_⟩
  · intro empty
    rw [SameLetters, empty] at h
    exact hword.ne_empty (List.map_eq_nil_iff.mp h)
  · intro d hd
    have mem : d.toUpper ∈ word.toList.map Char.toUpper := h ▸ List.mem_map_of_mem hd
    obtain ⟨c, hc, hcd⟩ := List.mem_map.mp mem
    rw [← isBlank_congr hcd]
    exact hword.not_blank c hc

theorem isComment_eq (h : SameLetters word other) : isComment word = isComment other := by
  have heads := congrArg List.head? h
  rw [List.head?_map, List.head?_map] at heads
  exact beq_mark_congr ';' (by decide) heads

theorem isLabel_eq (h : SameLetters word other) : isLabel word = isLabel other := by
  have lasts := congrArg List.getLast? h
  rw [List.getLast?_map, List.getLast?_map] at lasts
  have colon := beq_mark_congr ':' (by decide) lasts
  rw [isLabel, isLabel, h.isComment_eq, beforeColon?, beforeColon?, colon]
  split <;> rfl

/-- The case of the letters of an instruction name does not matter. -/
theorem meaning_cons (h : SameLetters word other) (comment : isComment word = false)
    (label : isLabel word = false) (rest : List String) :
    meaning (word :: rest) = meaning (other :: rest) := by
  have colon := beforeColon?_eq_none comment label
  have ignored : surplus (word :: rest) = surplus (other :: rest) := by cases rest <;> rfl
  rw [h.isLabel_eq] at label
  have comment' := comment
  rw [h.isComment_eq] at comment'
  rw [meaning_instruction comment colon,
    meaning_instruction comment' (beforeColon?_eq_none comment' label), h.uppercase_eq, ignored]

end SameLetters

/-! ## Edits -/

/-- An edit inside a line. -/
inductive LineEdit : String → String → Prop
  /-- Blanks are exchanged for other blanks. -/
  | blanks {gap other : String} (h : IsGap gap) (h' : IsGap other) (left right : String) :
      LineEdit (left ++ gap ++ right) (left ++ other ++ right)
  /-- Blanks are put at the start. -/
  | indent {gap : String} (h : IsGap gap) (line : String) : LineEdit line (gap ++ line)
  /-- Blanks are put at the end. -/
  | trail {gap : String} (h : IsGap gap) (line : String) : LineEdit line (line ++ gap)
  /-- Blanks and a comment are put at the end. -/
  | comment {gap : String} (h : IsGap gap) {comment : String} (hc : isComment comment = true)
      (line : String) : LineEdit line (line ++ gap ++ comment)
  /-- The letters of the instruction name behind the labels change their case. -/
  | name (left word other right : String) (labels : ∀ label ∈ words left, isLabel label = true)
      (before : EndsBlank left) (after : StartsBlank right) (hword : IsWord word)
      (hc : isComment word = false) (hl : isLabel word = false) (letters : SameLetters word other) :
      LineEdit (left ++ word ++ right) (left ++ other ++ right)

/-- An edit at one place of a source. -/
inductive LayoutEdit : String → String → Prop
  /-- A line is edited. -/
  | line {source edited line other : String} (above below : List String)
      (edit : LineEdit line other) (hs : lines source = above ++ line :: below)
      (he : lines edited = above ++ other :: below) : LayoutEdit source edited
  /-- A line is put in that is blank or starts with a comment. -/
  | insert {source edited : String} (above below : List String) (line : String)
      (idle : ∀ word ∈ (words line).head?, isComment word = true)
      (hs : lines source = above ++ below) (he : lines edited = above ++ line :: below) :
      LayoutEdit source edited
  /-- A line is broken behind labels it starts with. -/
  | wrap {source edited : String} (above below : List String) (left right : String)
      (labels : ∀ label ∈ words left, isLabel label = true) (after : StartsBlank right)
      (hs : lines source = above ++ (left ++ right) :: below)
      (he : lines edited = above ++ left :: right :: below) : LayoutEdit source edited

/-- An edit inside a line leaves what it means. -/
theorem LineEdit.meaning_eq {line other : String} (h : LineEdit line other) :
    meaning (words other) = meaning (words line) := by
  cases h with
  | blanks h h' left right => rw [h.words_append, h'.words_append]
  | indent h line => rw [words_gap_append h]
  | trail h line => rw [words_append_gap h]
  | comment h hc line =>
      obtain ⟨word, rest, hwords, hcomment⟩ := exists_words_of_isComment hc
      rw [h.words_append, hwords, meaning_append_comment hcomment]
  | name left word other right labels before after hword hc hl letters =>
      rw [words_append_of_startsBlank after, words_append_of_startsBlank after,
        words_append_of_endsBlank before, words_append_of_endsBlank before, hword.words_eq,
        (letters.isWord hword).words_eq, List.append_assoc, List.append_assoc,
        meaning_labels_append labels, meaning_labels_append labels, List.singleton_append,
        List.singleton_append, letters.meaning_cons hc hl]

theorem meaning_eq_nil_of_idle {ws : List String}
    (idle : ∀ word ∈ ws.head?, isComment word = true) : meaning ws = [] := by
  cases ws with
  | nil => rfl
  | cons word rest => exact meaning_comment (idle word rfl)

/-- An edit leaves what a source means. -/
theorem LayoutEdit.sourceMeaning_eq {source edited : String} (h : LayoutEdit source edited) :
    sourceMeaning edited = sourceMeaning source := by
  cases h with
  | line above below edit hs he =>
      rw [sourceMeaning, sourceMeaning, hs, he, List.flatMap_append, List.flatMap_append,
        List.flatMap_cons, List.flatMap_cons, edit.meaning_eq]
  | insert above below line idle hs he =>
      rw [sourceMeaning, sourceMeaning, hs, he, List.flatMap_append, List.flatMap_append,
        List.flatMap_cons, meaning_eq_nil_of_idle idle, List.nil_append]
  | wrap above below left right labels after hs he =>
      rw [sourceMeaning, sourceMeaning, hs, he, List.flatMap_append, List.flatMap_append,
        List.flatMap_cons, List.flatMap_cons, List.flatMap_cons, words_append_of_startsBlank after,
        meaning_labels_append labels, List.append_assoc]

/-! ## The listing -/

/-- Any edits of the layout, there or back, leave the text of the listing, the
table and the severities of the diagnostics, and so whether there are errors. -/
theorem assemble_layout {source edited : String} (h : Relation.EqvGen LayoutEdit source edited) :
    (assemble edited).text = (assemble source).text ∧
      (assemble edited).symbols = (assemble source).symbols ∧
      (assemble edited).diagnostics.map (·.value.severity) =
        (assemble source).diagnostics.map (·.value.severity) ∧
      (assemble edited).hasErrors = (assemble source).hasErrors := by
  have same : sourceMeaning edited = sourceMeaning source := by
    induction h with
    | rel source edited edit => exact edit.sourceMeaning_eq
    | refl source => rfl
    | symm source edited _ ih => exact ih.symm
    | trans source middle edited _ _ first second => exact second.trans first
  obtain ⟨text, table, severities⟩ := assemble_eq_of_sourceMeaning_eq same
  refine ⟨text, table, severities, ?_⟩
  rw [hasErrors_eq_any_severity, hasErrors_eq_any_severity, severities]

/-- A label gets a line of its own, and its instruction other letters and a
comment that stands where the operand would. -/
theorem assemble_layout_of_load :
    Relation.EqvGen LayoutEdit "A: load" "A:\n\n LOAD\t;5" ∧
      (assemble "A:\n\n LOAD\t;5").text = "01 ??\n" ∧
      (assemble "A:\n\n LOAD\t;5").hasErrors = (assemble "A: load").hasErrors := by
  have wrapped : LayoutEdit "A: load" "A:\n load" :=
    .wrap [] [] "A:" " load" (by decide) (by rintro c ⟨⟩; decide) (by decide) (by decide)
  have named : LayoutEdit "A:\n load" "A:\n LOAD" :=
    .line ["A:"] [] (.name " " "load" "LOAD" "" (by decide) (by rintro c ⟨⟩; decide)
      (by rintro c ⟨⟩) (by decide) (by decide) (by decide) (by unfold SameLetters; decide))
      (by decide) (by decide)
  have tab : IsGap "\t" := by
    refine ⟨by decide, ?_⟩
    intro c hc
    obtain rfl := List.mem_singleton.mp hc
    decide
  have comment : isComment ";5" = true := by decide
  have commented : LayoutEdit "A:\n LOAD" "A:\n LOAD\t;5" :=
    .line ["A:"] [] (.comment tab comment " LOAD") (by decide) (by decide)
  have inserted : LayoutEdit "A:\n LOAD\t;5" "A:\n\n LOAD\t;5" :=
    .insert ["A:"] [" LOAD\t;5"] "" (by rintro c ⟨⟩) (by decide) (by decide)
  have edits : Relation.EqvGen LayoutEdit "A: load" "A:\n\n LOAD\t;5" :=
    ((((Relation.EqvGen.rel _ _ wrapped).trans _ _ _ (.rel _ _ named)).trans _ _ _
      (.rel _ _ commented)).trans _ _ _ (.rel _ _ inserted))
  obtain ⟨text, -, -, errors⟩ := assemble_layout edits
  refine ⟨edits, ?_, errors⟩
  rw [text]
  decide

end TwoPass
