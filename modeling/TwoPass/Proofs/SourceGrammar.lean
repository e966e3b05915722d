import Mathlib.Data.List.Forall2
import TwoPass.Proofs.Walk

/-!
# The grammar of a source

What a line of source says is given by four rules (`LineSays`).  The labels at
its start each define one name.  Behind them stands nothing, a comment, or an
instruction, and a line without words is one blank.  The rules speak of how
words start and end, and place each statement at the word it starts with.

Every word of a line has a part in its rule: it is a label, the name of an
instruction, its operand, one of the words that are ignored behind the operand
(`Ignores`), or in a comment.  So no rule passes a word over.

The rules fit exactly what the assembler reads in a line (`lineSays_iff`), and it
reads a source line by line (`statements_account`).
-/

namespace TwoPass

/-! ## Words -/

/-- A word that starts a comment. -/
def StartsComment (word : String) : Prop := ∃ rest, word = ";" ++ rest

/-- A word that defines a label: the name of the label and a colon. -/
structure DefinesLabel (word name : String) : Prop where
  /-- The last character is taken off, and no other. -/
  colon : word = name ++ ":"
  /-- A comment defines no label. -/
  plain : ¬ StartsComment word

theorem isComment_iff {word : String} : isComment word = true ↔ StartsComment word := by
  rw [isComment, beq_iff_eq, List.head?_eq_some_iff]
  constructor
  · rintro ⟨cs, hcs⟩
    refine ⟨String.ofList cs, ?_⟩
    rw [← String.toList_inj, hcs]
    simp
  · rintro ⟨rest, rfl⟩
    exact ⟨rest.toList, by simp⟩

theorem beforeColon?_eq_some_iff {word name : String} :
    beforeColon? word = some name ↔ word = name ++ ":" := by
  rw [beforeColon?]
  constructor
  · intro h
    split at h
    next colon =>
      obtain ⟨cs, hcs⟩ := List.getLast?_eq_some_iff.mp (beq_iff_eq.mp colon)
      rw [hcs, List.dropLast_concat] at h
      obtain rfl := Option.some.inj h
      rw [← String.toList_inj, hcs]
      simp
    next => cases h
  · rintro rfl
    simp

theorem isLabel_iff_definesLabel {word : String} :
    isLabel word = true ↔ ∃ name, DefinesLabel word name := by
  rw [isLabel_iff]
  constructor
  · rintro ⟨comment, name, colon⟩
    refine ⟨name, beforeColon?_eq_some_iff.mp colon, ?_⟩
    rw [← isComment_iff, comment]
    exact Bool.false_ne_true
  · rintro ⟨name, colon, plain⟩
    rw [← isComment_iff, Bool.not_eq_true] at plain
    exact ⟨plain, name, beforeColon?_eq_some_iff.mpr colon⟩

theorem DefinesLabel.ofWords {word name : String} (h : DefinesLabel word name) :
    Statement.ofWords [word] = .label name := by
  have comment : isComment word = false := by
    rw [← Bool.not_eq_true, isComment_iff]
    exact h.plain
  simp [Statement.ofWords, comment, beforeColon?_eq_some_iff.mpr h.colon]

/-! ## The rules -/

/-- How many of the words behind the name of an instruction are ignored. -/
inductive Ignores : List String → Nat → Prop
  /-- There is no operand. -/
  | missing : Ignores [] 0
  /-- A comment stands in place of the operand. -/
  | comment {word : String} {rest : List String} (h : StartsComment word) :
      Ignores (word :: rest) 0
  /-- The words behind the operand are ignored, as far as the next comment. -/
  | behind {operand : String} {extra rest : List String} (h : ¬ StartsComment operand)
      (plain : ∀ word ∈ extra, ¬ StartsComment word)
      (stop : ∀ word ∈ rest.head?, StartsComment word) :
      Ignores (operand :: (extra ++ rest)) extra.length

/-- A token that defines a label, and its statement. -/
def SaysLabel (t : Token) (s : Located Statement) : Prop :=
  ∃ name, DefinesLabel t.value name ∧ s = ⟨t.loc, .label name⟩

/-- What the tokens of a line say: its statements, and a warning if words are
ignored. -/
inductive LineSays (number : Nat) :
    List Token → List (Located Statement) → List (Located Diagnostic) → Prop
  /-- A line without words is one blank, at its first column. -/
  | blank : LineSays number [] [⟨⟨number, 1⟩, .blank⟩] []
  /-- A line can hold labels only. -/
  | labels {ls : List Token} {defs : List (Located Statement)} (ne_nil : ls ≠ [])
      (h : List.Forall₂ SaysLabel ls defs) : LineSays number ls defs []
  /-- A comment goes on to the end of the line. -/
  | comment {ls : List Token} {defs : List (Located Statement)} {t : Token} {rest : List Token}
      (h : List.Forall₂ SaysLabel ls defs) (comment : StartsComment t.value) :
      LineSays number (ls ++ t :: rest) (defs ++ [⟨t.loc, .comment⟩]) []
  /-- Any other word names an instruction, and the next word is its operand. -/
  | instruction {ls : List Token} {defs : List (Located Statement)} {t : Token}
      {rest : List Token} {ignored : Nat} (h : List.Forall₂ SaysLabel ls defs)
      (plain : ¬ StartsComment t.value) (name : ∀ label, t.value ≠ label ++ ":")
      (behind : Ignores (rest.map (·.value)) ignored) :
      LineSays number (ls ++ t :: rest)
        (defs ++ [⟨t.loc, .instruction ⟨uppercase t.value, (rest.map (·.value)).head?⟩⟩])
        (if ignored = 0 then [] else [⟨t.loc, .extraTokens (uppercase t.value) ignored⟩])

/-! ## The rules and the words that are ignored -/

theorem ignores_iff (word : String) {rest : List String} {ignored : Nat} :
    Ignores rest ignored ↔ surplus (word :: rest) = ignored := by
  constructor
  · intro h
    cases h with
    | missing => rfl
    | comment h => rw [surplus, if_pos (isComment_iff.mpr h)]
    | @behind operand extra rest h plain stop =>
        have all : ∀ w ∈ extra, (! isComment w) = true := by
          intro w hw
          rw [Bool.not_eq_true', ← Bool.not_eq_true, isComment_iff]
          exact plain w hw
        have stopped : rest.takeWhile (! isComment ·) = [] := by
          cases rest with
          | nil => rfl
          | cons w rest =>
              have comment := isComment_iff.mpr (stop w rfl)
              exact List.takeWhile_cons_of_neg (by simp [comment])
        rw [surplus, if_neg (by rw [isComment_iff]; exact h), List.takeWhile_append_of_pos all,
          stopped, List.append_nil]
  · rintro rfl
    cases rest with
    | nil => exact .missing
    | cons operand rest =>
        rw [surplus]
        split
        next comment => exact .comment (isComment_iff.mp comment)
        next plain =>
          have cut := List.takeWhile_append_dropWhile (p := (! isComment ·)) (l := rest)
          have behind : Ignores (operand :: (rest.takeWhile (! isComment ·) ++
              rest.dropWhile (! isComment ·))) (rest.takeWhile (! isComment ·)).length := by
            refine .behind (by rwa [← isComment_iff]) ?_ ?_
            · intro w hw
              have keep := List.all_eq_true.mp List.all_takeWhile w hw
              rw [← isComment_iff, Bool.not_eq_true]
              simpa using keep
            · intro w hw
              have stop := List.head?_dropWhile_not (! isComment ·) rest
              rw [hw] at stop
              rw [← isComment_iff]
              simpa using stop
          rwa [cut] at behind

/-! ## The rules and the reading of a line -/

section

variable {n : Nat} {ls ts : List Token} {defs : List (Located Statement)}

/-- Labels are taken off a line one by one. -/
theorem statements_labels_append (h : List.Forall₂ SaysLabel ls defs) (ne_nil : ts ≠ []) :
    (Line.mk n (ls ++ ts)).statements = defs ++ (Line.mk n ts).statements ∧
      (Line.mk n (ls ++ ts)).warning? = (Line.mk n ts).warning? := by
  induction h with
  | nil => exact ⟨rfl, rfl⟩
  | @cons t s ls defs hs h ih =>
      obtain ⟨name, defines, rfl⟩ := hs
      have label : isLabel t.value = true := isLabel_iff_definesLabel.mpr ⟨name, defines⟩
      obtain ⟨u, us, hus⟩ :=
        List.exists_cons_of_ne_nil (List.append_ne_nil_of_right_ne_nil ls ne_nil)
      rw [List.cons_append, hus, Line.statements_label_cons label, Line.warning?_label_cons label,
        ← hus, ih.1, ih.2, defines.ofWords]
      exact ⟨rfl, rfl⟩

theorem statements_labels (h : List.Forall₂ SaysLabel ls defs) (ne_nil : ls ≠ []) :
    (Line.mk n ls).statements = defs ∧ (Line.mk n ls).warning? = none := by
  induction h with
  | nil => exact absurd rfl ne_nil
  | @cons t s ls defs hs h ih =>
      obtain ⟨name, defines, rfl⟩ := hs
      have label : isLabel t.value = true := isLabel_iff_definesLabel.mpr ⟨name, defines⟩
      cases ls with
      | nil =>
          obtain rfl := List.forall₂_nil_left_iff.mp h
          rw [Line.statements_label label, Line.warning?_label label, defines.ofWords]
          exact ⟨rfl, rfl⟩
      | cons u us =>
          obtain ⟨statements, warning⟩ := ih (List.cons_ne_nil u us)
          rw [Line.statements_label_cons label, Line.warning?_label_cons label, statements, warning,
            defines.ofWords]
          exact ⟨rfl, rfl⟩

theorem forall₂_saysLabel (h : ∀ t ∈ ls, isLabel t.value = true) :
    ∃ defs, List.Forall₂ SaysLabel ls defs := by
  induction ls with
  | nil => exact ⟨[], .nil⟩
  | cons t ls ih =>
      obtain ⟨defs, fits⟩ := ih fun u hu => h u (List.mem_cons_of_mem _ hu)
      obtain ⟨name, defines⟩ := isLabel_iff_definesLabel.mp (h t List.mem_cons_self)
      exact ⟨_, .cons ⟨name, defines, rfl⟩ fits⟩

/-- Some rule fits every line. -/
theorem exists_lineSays (n : Nat) (ts : List Token) : ∃ ss ws, LineSays n ts ss ws := by
  have cut := List.takeWhile_append_dropWhile (p := (isLabel ·.value)) (l := ts)
  have labels : ∀ t ∈ ts.takeWhile (isLabel ·.value), isLabel t.value = true :=
    List.all_eq_true.mp List.all_takeWhile
  obtain ⟨defs, fits⟩ := forall₂_saysLabel labels
  cases body : ts.dropWhile (isLabel ·.value) with
  | nil =>
      rw [body, List.append_nil] at cut
      rw [cut] at fits
      cases ts with
      | nil => exact ⟨_, _, .blank⟩
      | cons t ts => exact ⟨_, _, .labels (List.cons_ne_nil t ts) fits⟩
  | cons t rest =>
      rw [body] at cut
      have stop : isLabel t.value = false := by
        have head := List.head?_dropWhile_not (isLabel ·.value) ts
        rwa [body] at head
      rw [← cut]
      by_cases comment : StartsComment t.value
      · exact ⟨_, _, .comment fits comment⟩
      · refine ⟨_, _, .instruction fits comment ?_ ((ignores_iff t.value).mpr rfl)⟩
        intro label colon
        have defines : isLabel t.value = true :=
          isLabel_iff_definesLabel.mpr ⟨label, colon, comment⟩
        exact absurd defines (by simp [stop])

/-- A line says what the assembler reads in it. -/
theorem LineSays.eq {ss : List (Located Statement)} {ws : List (Located Diagnostic)}
    (h : LineSays n ts ss ws) :
    (Line.mk n ts).statements = ss ∧ (Line.mk n ts).warning?.toList = ws := by
  cases h with
  | blank => exact ⟨rfl, rfl⟩
  | labels ne_nil h =>
      obtain ⟨statements, warning⟩ := statements_labels (n := n) h ne_nil
      rw [statements, warning]
      exact ⟨rfl, rfl⟩
  | @comment ls defs t rest h comment =>
      have plain : isLabel t.value = false := by simp [isLabel, isComment_iff.mpr comment]
      obtain ⟨statements, warning⟩ :=
        statements_labels_append (n := n) h (List.cons_ne_nil t rest)
      rw [statements, warning, Line.statements_body plain, Line.warning?_body plain]
      simp [Reading.ofWords, Reading.warning?, Statement.ofWords, isComment_iff.mpr comment,
        Located.replace]
  | @instruction ls defs t rest ignored h plain name behind =>
      have comment : isComment t.value = false := by
        rw [← Bool.not_eq_true, isComment_iff]
        exact plain
      have label : isLabel t.value = false := by
        rw [← Bool.not_eq_true, isLabel_iff_definesLabel]
        rintro ⟨name', defines⟩
        exact name name' defines.colon
      obtain ⟨statements, warning⟩ :=
        statements_labels_append (n := n) h (List.cons_ne_nil t rest)
      rw [statements, warning, Line.statements_body label, Line.warning?_body label, List.map_cons,
        Reading.ofWords, Statement.ofWords_instruction comment label,
        (ignores_iff t.value).mp behind]
      cases ignored <;> exact ⟨rfl, rfl⟩

/-- The rules fit exactly what the assembler reads in a line. -/
theorem lineSays_iff {ss : List (Located Statement)} {ws : List (Located Diagnostic)} :
    LineSays n ts ss ws ↔
      (Line.mk n ts).statements = ss ∧ (Line.mk n ts).warning?.toList = ws := by
  constructor
  · exact LineSays.eq
  · rintro ⟨rfl, rfl⟩
    obtain ⟨ss, ws, fits⟩ := exists_lineSays n ts
    rw [fits.eq.1, fits.eq.2]
    exact fits

/-! ## How many statements a line has -/

theorem countP_label_of_saysLabel (h : List.Forall₂ SaysLabel ls defs) :
    defs.countP (·.value.label?.isNone) = 0 := by
  induction h with
  | nil => rfl
  | cons hs _ ih =>
      obtain ⟨name, -, rfl⟩ := hs
      rw [List.countP_cons_of_neg (by simp [Statement.label?]), ih]

/-- A line has a statement, and at most one that defines no label. -/
theorem LineSays.count {ss : List (Located Statement)} {ws : List (Located Diagnostic)}
    (h : LineSays n ts ss ws) : ss ≠ [] ∧ ss.countP (·.value.label?.isNone) ≤ 1 := by
  cases h with
  | blank => exact ⟨List.cons_ne_nil _ _, Nat.le_refl 1⟩
  | labels ne_nil h =>
      refine ⟨?_, Nat.le_trans (Nat.le_of_eq (countP_label_of_saysLabel h)) (Nat.zero_le 1)⟩
      rintro rfl
      exact ne_nil (List.forall₂_nil_right_iff.mp h)
  | comment h =>
      rw [List.countP_append, countP_label_of_saysLabel h, Nat.zero_add]
      exact ⟨List.append_ne_nil_of_right_ne_nil _ (List.cons_ne_nil _ _), List.countP_le_length⟩
  | instruction h =>
      rw [List.countP_append, countP_label_of_saysLabel h, Nat.zero_add]
      exact ⟨List.append_ne_nil_of_right_ne_nil _ (List.cons_ne_nil _ _), List.countP_le_length⟩

end

/-! ## All lines -/

theorem surplusWarnings_eq_flatMap (ls : List Line) :
    surplusWarnings ls = ls.flatMap (·.warning?.toList) := by
  rw [surplusWarnings, List.filterMap_eq_flatMap_toList]

/-- A source is read line by line.  Each line says what the rules make of its
tokens and nothing else, which is at least one statement and at most one that
defines no label.  The statements of all lines stand in the order of the
text. -/
theorem statements_account (source : String) :
    (∃ parts : List (List (Located Statement) × List (Located Diagnostic)),
      List.Forall₂ (fun line part =>
          (∀ ss ws, LineSays line.2 (tokens line.2 line.1) ss ws ↔ part = (ss, ws)) ∧
            part.1 ≠ [] ∧ part.1.countP (·.value.label?.isNone) ≤ 1)
        ((lines source).zipIdx 1) parts ∧
      statements (sourceLines source) = parts.flatMap (·.1) ∧
      surplusWarnings (sourceLines source) = parts.flatMap (·.2)) ∧
    (statements (sourceLines source)).Pairwise fun a b => a.loc.lt b.loc = true := by
  refine ⟨⟨(sourceLines source).map fun ln => (ln.statements, ln.warning?.toList), ?_, ?_, ?_⟩,
    statements_ordered source⟩
  · rw [sourceLines, List.map_map, List.forall₂_map_right_iff, List.forall₂_same]
    intro line _
    have fits : ∀ ss ws, LineSays line.2 (tokens line.2 line.1) ss ws ↔
        ((Line.mk line.2 (tokens line.2 line.1)).statements,
          (Line.mk line.2 (tokens line.2 line.1)).warning?.toList) = (ss, ws) := by
      intro ss ws
      rw [lineSays_iff, Prod.mk.injEq]
    exact ⟨fits, ((fits _ _).mpr rfl).count⟩
  · rw [List.flatMap_map]
    rfl
  · rw [List.flatMap_map]
    exact surplusWarnings_eq_flatMap _

example : LineSays 1 (tokens 1 "A: B: add 1 2 3 ; sum")
    [⟨⟨1, 1⟩, .label "A"⟩, ⟨⟨1, 4⟩, .label "B"⟩, ⟨⟨1, 7⟩, .instruction ⟨"ADD", some "1"⟩⟩]
    [⟨⟨1, 7⟩, .extraTokens "ADD" 2⟩] := by
  rw [lineSays_iff]
  decide

end TwoPass
