import TwoPass.Statement
import TwoPass.Proofs.Scanner

/-!
# The statements of a source

What a line says depends on its words alone (`Line.statements_value`).
`Statement.spelled` reads the statements off the words, one label at a time, and
the statements of a source are those that its lines spell
(`statements_sourceLines_value`).

Where a line says it follows its tokens.  Each statement stands at a token of
its line, or at the first column of a blank one, so the statements of a source
stand in the order of the text (`statements_ordered`).  A line holds at most one
instruction (`Line.countP_isInstruction_le`).
-/

namespace TwoPass

/-! ## The words of a line -/

theorem isLabel_iff {word : String} :
    isLabel word = true ↔ isComment word = false ∧ ∃ name, beforeColon? word = some name := by
  rw [isLabel, Bool.and_eq_true, Bool.not_eq_true', Option.isSome_iff_exists]

theorem beforeColon?_eq_none {word : String} (comment : isComment word = false)
    (label : isLabel word = false) : beforeColon? word = none := by
  simpa [isLabel, comment] using label

namespace Statement

/-- The statements that the words of a line spell. -/
def spelled : List String → List Statement
  | [] => [.blank]
  | word :: rest =>
      if isLabel word then
        ofWords [word] :: (match rest with
          | [] => []
          | _ :: _ => spelled rest)
      else [ofWords (word :: rest)]

/-- The label that a statement defines. -/
def label? : Statement → Option String
  | .label name => some name
  | _ => none

theorem ofWords_of_isLabel {word : String} (h : isLabel word = true) :
    ∃ name, ofWords [word] = .label name := by
  obtain ⟨notComment, name, hname⟩ := isLabel_iff.mp h
  exact ⟨name, by simp [ofWords, notComment, hname]⟩

/-- A word that is neither a comment nor a label names an instruction. -/
theorem ofWords_instruction {word : String} (comment : isComment word = false)
    (label : isLabel word = false) (rest : List String) :
    ofWords (word :: rest) = .instruction ⟨uppercase word, rest.head?⟩ := by
  simp [ofWords, comment, beforeColon?_eq_none comment label]

theorem ofWords_eq_label_iff {word name : String} {rest : List String} :
    ofWords (word :: rest) = .label name ↔ isComment word = false ∧ beforeColon? word = some name := by
  rw [ofWords]
  cases comment : isComment word with
  | true => simp
  | false => cases colon : beforeColon? word <;> simp

/-- Every label of a line is spelled by one of its words. -/
theorem exists_word_of_label_mem_spelled {ws : List String} {name : String}
    (h : .label name ∈ spelled ws) :
    ∃ word ∈ ws, isComment word = false ∧ beforeColon? word = some name := by
  induction ws with
  | nil => simp [spelled] at h
  | cons word rest ih =>
      have here : ∀ tail, ofWords (word :: tail) = .label name →
          ∃ w ∈ word :: rest, isComment w = false ∧ beforeColon? w = some name :=
        fun tail label => ⟨word, List.mem_cons_self, ofWords_eq_label_iff.mp label⟩
      unfold spelled at h
      split at h
      next =>
        rcases List.mem_cons.mp h with label | later
        · exact here [] label.symm
        · cases rest with
          | nil => cases later
          | cons other rest =>
              obtain ⟨w, mem, defines⟩ := ih later
              exact ⟨w, List.mem_cons_of_mem _ mem, defines⟩
      next => exact here rest (List.mem_singleton.mp h).symm

end Statement

/-! ## The shape of a line -/

namespace Line

variable {n : Nat} {t u : Token} {ts : List Token}

theorem statements_nil (n : Nat) : (Line.mk n []).statements = [⟨⟨n, 1⟩, .blank⟩] := rfl

theorem statements_label (h : isLabel t.value = true) :
    (Line.mk n [t]).statements = [t.replace (Statement.ofWords [t.value])] := by
  simp [statements, labels, bodyStatement?, body, h]

theorem statements_label_cons (h : isLabel t.value = true) :
    (Line.mk n (t :: u :: ts)).statements =
      t.replace (Statement.ofWords [t.value]) :: (Line.mk n (u :: ts)).statements := by
  have taken : (t :: u :: ts).takeWhile (isLabel ·.value) =
      t :: (u :: ts).takeWhile (isLabel ·.value) := List.takeWhile_cons_of_pos h
  have dropped : (t :: u :: ts).dropWhile (isLabel ·.value) =
      (u :: ts).dropWhile (isLabel ·.value) := List.dropWhile_cons_of_pos h
  simp only [statements, labels, bodyStatement?, body, taken, dropped]
  cases (u :: ts).dropWhile (isLabel ·.value) <;> rfl

theorem statements_body (h : isLabel t.value = false) :
    (Line.mk n (t :: ts)).statements =
      [t.replace (Statement.ofWords ((t :: ts).map (·.value)))] := by
  simp [statements, labels, bodyStatement?, body, h]

/-- The statements of a line are those that its words spell. -/
theorem statements_value (ln : Line) :
    ln.statements.map (·.value) = Statement.spelled (ln.tokens.map (·.value)) := by
  obtain ⟨n, ts⟩ := ln
  induction ts with
  | nil => rfl
  | cons t ts ih =>
      cases h : isLabel t.value with
      | true =>
          cases ts with
          | nil => simp [statements_label h, Statement.spelled, h, Located.replace]
          | cons u ts =>
              rw [statements_label_cons h, List.map_cons, ih]
              simp [Statement.spelled, h, Located.replace]
      | false => simp [statements_body h, Statement.spelled, h, Located.replace]

/-- Each statement of a line with tokens stands at one of them, in their order. -/
theorem statements_loc_sublist (n : Nat) :
    ∀ {ts : List Token}, ts ≠ [] →
      ((Line.mk n ts).statements.map (·.loc)).Sublist (ts.map (·.loc))
  | [], h => absurd rfl h
  | t :: ts, _ => by
      cases h : isLabel t.value with
      | true =>
          cases ts with
          | nil => rw [statements_label h]; exact List.Sublist.refl _
          | cons u ts =>
              rw [statements_label_cons h]
              exact (statements_loc_sublist n (List.cons_ne_nil u ts)).cons_cons t.loc
      | false =>
          rw [statements_body h]
          exact (List.nil_sublist (ts.map (·.loc))).cons_cons t.loc

/-- An instruction stands at the token that names it. -/
theorem instruction_token {ln : Line} {s : Located Statement} (hs : s ∈ ln.statements)
    {inst : Instruction} (h : s.value = .instruction inst) :
    ∃ t ∈ ln.tokens, t.loc = s.loc ∧ inst.name = uppercase t.value := by
  obtain ⟨n, ts⟩ := ln
  induction ts with
  | nil =>
      rw [statements_nil, List.mem_singleton] at hs
      rw [hs] at h
      cases h
  | cons t ts ih =>
      cases hl : isLabel t.value with
      | true =>
          obtain ⟨name, hname⟩ := Statement.ofWords_of_isLabel hl
          have notHead : s ≠ t.replace (Statement.ofWords [t.value]) := by
            rintro rfl
            rw [Located.replace, hname] at h
            cases h
          cases ts with
          | nil =>
              rw [statements_label hl, List.mem_singleton] at hs
              exact absurd hs notHead
          | cons u ts =>
              rw [statements_label_cons hl, List.mem_cons] at hs
              obtain ⟨v, hv, found⟩ := ih (hs.resolve_left notHead)
              exact ⟨v, List.mem_cons_of_mem _ hv, found⟩
      | false =>
          rw [statements_body hl, List.mem_singleton] at hs
          subst hs
          refine ⟨t, List.mem_cons_self, rfl, ?_⟩
          cases hc : isComment t.value with
          | true => simp [Located.replace, Statement.ofWords, hc] at h
          | false =>
              rw [Located.replace, List.map_cons, Statement.ofWords_instruction hc hl] at h
              cases h
              rfl

/-- A line holds at most one instruction. -/
theorem countP_isInstruction_le (ln : Line) : ln.statements.countP (·.value.isInstruction) ≤ 1 := by
  obtain ⟨n, ts⟩ := ln
  induction ts with
  | nil => simp [statements_nil, Statement.isInstruction, Statement.instruction?]
  | cons t ts ih =>
      cases h : isLabel t.value with
      | true =>
          obtain ⟨name, hname⟩ := Statement.ofWords_of_isLabel h
          have none : (Statement.ofWords [t.value]).isInstruction = false := by rw [hname]; rfl
          cases ts with
          | nil => simp [statements_label h, Located.replace, none]
          | cons u ts =>
              rw [statements_label_cons h, List.countP_cons_of_neg (by simp [Located.replace, none])]
              exact ih
      | false =>
          rw [statements_body h]
          exact List.countP_le_length

end Line

/-! ## The lines of a source -/

/-- The statements of a source are those that its lines spell. -/
theorem statements_sourceLines_value (source : String) :
    (statements (sourceLines source)).map (·.value) =
      (lines source).flatMap fun line => Statement.spelled (words line) := by
  have numbered := List.flatMap_map (l := (lines source).zipIdx 1) (f := Prod.fst)
    (g := fun line => Statement.spelled (words line))
  rw [List.zipIdx_map_fst] at numbered
  rw [numbered, statements, List.map_flatMap, sourceLines, List.flatMap_map]
  simp only [Line.statements_value, tokens_value]

theorem tokens_of_mem_sourceLines {source : String} {ln : Line} (h : ln ∈ sourceLines source) :
    ∃ line ∈ lines source, ln.tokens = tokens ln.number line := by
  obtain ⟨⟨line, n⟩, hmem, rfl⟩ := List.mem_map.mp h
  exact ⟨line, List.fst_mem_of_mem_zipIdx hmem, rfl⟩

theorem line_of_mem_statements {source : String} {ln : Line} (h : ln ∈ sourceLines source)
    {s : Located Statement} (hs : s ∈ ln.statements) : s.loc.line = ln.number := by
  obtain ⟨line, -, htokens⟩ := tokens_of_mem_sourceLines h
  obtain ⟨n, ts⟩ := ln
  cases ts with
  | nil =>
      rw [Line.statements_nil, List.mem_singleton] at hs
      rw [hs]
  | cons t ts =>
      have mem := (Line.statements_loc_sublist n (List.cons_ne_nil t ts)).subset
        (List.mem_map_of_mem (f := fun s : Located Statement => s.loc) hs)
      obtain ⟨u, hu, hloc⟩ := List.mem_map.mp mem
      have member : u ∈ tokens n line := by rw [← htokens]; exact hu
      rw [← hloc]
      exact line_of_mem_tokens member

theorem sourceLines_number (source : String) :
    (sourceLines source).Pairwise fun a b => a.number < b.number := by
  rw [sourceLines, List.pairwise_map]
  have numbers := List.pairwise_lt_range' (s := 1) (n := (lines source).length)
  rw [← List.zipIdx_map_snd 1 (lines source), List.pairwise_map] at numbers
  exact numbers

/-- The statements of a source stand in the order of the text. -/
theorem statements_ordered (source : String) :
    (statements (sourceLines source)).Pairwise fun a b => a.loc.lt b.loc = true := by
  rw [statements, List.pairwise_flatMap]
  refine ⟨?_, ?_⟩
  · intro ln hln
    obtain ⟨line, -, htokens⟩ := tokens_of_mem_sourceLines hln
    obtain ⟨n, ts⟩ := ln
    cases ts with
    | nil => rw [Line.statements_nil]; exact List.pairwise_singleton _ _
    | cons t ts =>
        have sorted := tokens_ordered n line
        rw [← htokens, ← List.pairwise_map (f := fun t : Token => t.loc)
          (R := fun a b => a.lt b = true)] at sorted
        have locs := sorted.sublist (Line.statements_loc_sublist n (List.cons_ne_nil t ts))
        exact List.pairwise_map.mp locs
  · refine (sourceLines_number source).imp_of_mem ?_
    intro a b ha hb hab x hx y hy
    rw [Location.lt_iff, line_of_mem_statements ha hx, line_of_mem_statements hb hy]
    exact Or.inl hab

end TwoPass
