import TwoPass.Proofs.Walk

/-!
# Lines with other numbers

What a line says does not depend on its number.  The number only tells where it
says so.  So if the lines of a source get other numbers, then its statements,
what is read of them, and what a walk says about them stand on the lines with
those numbers, and nothing else changes (`Line.readings_renumber`,
`walk_renumber`).

The numbers may be any.  If a source is put behind another one they all grow
alike, and if a line is put into a source only those behind it grow
(`map_renumber_numbered`).
-/

namespace TwoPass

/-! ## One line -/

/-- A value on the line with another number. -/
def Located.renumber {α : Type} (f : Nat → Nat) (x : Located α) : Located α :=
  { x with loc := { x.loc with line := f x.loc.line } }

/-- A line with another number. -/
def Line.renumber (f : Nat → Nat) (ln : Line) : Line :=
  ⟨f ln.number, ln.tokens.map (Located.renumber f)⟩

variable (f : Nat → Nat)

theorem tokens_renumber (number : Nat) (line : String) :
    tokens (f number) line = (tokens number line).map (Located.renumber f) := by
  rw [tokens, tokens, List.map_map]
  rfl

theorem Line.readings_renumber (ln : Line) :
    (ln.renumber f).readings = ln.readings.map (Located.renumber f) := by
  obtain ⟨n, ts⟩ := ln
  have values : ∀ us : List Token, (us.map (Located.renumber f)).map (·.value) =
      us.map (·.value) := by
    intro us
    rw [List.map_map]
    rfl
  induction ts with
  | nil => rfl
  | cons t ts ih =>
      rw [renumber, List.map_cons]
      cases h : isLabel t.value with
      | true =>
          cases ts with
          | nil =>
              rw [readings_label h, List.map_nil, readings_label (t := t.renumber f) h]
              rfl
          | cons u ts =>
              rw [readings_label_cons h, List.map_cons, List.map_cons,
                readings_label_cons (t := t.renumber f) h, ← ih]
              rfl
      | false =>
          rw [readings_body h, readings_body (t := t.renumber f) h, List.map_cons, List.map_cons,
            values]
          rfl

/-! ## Some lines -/

theorem readings_renumber (ls : List Line) :
    readings (ls.map (Line.renumber f)) = (readings ls).map (Located.renumber f) := by
  rw [readings, readings, List.flatMap_map, List.map_flatMap]
  simp only [Line.readings_renumber]

theorem statements_renumber (ls : List Line) :
    statements (ls.map (Line.renumber f)) = (statements ls).map (Located.renumber f) := by
  rw [← readings_statement, ← readings_statement, readings_renumber, List.map_map, List.map_map]
  rfl

theorem instructions_renumber (ss : List (Located Statement)) :
    instructions (ss.map (Located.renumber f)) = (instructions ss).map (Located.renumber f) := by
  rw [instructions, instructions, List.filterMap_map, List.map_filterMap]
  congr 1
  funext s
  rw [Function.comp_apply, Option.map_map]
  rfl

theorem ofStatements_renumber (ss : List (Located Statement)) :
    SymbolTable.ofStatements (ss.map (Located.renumber f)) = SymbolTable.ofStatements ss := by
  apply ofStatements_congr
  rw [List.map_map]
  rfl

theorem walk_renumber (symbols : SymbolTable) (w : Walk) (rs : List (Located Reading)) :
    walk symbols w (rs.map (Located.renumber f)) =
      (walk symbols w rs).map (Located.renumber f) := by
  induction rs generalizing w with
  | nil => rfl
  | cons r rs ih =>
      rw [walk, List.map_append, ← ih, List.map_map]
      rfl

/-! ## Lines in a row -/

/-- Lines that are numbered through. -/
def numbered (first : Nat) (ls : List String) : List Line :=
  (ls.zipIdx first).map fun (line, number) => ⟨number, tokens number line⟩

theorem sourceLines_eq_numbered (source : String) :
    sourceLines source = numbered 1 (lines source) := rfl

theorem numbered_append (first : Nat) (ls ms : List String) :
    numbered first (ls ++ ms) = numbered first ls ++ numbered (first + ls.length) ms := by
  rw [numbered, List.zipIdx_append, List.map_append]
  rfl

theorem numbered_cons (first : Nat) (line : String) (ls : List String) :
    numbered first (line :: ls) = ⟨first, tokens first line⟩ :: numbered (first + 1) ls := rfl

theorem map_renumber_numbered {first other : Nat} {ls : List String}
    (h : ∀ i < ls.length, f (first + i) = other + i) :
    (numbered first ls).map (Line.renumber f) = numbered other ls := by
  induction ls generalizing first other with
  | nil => rfl
  | cons line ls ih =>
      have here : f first = other := h 0 (Nat.zero_lt_succ _)
      have behind : ∀ i < ls.length, f (first + 1 + i) = other + 1 + i := by
        intro i hi
        have next := h (i + 1) (Nat.succ_lt_succ hi)
        rw [Nat.add_assoc, Nat.add_assoc, Nat.add_comm 1 i, next]
      rw [numbered_cons, numbered_cons, List.map_cons, ih behind, ← here, tokens_renumber]
      rfl

end TwoPass
