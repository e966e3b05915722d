import Mathlib.Data.List.Basic
import Mathlib.Data.List.Induction
import TwoPass.Proofs.Addresses

/-!
# Labels that are defined again

Each definition of a label binds it to the number of instructions before the
definition (`definitions`).  All but the first of them take a binding away, and
each of these gets a warning that tells the address of the one right before it
(`redefinitions`).  The last one stays.

The first pass has no list of definitions.  It holds the current address of each
label, which is that of the last definition so far (`get?_ofStatements_eq_last`).
So the proofs add one statement at the end of the others, as the pass does.
Then a statement that defines a label adds one definition, and one warning
unless it is the first.  `redefinition_chain` says this about each label and
about all of them.
-/

namespace TwoPass

/-! ## Chains of definitions -/

/-- The definitions of a label, each at its place and with the number of
instructions before it. -/
def definitions (label : String) (ss : List (Located Statement)) : List (Located Nat) :=
  (ss.zipIdx.filter (·.1.value == .label label)).map fun p =>
    p.1.replace ((ss.take p.2).countP (·.value.isInstruction))

/-- The warnings about the definitions of a label.  Each one but the first tells
the address of the one before it. -/
def redefinitions (label : String) (ds : List (Located Nat)) : List (Located Diagnostic) :=
  ds.zipWith (fun previous d => d.replace (.duplicateLabel label previous.value)) ds.tail

/-- The warning about a statement behind some others: it defines a label that
one of them defined last. -/
def redefinition? (before : List (Located Statement)) (s : Located Statement) :
    Option (Located Diagnostic) :=
  match s.value with
  | .label name =>
      (definitions name before).getLast?.map fun previous =>
        s.replace (.duplicateLabel name previous.value)
  | _ => none

/-- Whether a diagnostic says that a label was bound before. -/
def Diagnostic.redefines (label : String) : Diagnostic → Bool
  | .duplicateLabel name _ => name == label
  | _ => false

/-! ## One more statement -/

section Concat

variable (ss : List (Located Statement)) (s : Located Statement)

theorem definitions_concat (label : String) :
    definitions label (ss ++ [s]) = definitions label ss ++
      if s.value = .label label then [s.replace (ss.countP (·.value.isInstruction))] else [] := by
  -- What stands before a statement does not change behind the last one.
  have before : ∀ p ∈ ss.zipIdx, (ss ++ [s]).take p.2 = ss.take p.2 := by
    intro p hp
    have position := List.snd_lt_of_mem_zipIdx hp
    exact List.take_append_of_le_length (by omega)
  rw [definitions, List.zipIdx_append, List.filter_append, List.map_append, definitions]
  congr 1
  · refine List.map_congr_left ?_
    intro p hp
    rw [before p (List.mem_filter.mp hp).1]
  · split
    next defines => simp [defines]
    next other => simp [other]

theorem run_concat : Binding.run (ss ++ [s]) = (Binding.run ss).step s := by
  rw [Binding.run, List.foldl_append]
  rfl

theorem get?_ofStatements_concat (label : String) :
    (SymbolTable.ofStatements (ss ++ [s])).get? label =
      if s.value = .label label then some (ss.countP (·.value.isInstruction))
      else (SymbolTable.ofStatements ss).get? label := by
  have address : (Binding.run ss).address = ss.countP (·.value.isInstruction) := by
    rw [Binding.run, Binding.foldl_address, Nat.zero_add]
  rw [SymbolTable.ofStatements, run_concat, Binding.step_get?, address]
  rfl

theorem duplicateWarnings_concat :
    duplicateWarnings (ss ++ [s]) =
      duplicateWarnings ss ++ ((Binding.run ss).warning? s).toList := by
  rw [duplicateWarnings, run_concat, Binding.step_warnings, List.reverse_append, duplicateWarnings]
  cases (Binding.run ss).warning? s <;> rfl

end Concat

/-- One more definition is a redefinition unless it is the first. -/
theorem redefinitions_concat (label : String) (ds : List (Located Nat)) (d : Located Nat) :
    redefinitions label (ds ++ [d]) = redefinitions label ds ++
      (ds.getLast?.map fun last => d.replace (.duplicateLabel label last.value)).toList := by
  induction ds with
  | nil => rfl
  | cons first ds ih =>
      cases ds with
      | nil => rfl
      | cons second ds =>
          have step : ∀ ds', redefinitions label (first :: second :: ds') =
              second.replace (.duplicateLabel label first.value) ::
                redefinitions label (second :: ds') := fun _ => rfl
          rw [List.cons_append, List.cons_append, step, step, ← List.cons_append, ih,
            List.getLast?_cons_cons, List.cons_append]

theorem length_redefinitions (label : String) (ds : List (Located Nat)) :
    (redefinitions label ds).length = ds.length - 1 := by
  rw [redefinitions, List.length_zipWith, List.length_tail]
  omega

/-! ## All statements -/

/-- A label has the address of its last definition. -/
theorem get?_ofStatements_eq_last (ss : List (Located Statement)) (label : String) :
    (SymbolTable.ofStatements ss).get? label = (definitions label ss).getLast?.map (·.value) := by
  induction ss using List.reverseRecOn with
  | nil => exact SymbolTable.get?_empty label
  | append_singleton ss s ih =>
      rw [get?_ofStatements_concat, definitions_concat]
      split
      next => rw [List.getLast?_concat]; rfl
      next => rw [List.append_nil, ih]

/-- No definition has a higher address than a later one. -/
theorem definitions_ordered (label : String) (ss : List (Located Statement)) :
    (definitions label ss).Pairwise fun d e => d.value ≤ e.value := by
  have positions : (ss.zipIdx.filter (·.1.value == .label label)).Pairwise
      fun p q => p.2 < q.2 := by
    have numbers := List.pairwise_lt_range' (s := 0) (n := ss.length)
    rw [← List.zipIdx_map_snd 0 ss, List.pairwise_map] at numbers
    exact numbers.filter _
  rw [definitions, List.pairwise_map]
  refine positions.imp ?_
  intro p q hpq
  exact (List.take_sublist_take_left (Nat.le_of_lt hpq)).countP_le

theorem warning?_run (ss : List (Located Statement)) (s : Located Statement) :
    (Binding.run ss).warning? s = redefinition? ss s := by
  obtain ⟨loc, value⟩ := s
  cases value with
  | blank => rfl
  | comment => rfl
  | label name =>
      have bound := get?_ofStatements_eq_last ss name
      rw [SymbolTable.ofStatements] at bound
      simp only [Binding.warning?, bound, redefinition?, Option.map_map]
      rfl
  | instruction inst => rfl

/-- The warnings come statement by statement. -/
theorem duplicateWarnings_eq_filterMap (ss : List (Located Statement)) :
    duplicateWarnings ss = ss.zipIdx.filterMap fun p => redefinition? (ss.take p.2) p.1 := by
  induction ss using List.reverseRecOn with
  | nil => rfl
  | append_singleton ss s ih =>
      have before : ∀ p ∈ ss.zipIdx,
          redefinition? ((ss ++ [s]).take p.2) p.1 = redefinition? (ss.take p.2) p.1 := by
        intro p hp
        have position := List.snd_lt_of_mem_zipIdx hp
        rw [List.take_append_of_le_length (by omega)]
      rw [duplicateWarnings_concat, ih, warning?_run, List.zipIdx_append, List.filterMap_append,
        List.filterMap_congr before]
      cases last : redefinition? ss s <;> simp [last]

/-- The warnings about one label are those of its chain of definitions. -/
theorem filter_redefines_duplicateWarnings (ss : List (Located Statement)) (label : String) :
    (duplicateWarnings ss).filter (·.value.redefines label) =
      redefinitions label (definitions label ss) := by
  induction ss using List.reverseRecOn with
  | nil => rfl
  | append_singleton ss s ih =>
      rw [duplicateWarnings_concat, warning?_run, List.filter_append, ih, definitions_concat]
      obtain ⟨loc, value⟩ := s
      cases value with
      | blank => simp [redefinition?]
      | comment => simp [redefinition?]
      | label name =>
          by_cases same : name = label
          · subst same
            rw [if_pos rfl, redefinitions_concat]
            cases hlast : (definitions name ss).getLast? <;>
              simp [redefinition?, hlast, Diagnostic.redefines, Located.replace]
          · rw [if_neg (by simp [same]), List.append_nil]
            cases hlast : (definitions name ss).getLast? <;>
              simp [redefinition?, hlast, Diagnostic.redefines, same,
                Located.replace]
      | instruction inst => simp [redefinition?]

theorem SymbolTable.size_define (t : SymbolTable) (label : String) (address : Nat) :
    (t.define label address).2.size = if (t.get? label).isSome then t.size else t.size + 1 := by
  rw [define, size, Std.ExtTreeMap.size_insert, Std.ExtTreeMap.contains_eq_isSome_getElem?]
  rfl

theorem Binding.size_step_table (b : Binding) (s : Located Statement) :
    (b.step s).table.size + (b.warning? s).toList.length =
      b.table.size + if s.value.label?.isSome then 1 else 0 := by
  obtain ⟨loc, value⟩ := s
  cases value with
  | blank => rfl
  | comment => rfl
  | label name =>
      have table : (b.step ⟨loc, .label name⟩).table = (b.table.define name b.address).2 := by
        simp only [step]
        split <;> rfl
      rw [table, SymbolTable.size_define]
      cases hname : b.table.get? name <;> simp [warning?, Statement.label?, hname]
  | instruction inst => rfl

/-- Every definition of a label either adds a label to the table or gets a
warning. -/
theorem size_ofStatements (ss : List (Located Statement)) :
    (SymbolTable.ofStatements ss).size + (duplicateWarnings ss).length =
      ss.countP (·.value.label?.isSome) := by
  induction ss using List.reverseRecOn with
  | nil => rfl
  | append_singleton ss s ih =>
      have one := (Binding.run ss).size_step_table s
      rw [SymbolTable.ofStatements] at ih
      rw [SymbolTable.ofStatements, run_concat, duplicateWarnings_concat, List.length_append,
        List.countP_append, List.countP_singleton]
      omega

/-- The definitions of a label form a chain.  Each one but the first gets one
warning, at its place and with the address of the one before it.  The addresses
never go down, and the label keeps that of the last one.  Over all labels the
warnings come in the order of the statements they are about, and the table has
one label for each definition without a warning. -/
theorem redefinition_chain (ss : List (Located Statement)) :
    (∀ label,
      let ds := definitions label ss
      (duplicateWarnings ss).filter (·.value.redefines label) = redefinitions label ds ∧
      ((duplicateWarnings ss).filter (·.value.redefines label)).length = ds.length - 1 ∧
      (ds.Pairwise fun d e => d.value ≤ e.value) ∧
      (SymbolTable.ofStatements ss).get? label = ds.getLast?.map (·.value)) ∧
    duplicateWarnings ss = ss.zipIdx.filterMap (fun p => redefinition? (ss.take p.2) p.1) ∧
    (SymbolTable.ofStatements ss).size + (duplicateWarnings ss).length =
      ss.countP (·.value.label?.isSome) := by
  refine ⟨?_, duplicateWarnings_eq_filterMap ss, size_ofStatements ss⟩
  intro label ds
  have chain := filter_redefines_duplicateWarnings ss label
  refine ⟨chain, ?_, definitions_ordered label ss, get?_ofStatements_eq_last ss label⟩
  rw [chain, length_redefinitions]

example : duplicateWarnings (statements (sourceLines "X: HLT\nY: X: HLT\nHLT\nX:")) =
    [⟨⟨2, 4⟩, .duplicateLabel "X" 0⟩, ⟨⟨4, 1⟩, .duplicateLabel "X" 1⟩] := by decide +kernel

end TwoPass
