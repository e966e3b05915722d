import Mathlib.Data.List.Dedup
import Mathlib.Data.List.Induction
import TwoPass.Proofs.Bytes
import TwoPass.SymbolTable

/-!
# Runs of definitions

A table is made by one definition after the other.  Each of them gives the
address that the one before it for the same label had bound
(`SymbolTable.defineAll`), and the last one for a label is the one that stays
(`lastAddress?`).

A report has to put the labels in some order.  It goes by the address and then
by the bytes of the label (`ReportedBefore`).  No two labels are the same, so of
two bindings one is always before the other, and there is only one list of all
bindings in this order.  Any list of them sorts to that one, whatever order it
had (`SymbolTable.Lists.mergeSort_eq`).

`definitions_observed` says this about all runs.
-/

namespace TwoPass

/-! ## The order of a report -/

/-- A binding comes before another: by the address, and for one address by the
bytes of the label. -/
def ReportedBefore (a b : String × Nat) : Prop :=
  a.2 < b.2 ∨ a.2 = b.2 ∧ bytes a.1 < bytes b.1

namespace SymbolTable

theorem reportLe_iff {a b : String × Nat} :
    reportLe a b = true ↔ a.2 < b.2 ∨ a.2 = b.2 ∧ a.1 ≤ b.1 := by
  simp [reportLe]

theorem reportLe_trans (a b c : String × Nat) (hab : reportLe a b = true)
    (hbc : reportLe b c = true) : reportLe a c = true := by
  rw [reportLe_iff] at *
  rcases hab with hab | ⟨hab, labels⟩ <;> rcases hbc with hbc | ⟨hbc, labels'⟩
  · exact Or.inl (by omega)
  · exact Or.inl (by omega)
  · exact Or.inl (by omega)
  · exact Or.inr ⟨by omega, String.le_trans labels labels'⟩

theorem reportLe_total (a b : String × Nat) : (reportLe a b || reportLe b a) = true := by
  rw [Bool.or_eq_true, reportLe_iff, reportLe_iff]
  rcases Nat.lt_trichotomy a.2 b.2 with below | same | above
  · exact Or.inl (Or.inl below)
  · exact (String.le_total a.1 b.1).imp (fun le => Or.inr ⟨same, le⟩) fun le => Or.inr ⟨same.symm, le⟩
  · exact Or.inr (Or.inl above)

theorem reportLe_antisymm {a b : String × Nat} (hab : reportLe a b = true)
    (hba : reportLe b a = true) : a = b := by
  rw [reportLe_iff] at *
  have same : a.2 = b.2 := by omega
  have le : a.1 ≤ b.1 := (hab.resolve_left (by omega)).2
  have ge : b.1 ≤ a.1 := (hba.resolve_left (by omega)).2
  exact Prod.ext (String.le_antisymm le ge) same

theorem reportedBefore_of_ne {a b : String × Nat} (le : reportLe a b = true) (ne : a ≠ b) :
    ReportedBefore a b := by
  rcases reportLe_iff.mp le with below | ⟨same, labels⟩
  · exact Or.inl below
  · refine Or.inr ⟨same, lt_iff_bytes_lt.mp (String.not_le.mp fun ge => ne ?_)⟩
    exact Prod.ext (String.le_antisymm labels ge) same

/-! ## The bindings of a table -/

/-- Some bindings are those of a table, each once and in any order. -/
structure Lists (t : SymbolTable) (listed : List (String × Nat)) : Prop where
  /-- None comes twice. -/
  nodup : listed.Nodup
  /-- They are the bindings of the table. -/
  mem_iff : ∀ label address, (label, address) ∈ listed ↔ t.get? label = some address

section

variable {t : SymbolTable} {listed : List (String × Nat)}

theorem lists_toList (t : SymbolTable) : t.Lists t.bindings.toList := by
  refine ⟨?_, fun label address => Std.ExtTreeMap.mem_toList_iff_getElem?_eq_some⟩
  refine Std.ExtTreeMap.distinct_keys_toList.imp ?_
  rintro a b ne rfl
  exact ne Std.ReflCmp.compare_self

theorem Lists.perm {other : List (String × Nat)} (h : t.Lists listed) (h' : t.Lists other) :
    listed.Perm other := by
  rw [List.perm_ext_iff_of_nodup h.nodup h'.nodup]
  intro b
  rw [h.mem_iff, h'.mem_iff]

/-- The bindings of a table sort to one list, whatever order they had. -/
theorem Lists.mergeSort_eq (h : t.Lists listed) : listed.mergeSort reportLe = t.sorted := by
  have ordered : ∀ l : List (String × Nat),
      (l.mergeSort reportLe).Pairwise fun a b => reportLe a b = true :=
    List.pairwise_mergeSort reportLe_trans reportLe_total
  refine List.Perm.eq_of_pairwise (fun a b _ _ => reportLe_antisymm) (ordered _) (ordered _) ?_
  exact (List.mergeSort_perm _ _).trans
    ((h.perm t.lists_toList).trans (List.mergeSort_perm _ _).symm)

theorem lists_sorted (t : SymbolTable) : t.Lists t.sorted := by
  have perm : t.sorted.Perm t.bindings.toList := List.mergeSort_perm _ _
  refine ⟨perm.nodup_iff.mpr t.lists_toList.nodup, fun label address => ?_⟩
  rw [perm.mem_iff, t.lists_toList.mem_iff]

/-- A report is in strict order. -/
theorem sorted_ordered (t : SymbolTable) : t.sorted.Pairwise ReportedBefore := by
  have ordered : t.sorted.Pairwise fun a b => reportLe a b = true :=
    List.pairwise_mergeSort reportLe_trans reportLe_total _
  refine (ordered.and t.lists_sorted.nodup).imp ?_
  rintro a b ⟨le, ne⟩
  exact reportedBefore_of_ne le ne

theorem length_sorted (t : SymbolTable) : t.sorted.length = t.size := by
  rw [sorted, (List.mergeSort_perm _ _).length_eq]
  exact Std.ExtTreeMap.length_toList

/-- A table has as many labels as any list that names each of them once. -/
theorem size_eq_length {labels : List String} (nodup : labels.Nodup)
    (mem : ∀ label, label ∈ labels ↔ (t.get? label).isSome = true) : t.size = labels.length := by
  have perm : t.bindings.keys.Perm labels := by
    rw [List.perm_ext_iff_of_nodup Std.ExtTreeMap.nodup_keys nodup]
    intro label
    rw [mem, Std.ExtTreeMap.mem_keys, Std.ExtTreeMap.mem_iff_isSome_getElem?]
    rfl
  rw [← perm.length_eq, size, Std.ExtTreeMap.length_keys]

theorem isEmpty_iff (t : SymbolTable) : t.isEmpty = true ↔ t.size = 0 := by
  rw [isEmpty, size, Std.ExtTreeMap.isEmpty_eq_size_beq_zero, beq_iff_eq]

end

end SymbolTable

/-! ## Runs -/

/-- The address that some definitions bind a label to last. -/
def lastAddress? (ds : List (String × Nat)) (label : String) : Option Nat :=
  ds.reverse.lookup label

theorem lastAddress?_cons (d : String × Nat) (ds : List (String × Nat)) (label : String) :
    lastAddress? (d :: ds) label =
      (lastAddress? ds label).or (if d.1 = label then some d.2 else none) := by
  obtain ⟨name, address⟩ := d
  rw [lastAddress?, List.reverse_cons, List.lookup_append, lastAddress?]
  congr 1
  by_cases same : label = name
  · simp [same]
  · rw [List.lookup_cons]
    simp [beq_eq_false_iff_ne.mpr same, Ne.symm same]

theorem isSome_lastAddress?_iff {ds : List (String × Nat)} {label : String} :
    (lastAddress? ds label).isSome = true ↔ label ∈ ds.map (·.1) := by
  induction ds with
  | nil => simp [lastAddress?]
  | cons d ds ih =>
      rw [lastAddress?_cons, Option.isSome_or, Bool.or_eq_true, ih, List.map_cons, List.mem_cons]
      split
      next same => simp [same]
      next other => simp [Ne.symm other]

namespace SymbolTable

/-- Make some definitions, one after the other.  The first component lists what
each of them gave. -/
def defineAll (t : SymbolTable) : List (String × Nat) → List (Option Nat) × SymbolTable
  | [] => ([], t)
  | d :: ds =>
      let (previous, t') := t.define d.1 d.2
      let (answers, t'') := defineAll t' ds
      (previous :: answers, t'')

theorem defineAll_cons (t : SymbolTable) (d : String × Nat) (ds : List (String × Nat)) :
    t.defineAll (d :: ds) =
      (t.get? d.1 :: ((t.define d.1 d.2).2.defineAll ds).1,
        ((t.define d.1 d.2).2.defineAll ds).2) := rfl

/-- A label has its last address, or the one from before the run. -/
theorem get?_defineAll (t : SymbolTable) (ds : List (String × Nat)) (label : String) :
    (t.defineAll ds).2.get? label = (lastAddress? ds label).or (t.get? label) := by
  induction ds generalizing t with
  | nil => rfl
  | cons d ds ih =>
      rw [defineAll_cons, ih, get?_define, lastAddress?_cons, Option.or_assoc]
      by_cases same : d.1 = label <;> simp [same]

theorem length_defineAll (t : SymbolTable) (ds : List (String × Nat)) :
    (t.defineAll ds).1.length = ds.length := by
  induction ds generalizing t with
  | nil => rfl
  | cons d ds ih => rw [defineAll_cons, List.length_cons, ih, List.length_cons]

/-- A definition gives the last address of its label, or the one from before the
run. -/
theorem getElem?_defineAll (t : SymbolTable) {ds : List (String × Nat)} {i : Nat}
    {d : String × Nat} (h : ds[i]? = some d) :
    (t.defineAll ds).1[i]? = some ((lastAddress? (ds.take i) d.1).or (t.get? d.1)) := by
  induction ds generalizing t i with
  | nil => cases h
  | cons first ds ih =>
      rw [defineAll_cons]
      cases i with
      | zero =>
          obtain rfl := Option.some.inj h
          rfl
      | succ i =>
          rw [List.getElem?_cons_succ] at h ⊢
          rw [ih _ h, List.take_succ_cons, lastAddress?_cons, get?_define, Option.or_assoc]
          by_cases same : first.1 = d.1 <;> simp [same]

end SymbolTable

/-! ## What a run shows -/

/-- What a run of definitions on the empty table shows.  Each of them gives the
last address of its label before it, and in the end each label has its last
address.  The size is the number of different labels, and the table is empty if
it is zero.  The report has every binding once, by the address and then by the
bytes of the label.  It is what the bindings sort to in any order they may come
in, and every run that leaves the same last addresses has the same report. -/
theorem definitions_observed (ds : List (String × Nat)) :
    ∃ answers t, (∅ : SymbolTable).defineAll ds = (answers, t) ∧
    answers.length = ds.length ∧
    (∀ i d, ds[i]? = some d → answers[i]? = some (lastAddress? (ds.take i) d.1)) ∧
    (∀ label, t.get? label = lastAddress? ds label) ∧
    t.size = (ds.map (·.1)).dedup.length ∧
    (t.isEmpty = true ↔ t.size = 0) ∧
    t.sorted.Nodup ∧
    (∀ label address, (label, address) ∈ t.sorted ↔ lastAddress? ds label = some address) ∧
    t.sorted.Pairwise ReportedBefore ∧
    (∀ listed : List (String × Nat), listed.Nodup →
      (∀ label address, (label, address) ∈ listed ↔ lastAddress? ds label = some address) →
      listed.mergeSort SymbolTable.reportLe = t.sorted) ∧
    ∀ others, (∀ label, lastAddress? others label = lastAddress? ds label) →
      ((∅ : SymbolTable).defineAll others).2.sorted = t.sorted := by
  have last : ∀ ds label, ((∅ : SymbolTable).defineAll ds).2.get? label = lastAddress? ds label := by
    intro ds label
    rw [SymbolTable.get?_defineAll, SymbolTable.get?_empty, Option.or_none]
  have listed := ((∅ : SymbolTable).defineAll ds).2.lists_sorted
  refine ⟨_, _, rfl, SymbolTable.length_defineAll _ ds, ?_, last ds, ?_,
    SymbolTable.isEmpty_iff _, listed.nodup, ?_, SymbolTable.sorted_ordered _, ?_, ?_⟩
  · intro i d here
    rw [SymbolTable.getElem?_defineAll _ here, SymbolTable.get?_empty, Option.or_none]
  · refine SymbolTable.size_eq_length (List.nodup_dedup _) fun label => ?_
    rw [List.mem_dedup, last, isSome_lastAddress?_iff]
  · intro label address
    rw [listed.mem_iff, last]
  · intro l nodup mem
    refine SymbolTable.Lists.mergeSort_eq ⟨nodup, fun label address => ?_⟩
    rw [mem, last]
  · intro others same
    congr 1
    refine SymbolTable.ext fun label => ?_
    rw [last, last, same]

example : (SymbolTable.empty.defineAll [("b", 0), ("a", 1), ("b", 1)]).1 = [none, none, some 0] := by
  decide

end TwoPass
