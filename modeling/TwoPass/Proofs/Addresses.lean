import TwoPass.Assembly
import TwoPass.Proofs.Source

/-!
# Addresses

Both passes count instructions over the same statements, so they agree on every
address.

* The first pass binds a label to the number of instructions before its last
  definition (`LastDefinition.get?`).
* The second pass gives each instruction the number of those before it
  (`entries_address`).

The statements stand in the order of the text.  So the entry at the address of a
label is the first instruction behind its last definition
(`LastDefinition.pointsBehind`), and `addresses_agree` says all of it about a
source.
-/

namespace TwoPass

/-! ## The first pass -/

namespace Binding

theorem step_address (b : Binding) (s : Located Statement) :
    (b.step s).address = b.address + if s.value.isInstruction then 1 else 0 := by
  obtain ⟨loc, value⟩ := s
  cases value with
  | blank => rfl
  | comment => rfl
  | label name =>
      simp only [step]
      split <;> rfl
  | instruction inst => rfl

theorem step_get? (b : Binding) (s : Located Statement) (label : String) :
    (b.step s).table.get? label =
      if s.value = .label label then some b.address else b.table.get? label := by
  obtain ⟨loc, value⟩ := s
  cases value with
  | blank => rfl
  | comment => rfl
  | label name =>
      have table : (b.step ⟨loc, .label name⟩).table = (b.table.define name b.address).2 := by
        simp only [step]
        split <;> rfl
      rw [table, SymbolTable.get?_define]
      simp
  | instruction inst => rfl

/-- The warning about a statement: a label that is bound already. -/
def warning? (b : Binding) (s : Located Statement) : Option (Located Diagnostic) :=
  match s.value with
  | .label name => (b.table.get? name).map fun address => s.replace (.duplicateLabel name address)
  | _ => none

theorem step_warnings (b : Binding) (s : Located Statement) :
    (b.step s).warnings = (b.warning? s).toList ++ b.warnings := by
  obtain ⟨loc, value⟩ := s
  cases value with
  | blank => rfl
  | comment => rfl
  | label name =>
      simp only [step, warning?, SymbolTable.define]
      cases b.table.get? name <;> rfl
  | instruction inst => rfl

theorem foldl_address (ss : List (Located Statement)) (b : Binding) :
    (ss.foldl step b).address = b.address + ss.countP (·.value.isInstruction) := by
  induction ss generalizing b with
  | nil => rfl
  | cons s ss ih =>
      rw [List.foldl_cons, ih, step_address, List.countP_cons]
      omega

/-- Statements that do not define a label leave it as it is. -/
theorem foldl_get?_of_not_label {ss : List (Located Statement)} {label : String}
    (h : ∀ s ∈ ss, s.value ≠ .label label) (b : Binding) :
    (ss.foldl step b).table.get? label = b.table.get? label := by
  induction ss generalizing b with
  | nil => rfl
  | cons s ss ih =>
      rw [List.foldl_cons, ih fun t ht => h t (List.mem_cons_of_mem _ ht), step_get?,
        if_neg (h s List.mem_cons_self)]

end Binding

/-! ## The last definition of a label -/

/-- Some statements are cut at the last definition of a label. -/
structure LastDefinition (ss : List (Located Statement)) (label : String)
    (before : List (Located Statement)) (definition : Located Statement)
    (after : List (Located Statement)) : Prop where
  /-- The cut leaves nothing out. -/
  split : ss = before ++ definition :: after
  /-- The statement at the cut defines the label. -/
  defines : definition.value = .label label
  /-- No later statement does. -/
  last : ∀ s ∈ after, s.value ≠ .label label

theorem exists_lastDefinition {ss : List (Located Statement)} {label : String}
    (h : ∃ s ∈ ss, s.value = .label label) :
    ∃ before definition after, LastDefinition ss label before definition after := by
  induction ss with
  | nil =>
      obtain ⟨s, hs, -⟩ := h
      cases hs
  | cons s ss ih =>
      by_cases later : ∃ t ∈ ss, t.value = .label label
      · obtain ⟨before, definition, after, cut⟩ := ih later
        exact ⟨s :: before, definition, after, by rw [cut.split, List.cons_append], cut.defines,
          cut.last⟩
      · obtain ⟨t, ht, hlabel⟩ := h
        rcases List.mem_cons.mp ht with rfl | ht'
        · exact ⟨[], t, ss, rfl, hlabel, fun u hu he => later ⟨u, hu, he⟩⟩
        · exact absurd ⟨t, ht', hlabel⟩ later

namespace LastDefinition

variable {ss before after : List (Located Statement)} {definition : Located Statement}
  {label : String}

/-- A label is bound to the number of instructions before its last definition. -/
theorem get? (cut : LastDefinition ss label before definition after) :
    (SymbolTable.ofStatements ss).get? label = some (before.countP (·.value.isInstruction)) := by
  rw [SymbolTable.ofStatements, Binding.run, cut.split, List.foldl_append, List.foldl_cons,
    Binding.foldl_get?_of_not_label cut.last, Binding.step_get?, if_pos cut.defines,
    Binding.foldl_address]
  simp

theorem not_isInstruction (cut : LastDefinition ss label before definition after) :
    definition.value.isInstruction = false := by
  rw [cut.defines]
  rfl

end LastDefinition

theorem get?_ofStatements_eq_none {ss : List (Located Statement)} {label : String}
    (h : ∀ s ∈ ss, s.value ≠ .label label) : (SymbolTable.ofStatements ss).get? label = none := by
  rw [SymbolTable.ofStatements, Binding.run, Binding.foldl_get?_of_not_label h]
  exact SymbolTable.get?_empty label

/-- A label is bound if and only if some statement defines it. -/
theorem isSome_get?_ofStatements_iff {ss : List (Located Statement)} {label : String} :
    ((SymbolTable.ofStatements ss).get? label).isSome = true ↔ ∃ s ∈ ss, s.value = .label label := by
  constructor
  · intro bound
    by_cases defined : ∃ s ∈ ss, s.value = .label label
    · exact defined
    · rw [get?_ofStatements_eq_none fun s hs he => defined ⟨s, hs, he⟩] at bound
      cases bound
  · intro h
    obtain ⟨before, definition, after, cut⟩ := exists_lastDefinition h
    rw [cut.get?]
    rfl

/-- A bound label stands in the source, as a word with a colon behind it. -/
theorem exists_word_of_get?_symbols {source label : String} {address : Nat}
    (h : (assemble source).symbols.get? label = some address) :
    ∃ line ∈ lines source, ∃ word ∈ words line,
      isComment word = false ∧ beforeColon? word = some label := by
  rw [assemble_symbols] at h
  obtain ⟨s, hs, defines⟩ := isSome_get?_ofStatements_iff.mp (Option.isSome_of_eq_some h)
  have mem := List.mem_map_of_mem (f := fun s : Located Statement => s.value) hs
  rw [statements_sourceLines_value, defines] at mem
  obtain ⟨line, hline, spelled⟩ := List.mem_flatMap.mp mem
  exact ⟨line, hline, Statement.exists_word_of_label_mem_spelled spelled⟩

/-- Statements without labels leave the table empty. -/
theorem ofStatements_eq_empty {ss : List (Located Statement)}
    (h : ∀ s ∈ ss, ∀ label, s.value ≠ .label label) : SymbolTable.ofStatements ss = ∅ := by
  apply SymbolTable.ext
  intro label
  rw [get?_ofStatements_eq_none fun s hs => h s hs label, SymbolTable.get?_empty]

/-! ## The second pass -/

/-- The instructions are the statements that hold one. -/
theorem mem_instructions_iff {ss : List (Located Statement)} {s : Located Instruction} :
    s ∈ instructions ss ↔ ⟨s.loc, .instruction s.value⟩ ∈ ss := by
  rw [instructions, List.mem_filterMap]
  constructor
  · rintro ⟨⟨loc, value⟩, mem, found⟩
    obtain ⟨inst, hinst, rfl⟩ := Option.map_eq_some_iff.mp found
    cases value with
    | instruction i =>
        obtain rfl := Option.some.inj hinst
        exact mem
    | blank => cases hinst
    | comment => cases hinst
    | label name => cases hinst
  · intro mem
    exact ⟨_, mem, rfl⟩

theorem instructions_loc (ss : List (Located Statement)) :
    (instructions ss).map (·.loc) = (ss.filter (·.value.isInstruction)).map (·.loc) := by
  induction ss with
  | nil => rfl
  | cons s ss ih =>
      obtain ⟨loc, value⟩ := s
      cases value with
      | instruction inst => exact congrArg (loc :: ·) ih
      | blank => exact ih
      | comment => exact ih
      | label name => exact ih

theorem entries_address (symbols : SymbolTable) (ss : List (Located Statement)) :
    (entries symbols ss).map (·.address) = List.range (entries symbols ss).length := by
  have positions := List.zipIdx_map_snd 0 (instructions ss)
  rw [entries, List.map_map, List.length_map, List.length_zipIdx, List.range_eq_range', ← positions]
  rfl

theorem entries_loc (symbols : SymbolTable) (ss : List (Located Statement)) :
    (entries symbols ss).map (·.loc) = (ss.filter (·.value.isInstruction)).map (·.loc) := by
  have members := List.zipIdx_map_fst 0 (instructions ss)
  rw [← instructions_loc, entries, List.map_map, ← congrArg (List.map (·.loc)) members, List.map_map]
  rfl

theorem length_entries (symbols : SymbolTable) (ss : List (Located Statement)) :
    (entries symbols ss).length = ss.countP (·.value.isInstruction) := by
  have lengths := congrArg List.length (entries_loc symbols ss)
  rw [List.length_map, List.length_map] at lengths
  rw [lengths, List.countP_eq_length_filter]

/-- The entries stand in the order of the text. -/
theorem entries_ordered {ss : List (Located Statement)}
    (sorted : ss.Pairwise fun a b => a.loc.lt b.loc = true) (symbols : SymbolTable) :
    (entries symbols ss).Pairwise fun a b => a.loc.lt b.loc = true := by
  have locs : ((ss.filter (·.value.isInstruction)).map (·.loc)).Pairwise fun a b => a.lt b = true :=
    List.pairwise_map.mpr (sorted.filter _)
  rw [← entries_loc symbols] at locs
  exact List.pairwise_map.mp locs

/-- There are at most as many instructions as lines. -/
theorem countP_isInstruction_le_lines (source : String) :
    (statements (sourceLines source)).countP (·.value.isInstruction) ≤ (lines source).length := by
  have count : ∀ ls : List Line, (statements ls).countP (·.value.isInstruction) ≤ ls.length := by
    intro ls
    induction ls with
    | nil => exact Nat.le_refl 0
    | cons ln ls ih =>
        have one := ln.countP_isInstruction_le
        rw [statements, List.flatMap_cons, List.countP_append, List.length_cons]
        rw [statements] at ih
        omega
  have bound := count (sourceLines source)
  rwa [sourceLines, List.length_map, List.length_zipIdx] at bound

/-! ## Where an address points -/

/-- An address points at the first entry located behind a place, or at the end
of the listing if there is none. -/
structure PointsBehind (es : List Entry) (loc : Location) (address : Nat) : Prop where
  /-- The address is at most one past the last. -/
  le_length : address ≤ es.length
  /-- The entry at the address is the first one behind the place. -/
  first : ∀ h : address < es.length, loc.lt es[address].loc = true ∧
    ∀ e ∈ es, loc.lt e.loc = true → es[address].loc.le e.loc = true
  /-- The address is the end exactly if nothing is behind the place. -/
  at_end : address = es.length ↔ ∀ e ∈ es, loc.lt e.loc = false

/-- Entries whose places are cut in two by another place. -/
theorem pointsBehind_of_append {es : List Entry} {loc : Location} {front back : List Location}
    (split : es.map (·.loc) = front ++ back) (sorted : back.Pairwise fun a b => a.lt b = true)
    (hfront : ∀ a ∈ front, a.lt loc = true) (hback : ∀ a ∈ back, loc.lt a = true) :
    PointsBehind es loc front.length := by
  have length : es.length = front.length + back.length := by
    rw [← List.length_append, ← split, List.length_map]
  have side : ∀ e ∈ es, e.loc ∈ front ∨ e.loc ∈ back := by
    intro e he
    rw [← List.mem_append, ← split]
    exact List.mem_map_of_mem he
  refine ⟨by omega, ?_, ?_⟩
  · intro h
    cases back with
    | nil => simp at length; omega
    | cons a back =>
        have here : es[front.length].loc = a := by
          have found : (es.map (·.loc))[front.length]? = some a := by
            rw [split, List.getElem?_append_right (Nat.le_refl _), Nat.sub_self]
            rfl
          rw [List.getElem?_map, List.getElem?_eq_getElem h] at found
          exact Option.some.inj found
        rw [here]
        refine ⟨hback a List.mem_cons_self, ?_⟩
        intro e he behind
        rcases side e he with hf | hb
        · exact absurd behind (by rw [Location.lt_asymm (hfront _ hf)]; simp)
        · rcases List.mem_cons.mp hb with heq | hb'
          · rw [heq]; exact Location.le_refl a
          · exact Location.le_of_lt ((List.pairwise_cons.mp sorted).1 _ hb')
  · constructor
    · intro atEnd e he
      have empty : back = [] := List.eq_nil_of_length_eq_zero (by omega)
      rcases side e he with hf | hb
      · exact Location.lt_asymm (hfront _ hf)
      · rw [empty] at hb; cases hb
    · intro none
      cases back with
      | nil => rw [length]; rfl
      | cons a back =>
          have mem : a ∈ es.map (·.loc) := by rw [split]; simp
          obtain ⟨e, he, hloc⟩ := List.mem_map.mp mem
          have behind := hback a List.mem_cons_self
          rw [← hloc, none e he] at behind
          cases behind

/-- The address of a label points at the first instruction behind its last
definition. -/
theorem LastDefinition.pointsBehind {ss before after : List (Located Statement)}
    {definition : Located Statement} {label : String}
    (cut : LastDefinition ss label before definition after)
    (sorted : ss.Pairwise fun a b => a.loc.lt b.loc = true) (symbols : SymbolTable) :
    PointsBehind (entries symbols ss) definition.loc (before.countP (·.value.isInstruction)) := by
  have split : (entries symbols ss).map (·.loc) =
      (before.filter (·.value.isInstruction)).map (·.loc) ++
        (after.filter (·.value.isInstruction)).map (·.loc) := by
    rw [entries_loc, cut.split, List.filter_append,
      List.filter_cons_of_neg (by simp [cut.not_isInstruction]), List.map_append]
  rw [cut.split, List.pairwise_append, List.pairwise_cons] at sorted
  obtain ⟨-, ⟨hafter, sortedAfter⟩, hbefore⟩ := sorted
  rw [List.countP_eq_length_filter, ← List.length_map (f := fun s : Located Statement => s.loc)]
  refine pointsBehind_of_append split (List.pairwise_map.mpr (sortedAfter.filter _)) ?_ ?_
  · intro a ha
    obtain ⟨s, hs, rfl⟩ := List.mem_map.mp ha
    exact hbefore s (List.mem_filter.mp hs).1 definition List.mem_cons_self
  · intro a ha
    obtain ⟨s, hs, rfl⟩ := List.mem_map.mp ha
    exact hafter s (List.mem_filter.mp hs).1

/-! ## Both passes -/

/-- The addresses of a source.  The entries are numbered from zero and are the
instructions in order, and a label has the address of the first instruction
behind its last definition. -/
theorem addresses_agree (source : String) :
    let ss := statements (sourceLines source)
    let listing := assemble source
    listing.entries.map (·.address) = List.range listing.entries.length ∧
    listing.entries.length = ss.countP (·.value.isInstruction) ∧
    listing.entries.length ≤ (lines source).length ∧
    listing.entries.map (·.loc) = (ss.filter (·.value.isInstruction)).map (·.loc) ∧
    (∀ label, (listing.symbols.get? label).isSome = true ↔ ∃ s ∈ ss, s.value = .label label) ∧
    ∀ label address, listing.symbols.get? label = some address →
      ∃ before definition after, LastDefinition ss label before definition after ∧
        address = before.countP (·.value.isInstruction) ∧
        PointsBehind listing.entries definition.loc address := by
  intro ss listing
  have sorted := statements_ordered source
  have hentries : listing.entries = entries listing.symbols ss := assemble_entries source
  have hsymbols : listing.symbols = SymbolTable.ofStatements ss := assemble_symbols source
  rw [hentries]
  refine ⟨entries_address _ ss, length_entries _ ss, ?_, entries_loc _ ss, ?_, ?_⟩
  · rw [length_entries]
    exact countP_isInstruction_le_lines source
  · intro label
    rw [hsymbols]
    exact isSome_get?_ofStatements_iff
  · intro label address bound
    rw [hsymbols] at bound
    have defined : ∃ s ∈ ss, s.value = .label label :=
      isSome_get?_ofStatements_iff.mp (Option.isSome_of_eq_some bound)
    obtain ⟨before, definition, after, cut⟩ := exists_lastDefinition defined
    rw [cut.get?] at bound
    obtain rfl := Option.some.inj bound
    exact ⟨before, definition, after, cut, rfl, cut.pointsBehind sorted _⟩

end TwoPass
