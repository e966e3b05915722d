import TwoPass.Proofs.Places

/-!
# Diagnostics in one walk

Three lists of diagnostics are made apart and then sorted.  The result is what
one walk over the source says, statement by statement (`diagnostics_eq_walk`).

A walk reads each statement with the words behind it that are ignored
(`Reading`), and remembers the labels defined so far and the address of the next
instruction (`Walk`).  About a label it says whether it was defined before, and
about an instruction first whether words are ignored and then what is wrong with
its code (`Walk.remarks`).

Each of the three lists is a part of what the walk says.  The statements stand
in the order of the text, so sorting puts the parts together again
(`sortDiagnostics_spread`).
-/

namespace TwoPass

/-! ## Readings -/

/-- A statement, and the number of words that are ignored behind it if it is an
instruction. -/
structure Reading where
  /-- The statement. -/
  statement : Statement
  /-- The number of words behind the operand. -/
  ignored : Nat
deriving DecidableEq, Repr

namespace Reading

/-- The reading at the front of some words. -/
def ofWords (ws : List String) : Reading := ⟨Statement.ofWords ws, surplus ws⟩

/-- The warning about the words that are ignored. -/
def warning? (r : Reading) : Option Diagnostic :=
  match r.statement, r.ignored with
  | .instruction inst, count + 1 => some (.extraTokens inst.name (count + 1))
  | _, _ => none

/-- The readings of the tokens of a line, one label at a time. -/
def ofTokens (number : Nat) : List Token → List (Located Reading)
  | [] => [⟨⟨number, 1⟩, ⟨.blank, 0⟩⟩]
  | t :: ts =>
      if isLabel t.value then
        t.replace (ofWords [t.value]) :: (match ts with
          | [] => []
          | _ :: _ => ofTokens number ts)
      else [t.replace (ofWords ((t :: ts).map (·.value)))]

end Reading

namespace Line

variable {n : Nat} {t u : Token} {ts : List Token}

/-- The readings of a line. -/
def readings (ln : Line) : List (Located Reading) := Reading.ofTokens ln.number ln.tokens

theorem readings_label (h : isLabel t.value = true) :
    (Line.mk n [t]).readings = [t.replace (Reading.ofWords [t.value])] := by
  simp [readings, Reading.ofTokens, h]

theorem readings_label_cons (h : isLabel t.value = true) :
    (Line.mk n (t :: u :: ts)).readings =
      t.replace (Reading.ofWords [t.value]) :: (Line.mk n (u :: ts)).readings := by
  simp [readings, Reading.ofTokens, h]

theorem readings_body (h : isLabel t.value = false) :
    (Line.mk n (t :: ts)).readings = [t.replace (Reading.ofWords ((t :: ts).map (·.value)))] := by
  simp [readings, Reading.ofTokens, h]

/-- The statements of a line are those that are read. -/
theorem readings_statement (ln : Line) :
    ln.readings.map (Located.map Reading.statement) = ln.statements := by
  obtain ⟨n, ts⟩ := ln
  induction ts with
  | nil => rfl
  | cons t ts ih =>
      cases h : isLabel t.value with
      | true =>
          cases ts with
          | nil => rw [readings_label h, statements_label h]; rfl
          | cons u ts => rw [readings_label_cons h, List.map_cons, ih, statements_label_cons h]; rfl
      | false => rw [readings_body h, statements_body h]; rfl

theorem warning?_label (h : isLabel t.value = true) : (Line.mk n [t]).warning? = none := by
  simp [warning?, bodyStatement?, body, h]

theorem warning?_label_cons (h : isLabel t.value = true) :
    (Line.mk n (t :: u :: ts)).warning? = (Line.mk n (u :: ts)).warning? := by
  have dropped : (t :: u :: ts).dropWhile (isLabel ·.value) =
      (u :: ts).dropWhile (isLabel ·.value) := List.dropWhile_cons_of_pos h
  simp only [warning?, bodyStatement?, body, dropped]
  cases (u :: ts).dropWhile (isLabel ·.value) <;> rfl

theorem warning?_body (h : isLabel t.value = false) :
    (Line.mk n (t :: ts)).warning? =
      (Reading.ofWords ((t :: ts).map (·.value))).warning?.map t.replace := by
  have kept : (t :: ts).dropWhile (isLabel ·.value) = t :: ts :=
    List.dropWhile_cons_of_neg (by simp [h])
  simp only [warning?, bodyStatement?, body, kept, Reading.ofWords, Reading.warning?]
  cases Statement.ofWords ((t :: ts).map (·.value)) <;>
    cases surplus ((t :: ts).map (·.value)) <;> rfl

/-- A label leaves no words behind. -/
theorem warning?_ofWords_label (h : isLabel t.value = true) :
    (Reading.ofWords [t.value]).warning? = none := by
  obtain ⟨name, hname⟩ := Statement.ofWords_of_isLabel h
  simp [Reading.ofWords, Reading.warning?, hname]

/-- The warning of a line is that of its readings. -/
theorem spread_warning?_readings (ln : Line) :
    spread (·.warning?.toList) ln.readings = ln.warning?.toList := by
  obtain ⟨n, ts⟩ := ln
  induction ts with
  | nil => rfl
  | cons t ts ih =>
      cases h : isLabel t.value with
      | true =>
          cases ts with
          | nil =>
              rw [readings_label h, warning?_label h, spread_cons, Located.replace_value,
                warning?_ofWords_label h]
              rfl
          | cons u ts =>
              rw [readings_label_cons h, warning?_label_cons h, spread_cons, ih,
                Located.replace_value, warning?_ofWords_label h]
              rfl
      | false =>
          rw [readings_body h, warning?_body h, spread_cons, Located.replace_value]
          cases (Reading.ofWords ((t :: ts).map (·.value))).warning? <;> rfl

end Line

/-- The readings of some lines. -/
def readings (ls : List Line) : List (Located Reading) := ls.flatMap Line.readings

theorem readings_statement (ls : List Line) :
    (readings ls).map (Located.map Reading.statement) = statements ls := by
  rw [readings, List.map_flatMap, statements]
  simp only [Line.readings_statement]

theorem surplusWarnings_eq_spread (ls : List Line) :
    surplusWarnings ls = spread (·.warning?.toList) (readings ls) := by
  induction ls with
  | nil => rfl
  | cons ln ls ih =>
      rw [readings, List.flatMap_cons, spread_append, ln.spread_warning?_readings, surplusWarnings,
        List.filterMap_cons]
      rw [surplusWarnings, readings] at ih
      cases ln.warning? <;> simp [ih]

/-! ## Walks -/

/-- What is known after some statements. -/
structure Walk where
  /-- The address of the next instruction. -/
  address : Nat := 0
  /-- The labels defined so far and their addresses, last first. -/
  defined : List (String × Nat) := []

namespace Walk

/-- Pass one statement. -/
def step (w : Walk) : Statement → Walk
  | .label name => { w with defined := (name, w.address) :: w.defined }
  | .instruction _ => { w with address := w.address + 1 }
  | .blank | .comment => w

/-- The warning about a label that was defined before. -/
def duplicate? (w : Walk) : Statement → Option Diagnostic
  | .label name => (w.defined.lookup name).map (.duplicateLabel name)
  | _ => none

/-- What there is to say about a reading: about a label that it was defined
before, and about an instruction that words are ignored and then what is wrong
with its code. -/
def remarks (symbols : SymbolTable) (w : Walk) (r : Reading) : List Diagnostic :=
  match r.statement with
  | .label _ => (w.duplicate? r.statement).toList
  | .instruction inst => r.warning?.toList ++ (inst.encode symbols).problem?.toList
  | .blank | .comment => []

end Walk

/-- What a walk says, one reading after the other. -/
def walk (symbols : SymbolTable) : Walk → List (Located Reading) → List (Located Diagnostic)
  | _, [] => []
  | w, r :: rs =>
      (w.remarks symbols r.value).map r.replace ++ walk symbols (w.step r.value.statement) rs

/-! ## The parts of a walk -/

namespace Walk

/-- The readings of a walk, each with what is known before it. -/
def track : Walk → List (Located Reading) → List (Located (Walk × Reading))
  | _, [] => []
  | w, r :: rs => r.replace (w, r.value) :: track (w.step r.value.statement) rs

theorem track_snd (w : Walk) (rs : List (Located Reading)) :
    (w.track rs).map (Located.map Prod.snd) = rs := by
  induction rs generalizing w with
  | nil => rfl
  | cons r rs ih =>
      rw [track, List.map_cons, ih]
      rfl

theorem spread_track {β : Type} (f : Reading → List β) (w : Walk) (rs : List (Located Reading)) :
    spread (fun a => f a.2) (w.track rs) = spread f rs := by
  have members := spread_map f Prod.snd (w.track rs)
  rw [track_snd] at members
  exact members.symm

theorem track_ordered {rs : List (Located Reading)}
    (ordered : rs.Pairwise fun a b => a.loc.lt b.loc = true) (w : Walk) :
    (w.track rs).Pairwise fun a b => a.loc.lt b.loc = true := by
  rw [← w.track_snd rs, List.pairwise_map] at ordered
  exact ordered

theorem walk_eq_spread (symbols : SymbolTable) (w : Walk) (rs : List (Located Reading)) :
    walk symbols w rs = spread (fun a => a.1.remarks symbols a.2) (w.track rs) := by
  induction rs generalizing w with
  | nil => rfl
  | cons r rs ih =>
      rw [walk, ih, track, spread_cons]
      rfl

/-- What is wrong with the code of a statement. -/
def problem? (symbols : SymbolTable) (s : Statement) : Option Diagnostic :=
  s.instruction?.bind fun inst => (inst.encode symbols).problem?

/-- The three parts of what there is to say about a reading. -/
theorem remarks_eq_append (symbols : SymbolTable) (w : Walk) (r : Reading) :
    w.remarks symbols r =
      r.warning?.toList ++ (w.duplicate? r.statement).toList ++
        (problem? symbols r.statement).toList := by
  obtain ⟨statement, ignored⟩ := r
  cases statement with
  | blank => rfl
  | comment => rfl
  | label name => simp [remarks, Reading.warning?, problem?, Statement.instruction?]
  | instruction inst => simp [remarks, duplicate?, problem?, Statement.instruction?]

/-! ### Labels that were defined before -/

/-- The newest definition is looked up first. -/
theorem lookup_step (w : Walk) (s : Statement) (label : String) :
    (w.step s).defined.lookup label =
      if s = .label label then some w.address else w.defined.lookup label := by
  cases s with
  | blank => rfl
  | comment => rfl
  | label name =>
      rw [step, List.lookup_cons]
      by_cases same : label = name
      · simp [same]
      · rw [beq_eq_false_iff_ne.mpr same, if_neg (by simpa using Ne.symm same)]
  | instruction inst => rfl

/-- A walk knows what the first pass knows. -/
structure Follows (w : Walk) (b : Binding) : Prop where
  /-- The next address is the same. -/
  address : w.address = b.address
  /-- The labels have the same addresses. -/
  defined : ∀ name, w.defined.lookup name = b.table.get? name

theorem Follows.empty : Follows {} {} := by
  refine ⟨rfl, ?_⟩
  intro name
  exact (SymbolTable.get?_empty name).symm

theorem Follows.step {w : Walk} {b : Binding} (h : w.Follows b) (s : Located Statement) :
    (w.step s.value).Follows (b.step s) := by
  refine ⟨?_, ?_⟩
  · rw [Binding.step_address, ← h.address]
    cases s.value <;> rfl
  · intro label
    rw [lookup_step, Binding.step_get?, h.address, h.defined]

theorem Follows.foldl {w : Walk} {b : Binding} (h : w.Follows b) (ss : List (Located Statement)) :
    ((ss.map (·.value)).foldl Walk.step w).Follows (ss.foldl Binding.step b) := by
  induction ss generalizing w b with
  | nil => exact h
  | cons s ss ih => exact ih (h.step s)

theorem Follows.warning? {w : Walk} {b : Binding} (h : w.Follows b) (s : Located Statement) :
    b.warning? s = (w.duplicate? s.value).map s.replace := by
  obtain ⟨loc, value⟩ := s
  cases value with
  | blank => rfl
  | comment => rfl
  | label name =>
      simp only [Binding.warning?, duplicate?, h.defined, Option.map_map]
      rfl
  | instruction inst => rfl

/-- The warnings of the first pass are a part of the walk. -/
theorem Follows.foldl_warnings {w : Walk} {b : Binding} (h : w.Follows b)
    (rs : List (Located Reading)) :
    ((rs.map (Located.map Reading.statement)).foldl Binding.step b).warnings.reverse =
      b.warnings.reverse ++
        spread (fun a => (a.1.duplicate? a.2.statement).toList) (w.track rs) := by
  induction rs generalizing w b with
  | nil => simp [track, spread]
  | cons r rs ih =>
      have next := h.step (r.map Reading.statement)
      rw [List.map_cons, List.foldl_cons, ih next, Binding.step_warnings, h.warning?, track,
        spread_cons, List.reverse_append, List.append_assoc]
      cases hd : w.duplicate? r.value.statement <;> simp [hd, Located.replace]

theorem duplicateWarnings_eq_track (ls : List Line) :
    duplicateWarnings (statements ls) =
      spread (fun a => (a.1.duplicate? a.2.statement).toList) (Walk.track {} (readings ls)) := by
  rw [duplicateWarnings, Binding.run, ← TwoPass.readings_statement, Follows.empty.foldl_warnings]
  rfl

/-! ### Code with a marker -/

theorem problems_eq_spread (symbols : SymbolTable) (ss : List (Located Statement)) :
    problems (entries symbols ss) = spread (fun s => (problem? symbols s).toList) ss := by
  have positions := List.zipIdx_map_fst 0 (instructions ss)
  have step : problems (entries symbols ss) = (instructions ss).filterMap fun inst =>
      (inst.value.encode symbols).problem?.map inst.replace := by
    rw [problems, entries, List.filterMap_map]
    conv_rhs => rw [← positions, List.filterMap_map]
    rfl
  rw [step, instructions, List.filterMap_filterMap, spread_eq_filterMap]
  congr 1
  funext s
  obtain ⟨loc, value⟩ := s
  cases value <;> rfl

end Walk

/-- The table of some statements does not depend on where they stand. -/
theorem ofStatements_congr {ss ts : List (Located Statement)}
    (h : ss.map (·.value) = ts.map (·.value)) :
    SymbolTable.ofStatements ss = SymbolTable.ofStatements ts := by
  apply SymbolTable.ext
  intro label
  rw [SymbolTable.ofStatements, SymbolTable.ofStatements, Binding.run, Binding.run,
    ← (Walk.Follows.empty.foldl ss).defined, ← (Walk.Follows.empty.foldl ts).defined, h]

/-! ## The whole walk -/

theorem readings_ordered (source : String) :
    (readings (sourceLines source)).Pairwise fun a b => a.loc.lt b.loc = true := by
  have ordered := statements_ordered source
  rw [← readings_statement, List.pairwise_map] at ordered
  exact ordered

/-- The diagnostics of a listing are what a walk over its source says. -/
theorem assemble_diagnostics_eq_walk (source : String) :
    (assemble source).diagnostics =
      walk (assemble source).symbols {} (readings (sourceLines source)) := by
  have problems : problems (assemble source).entries =
      spread (fun r => (Walk.problem? (assemble source).symbols r.statement).toList)
        (readings (sourceLines source)) := by
    rw [assemble_entries, Walk.problems_eq_spread, ← readings_statement, spread_map]
  rw [assemble_diagnostics, problems, surplusWarnings_eq_spread, Walk.duplicateWarnings_eq_track,
    ← Walk.spread_track _ {}, ← Walk.spread_track _ {},
    sortDiagnostics_spread (Walk.track_ordered (readings_ordered source) {}), Walk.walk_eq_spread]
  simp only [Walk.remarks_eq_append]

/-- What a walk says about one reading has at most one member, unless it is a
warning about ignored words and an error of the same instruction. -/
theorem Walk.remarks_cases (symbols : SymbolTable) (w : Walk) (r : Reading) :
    (w.remarks symbols r).length ≤ 1 ∨
      ∃ inst count error, r.statement = .instruction inst ∧
        (inst.encode symbols).problem? = some error ∧
        w.remarks symbols r = [.extraTokens inst.name count, error] := by
  obtain ⟨statement, ignored⟩ := r
  cases statement with
  | blank => exact Or.inl (Nat.zero_le 1)
  | comment => exact Or.inl (Nat.zero_le 1)
  | label name =>
      refine Or.inl ?_
      rw [remarks]
      cases w.duplicate? (.label name) <;> simp
  | instruction inst =>
      cases ignored with
      | zero =>
          refine Or.inl ?_
          rw [remarks]
          cases (inst.encode symbols).problem? <;> simp [Reading.warning?]
      | succ count =>
          cases hp : (inst.encode symbols).problem? with
          | none => exact Or.inl (by simp [remarks, Reading.warning?, hp])
          | some error =>
              exact Or.inr ⟨inst, count + 1, error, rfl, hp, by simp [remarks, Reading.warning?, hp]⟩

/-- The diagnostics of a listing are what one walk over the statements of its
source says.  So they are those of the three lists, they are sorted, and two of
them share a place only if they are a warning about ignored words and an error
of the same instruction, in this order, with no third one there. -/
theorem diagnostics_eq_walk (source : String) :
    let ls := sourceLines source
    let listing := assemble source
    (readings ls).map (Located.map Reading.statement) = statements ls ∧
    listing.diagnostics = walk listing.symbols {} (readings ls) ∧
    listing.diagnostics.Perm
      (surplusWarnings ls ++ duplicateWarnings (statements ls) ++ problems listing.entries) ∧
    (listing.diagnostics.Pairwise fun a b => a.loc.le b.loc = true) ∧
    ∀ loc, (listing.diagnostics.filter (·.loc == loc)).length ≤ 1 ∨
      ∃ inst count error, ⟨loc, .instruction inst⟩ ∈ statements ls ∧
        (inst.encode listing.symbols).problem? = some error ∧ error.isError = true ∧
        listing.diagnostics.filter (·.loc == loc) =
          [⟨loc, .extraTokens inst.name count⟩, ⟨loc, error⟩] := by
  intro ls listing
  have walked : listing.diagnostics = walk listing.symbols {} (readings ls) :=
    assemble_diagnostics_eq_walk source
  refine ⟨readings_statement ls, walked, ?_, ?_, ?_⟩
  · exact List.mergeSort_perm _ _
  · exact sortDiagnostics_sorted _
  · intro loc
    have ordered := Walk.track_ordered (readings_ordered source) {}
    rw [walked, Walk.walk_eq_spread, filter_loc_spread]
    rcases filter_loc_cases ordered loc with none | ⟨x, hx, place, single⟩
    · rw [none]
      exact Or.inl (Nat.zero_le 1)
    · rw [single]
      rcases x.value.1.remarks_cases listing.symbols x.value.2 with
        few | ⟨inst, count, error, hinst, hproblem, both⟩
      · exact Or.inl (by simpa [spread] using few)
      · refine Or.inr ⟨inst, count, error, ?_, hproblem, Code.isError_of_problem? hproblem, ?_⟩
        · have mem : x.map Prod.snd ∈ readings ls := by
            rw [← Walk.track_snd {} (readings ls)]
            exact List.mem_map_of_mem hx
          have read := List.mem_map_of_mem (f := Located.map Reading.statement) mem
          rw [readings_statement] at read
          rw [← place, ← hinst]
          exact read
        · simp [spread, both, Located.replace, place]

end TwoPass
