import Mathlib.Data.List.Forall2
import TwoPass.Proofs.Agreement
import TwoPass.Proofs.Passing

/-!
# The verdict of a suite

The report on a suite has a line for each unit that is run.  The line begins with
the number and the name of the unit (`IsUnitLine`) and tells that the unit passes,
or why it fails (`Workspace.Tells`).  The texts of the report are spelled out here
once more, with the escape sequences of their colours, so what is said of them
does not hang on how they are put together.

`suite_verdict` puts the lines between a heading and the number of units that
pass, and says what the exit status makes of that number.
-/

namespace TwoPass

/-! ## What is told of a unit -/

/-- The reason that an outcome gives for a failure, and what there is to add. -/
inductive GivesReason : Except Failure Outcome → String → String → Prop
  /-- A file is not read. -/
  | unread {path : String} {cause : ReadError} :
      GivesReason (.error (.readFile path cause)) "IO ERROR"
        (": Could not read '" ++ path ++ "': " ++ cause.message)
  /-- No listing is expected. -/
  | notExpected : GivesReason (.ok .missingExpected) "NO EXPECTED LISTING" ""
  /-- The listings differ. -/
  | mismatch {d : Difference} :
      GivesReason (.ok (.mismatch d)) "MISMATCH"
        (" at line " ++ d.line.repr
          ++ ":\n\texpected: " ++ d.expected.getD "<end of listing>"
          ++ "\n\tactual:   " ++ d.actual.getD "<end of listing>")

/-- What a report tells of a unit. -/
inductive Workspace.Tells (w : Workspace) (directory name : String) : String → Prop
  /-- The unit passes. -/
  | pass (h : name ≠ "." ∧ w.Passes directory name) :
      Tells w directory name "\x1b[1;32mPASS\x1b[0m"
  /-- The unit fails. -/
  | fail {outcome : Except Failure Outcome} {reason more : String}
      (h : ¬ (name ≠ "." ∧ w.Passes directory name)) (comes : w.Comes directory name outcome)
      (gives : GivesReason outcome reason more) :
      Tells w directory name ("\x1b[1;31mFAIL: " ++ reason ++ "\x1b[0m" ++ more)

/-- The line of a report for a unit and its number.  The number is filled up to two
characters, and the name to `width` bytes. -/
inductive IsUnitLine (w : Workspace) (directory : String) (width : Nat) (u : String × Nat) :
    String → Prop
  | intro {indent gap message : String} (indents : Fills ' ' 2 u.2.repr.length indent)
      (aligns : Fills ' ' width u.1.utf8ByteSize gap) (tells : w.Tells directory u.1 message) :
      IsUnitLine w directory width u
        ("Unit " ++ indent ++ u.2.repr ++ ": " ++ u.1 ++ " " ++ gap ++ message)

section

variable {w : Workspace} {directory name : String}

/-! ## The lines -/

theorem paint_fail (reason : String) :
    Colour.red.paint ("FAIL: " ++ reason) = "\x1b[1;31mFAIL: " ++ reason ++ "\x1b[0m" := by
  have opening : "\x1b[1;" ++ Colour.red.code.repr ++ "m" ++ "FAIL: " = "\x1b[1;31mFAIL: " := by
    decide
  rw [Colour.paint, ← String.append_assoc, opening]

theorem GivesReason.message_eq {r : UnitResult} {reason more : String}
    (h : GivesReason r.outcome reason more) :
    r.message = "\x1b[1;31mFAIL: " ++ reason ++ "\x1b[0m" ++ more := by
  obtain ⟨name, outcome⟩ := r
  rw [← paint_fail]
  cases h with
  | @unread path cause =>
      have title : "FAIL: IO ERROR" = "FAIL: " ++ "IO ERROR" := by decide
      have colon : ": Could not read '" = ": " ++ "Could not read '" := by decide
      have text : (Failure.readFile path cause).message =
          "Could not read '" ++ path ++ "': " ++ cause.message := rfl
      rw [UnitResult.message]
      dsimp only
      rw [title, text, colon]
      simp only [String.append_assoc]
  | notExpected =>
      rw [UnitResult.message]
      dsimp only
      decide
  | mismatch =>
      have title : "FAIL: MISMATCH" = "FAIL: " ++ "MISMATCH" := by decide
      rw [UnitResult.message]
      dsimp only
      rw [title]
      simp only [UnitResult.shownLine, String.append_assoc]

theorem Workspace.Comes.exists_givesReason {outcome : Except Failure Outcome}
    (h : w.Comes directory name outcome) (fails : outcome ≠ .ok .pass) :
    ∃ reason more, GivesReason outcome reason more := by
  cases h with
  | noSource h => exact ⟨_, _, .unread⟩
  | notExpected readable h => exact ⟨_, _, .notExpected⟩
  | noListing readable there h => exact ⟨_, _, .unread⟩
  | @compared source expected readable listing =>
      cases differ : compareListings expected (assemble source).text with
      | none => exact absurd (by rw [differ]; rfl) fails
      | some d => exact ⟨_, _, .mismatch⟩

theorem tells_message (w : Workspace) (directory name : String) :
    w.Tells directory name (w.unitResult directory name).message := by
  by_cases passes : (w.unitResult directory name).passes = true
  · have message : (w.unitResult directory name).message = "\x1b[1;32mPASS\x1b[0m" := by
      rw [UnitResult.message, passes_iff.mp passes]
      decide
    rw [message]
    exact .pass (passes_unitResult_iff.mp passes)
  · have comes := w.comes_unitResult directory name
    obtain ⟨reason, more, gives⟩ := comes.exists_givesReason (mt passes_iff.mpr passes)
    rw [gives.message_eq]
    exact .fail (mt passes_unitResult_iff.mpr passes) comes gives

theorem isUnitLine_line (w : Workspace) (directory : String) (width : Nat) (u : String × Nat) :
    IsUnitLine w directory width u ((w.unitResult directory u.1).line width u.2) := by
  obtain ⟨indent, indents, padded⟩ := exists_padLeft ' ' 2 u.2.repr
  have aligns : Fills ' ' width u.1.utf8ByteSize _ := fills_iff.mpr rfl
  have line := IsUnitLine.intro indents aligns (tells_message w directory u.1)
  rwa [@String.append_assoc "Unit ", ← padded] at line

example : UnitResult.line 5 3 ⟨"add", .ok .pass⟩ = "Unit  3: add   \x1b[1;32mPASS\x1b[0m" := by
  decide

/-! ## The verdict -/

/-- The report on some units, of which those that pass are told by `passes`. -/
structure Verdict (w : Workspace) (directory : String) (names : List String)
    (passes : String → Bool) (report : Report) : Prop where
  /-- A unit passes if its listing is the expected one. -/
  passes_iff : ∀ name ∈ names, passes name = true ↔ name ≠ "." ∧ w.Passes directory name
  /-- Between two rules there is a line for each unit, in order.  The names are
  filled up to the longest of them.  Behind the second rule stands how many units
  pass. -/
  output :
    let width := (names.map (·.utf8ByteSize)).max?.getD 0
    let rule := String.ofList (List.replicate (width + 45) '-')
    ∃ units, List.Forall₂ (IsUnitLine w directory width) (names.zipIdx 1) units ∧
      report.output = unlines (
        ["Running suite: '" ++ directory ++ "' (" ++ names.length.repr ++ " units)", rule]
          ++ units
          ++ [rule, "Suite Result: "
            ++ (if names.countP passes = names.length then "\x1b[1;32mSUCCESS\x1b[0m"
              else "\x1b[1;31mFAILED\x1b[0m")
            ++ ", " ++ (names.countP passes).repr ++ "/" ++ names.length.repr ++ " passes"])
  /-- Nothing is said on standard error. -/
  errors : report.errors = ""
  /-- The status tells whether all units pass. -/
  status : report.status = if names.countP passes = names.length then 0 else 1

theorem verdict_unitResults (w : Workspace) (directory : String) (selected : List String) :
    let results := selected.map (w.unitResult directory)
    Verdict w directory selected (fun name => (w.unitResult directory name).passes)
      { output := suiteReport directory results
        status := if results.all (·.passes) then 0 else 1 } := by
  intro results
  have length : results.length = selected.length := List.length_map _
  have count : results.countP (·.passes) =
      selected.countP fun name => (w.unitResult directory name).passes := List.countP_map
  refine ⟨fun name _ => passes_unitResult_iff, ?_, rfl, ?_⟩
  · intro width rule
    refine ⟨(selected.zipIdx 1).map fun u => (w.unitResult directory u.1).line width u.2, ?_, ?_⟩
    · rw [List.forall₂_map_right_iff, List.forall₂_same]
      exact fun u _ => isUnitLine_line w directory width u
    · have green : Colour.green.paint "SUCCESS" = "\x1b[1;32mSUCCESS\x1b[0m" := by decide
      have red : Colour.red.paint "FAILED" = "\x1b[1;31mFAILED\x1b[0m" := by decide
      have sizes : results.map (·.name.utf8ByteSize) = selected.map (·.utf8ByteSize) :=
        List.map_map
      have units : unitLines width results =
          (selected.zipIdx 1).map fun u => (w.unitResult directory u.1).line width u.2 := by
        rw [unitLines, List.zipIdx_map, List.map_map]
        rfl
      dsimp only
      rw [suiteReport, sizes, units, count, length, green, red]
      simp only [beq_iff_eq]
      rfl
  · have all : results.all (·.passes) = true ↔ results.countP (·.passes) = selected.length := by
      rw [← length, List.countP_eq_length, List.all_eq_true]
    simp only [all, count]

theorem Verdict.status_eq_zero {directory : String} {names : List String}
    {passes : String → Bool} {report : Report} (h : Verdict w directory names passes report)
    (all : ∀ name ∈ names, name ≠ "." ∧ w.Passes directory name) : report.status = 0 := by
  rw [h.status, if_pos]
  exact List.countP_eq_length.mpr fun name mem => (h.passes_iff name mem).mpr (all name mem)

/-- A suite runs all units that are selected, and its status tells whether all of
them pass.  It stops with status 2 if its path does not lead to a directory or
the directory has no unit of the name that is asked for. -/
theorem suite_verdict (directory : String) (only : Option String) (w : Workspace) :
    (∀ words, NamesInput directory words →
      Request.ofArguments .tpasm ("suite" :: words) = .command (.suite directory none) ∧
      ∀ name, (name.toList.head? = some '-' → name = "-") →
        Request.ofArguments .tpasm ("suite" :: "--only" :: name :: words) =
          .command (.suite directory (some name))) ∧
    ∀ program arguments, Request.ofArguments program arguments = .command (.suite directory only) →
      let report := (w.run (program.run arguments)).1
      ((∀ place, ¬ w.tree.LeadsTo w.directory false directory (.directory place)) →
        report.status = 2) ∧
      ∀ place, w.tree.LeadsTo w.directory false directory (.directory place) →
        let names := unitNames (w.tree.entries place)
        names.Pairwise (· < ·) ∧
        (∀ name, name ∈ names ↔ name ≠ "" ∧
          ∃ content, w.tree.get? (place ++ [name ++ ".tas"]) = some (.file content)) ∧
        (selection? names only = none → report.status = 2) ∧
        ∀ selected, selection? names only = some selected →
          (∃ passes, Verdict w directory selected passes report) ∧
          ((∀ name ∈ selected, name ≠ "." ∧ ∃ source expected,
            w.fileText? (inDirectory directory (name ++ ".tas")) = some source ∧
            w.fileText? (inDirectory directory (name ++ ".lst")) = some expected ∧
            (expected = (assemble source).text ∨ expected = withReturns (assemble source).text)) →
            report.status = 0) := by
  refine ⟨fun words names => ⟨ofArguments_suite names, fun name plain =>
    ofArguments_only plain names⟩, ?_⟩
  intro program arguments asked
  rw [run_of_ofArguments asked]
  refine ⟨fun nowhere => ?_, fun place leads => ⟨?_, fun _ => mem_unitNames_entries_iff,
    fun none => ?_, ?_⟩⟩
  · obtain ⟨f, run⟩ := run_suite_of_not_leadsTo nowhere only
    rw [run]
    rfl
  · exact unitNames_ordered (w.tree.entries_names_nodup place)
  · obtain ⟨f, run⟩ := run_suite_of_no_selection leads none
    rw [run]
    rfl
  · intro selected selects
    rw [run_suite_of_selection leads selects]
    have verdict := verdict_unitResults w directory selected
    refine ⟨⟨_, verdict⟩, fun listings => verdict.status_eq_zero fun name mem => ?_⟩
    obtain ⟨ne, source, expected, readable, listing, same⟩ := listings name mem
    exact ⟨ne, .of_listing readable listing same⟩

end

end TwoPass
