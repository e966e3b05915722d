import TwoPass.Proofs.Comparison
import TwoPass.Proofs.Effects
import TwoPass.Proofs.Units

/-!
# Running the units of a suite

A unit passes if both its files are texts and its expected listing is the
assembled source, but for returns and the final newline (`Workspace.Passes`).
The unit `.` is the exception.  Its expected path ends in a step up, so it leads
to a directory if it leads anywhere, and the unit never passes
(`passes_unitResult_iff`).

The source of a unit is read first, then its expected listing, and the outcome
tells how far that went (`Workspace.Comes`).

A suite runs one unit after the other, and each run leaves the workspace as it
was.  So the outcome of a unit is the same in every suite
(`Workspace.unitResult`), and the report on the suite is the report on these
outcomes (`run_suite_of_selection`).
-/

namespace TwoPass

/-! ## The paths of a unit -/

/-- The names of a path into a directory are those of the directory, but for a
slash at its end, and that of the path. -/
theorem pathNames_inDirectory (directory name : String) :
    ∃ front, front ≠ [] ∧ (pathNames directory = front ∨ pathNames directory = front ++ [""]) ∧
      pathNames (inDirectory directory name) = front ++ pathNames name := by
  have cut : ∀ (above : List Char) (path rest : String), path.toList = above ++ '/' :: rest.toList →
      pathNames path = (pieces (· == '/') above).map String.ofList ++ pathNames rest := by
    intro above path rest spelled
    rw [pathNames, spelled, pieces_append_sep (by decide), List.map_append]
    rfl
  rw [inDirectory]
  split
  next slash =>
    obtain ⟨above, spelled⟩ := List.getLast?_eq_some_iff.mp (beq_iff_eq.mp slash)
    exact ⟨_, by simp [pieces_ne_nil], Or.inr (cut above directory "" (by simp [spelled])),
      cut above _ name (by simp [spelled])⟩
  next =>
    exact ⟨pathNames directory, by simp [pathNames, pieces_ne_nil], Or.inl rfl,
      cut directory.toList _ name (by simp)⟩

/-- A path into a directory is a file's unless its last step goes nowhere. -/
theorem isStandardInput_inDirectory {directory name last : String}
    (ends : (pathNames name).getLast? = some last) (step : last ≠ "" ∧ last ≠ ".") :
    isStandardInput (inDirectory directory name) = false := by
  obtain ⟨front, ne, -, names⟩ := pathNames_inDirectory directory name
  obtain ⟨head, above, rfl⟩ := List.exists_cons_of_ne_nil ne
  have mem : last ∈ above ++ pathNames name :=
    List.mem_append_right _ (List.mem_of_getLast? ends)
  have goes : (above ++ pathNames name).all (fun n => n == "" || n == ".") = false :=
    List.all_eq_false.mpr ⟨last, mem, by simp [step]⟩
  rw [isStandardInput, names, List.cons_append]
  simp only [goes, Bool.and_false]

/-- A long enough ending without a slash makes the path of a file. -/
theorem isStandardInput_inDirectory_append (directory name : String) {ending : String}
    (slash : '/' ∉ ending.toList) (long : 1 < ending.toList.length) :
    isStandardInput (inDirectory directory (name ++ ending)) = false := by
  have keep : ∀ c ∈ ending.toList, (c == '/') = false := by
    intro c mem
    rw [beq_eq_false_iff_ne]
    rintro rfl
    exact slash mem
  obtain ⟨front, last, -, cut⟩ := pieces_append_keep (l := name.toList) keep
  have ends : (pathNames (name ++ ending)).getLast? =
      some (String.ofList (last ++ ending.toList)) := by
    rw [pathNames, String.toList_append, cut, List.map_append, List.map_singleton,
      List.getLast?_concat]
  have shorter : ∀ word : String, word.toList.length ≤ 1 →
      String.ofList (last ++ ending.toList) ≠ word := by
    rintro word short rfl
    rw [String.toList_ofList, List.length_append] at short
    omega
  exact isStandardInput_inDirectory ends ⟨shorter "" (by decide), shorter "." (by decide)⟩

theorem isStandardInput_sourcePath (directory name : String) :
    isStandardInput (sourcePath directory name) = false :=
  isStandardInput_inDirectory_append directory name (by decide) (by decide)

theorem isStandardInput_expectedPath (directory name : String) :
    isStandardInput (expectedPath directory name) = false := by
  rw [expectedPath]
  split
  next =>
    have up : (pathNames "..").getLast? = some ".." := by decide
    exact isStandardInput_inDirectory up (by decide)
  next => exact isStandardInput_inDirectory_append directory name (by decide) (by decide)

theorem expectedPath_of_ne {directory name : String} (h : name ≠ ".") :
    expectedPath directory name = inDirectory directory (name ++ ".lst") := by
  rw [expectedPath, if_neg (by simpa using h)]

namespace Workspace

/-- The text of the file that a path leads to. -/
def fileText? (w : Workspace) (path : String) : Option String :=
  (w.tree.read w.directory path).toOption.bind String.fromUTF8?

variable {w : Workspace} {path : String}

theorem text?_eq_fileText? (h : isStandardInput path = false) :
    w.text? path = w.fileText? path := by
  rw [text?, bytes?, h]
  rfl

theorem text?_sourcePath (w : Workspace) (directory name : String) :
    w.text? (sourcePath directory name) = w.fileText? (inDirectory directory (name ++ ".tas")) :=
  text?_eq_fileText? (isStandardInput_sourcePath directory name)

theorem text?_expectedPath (w : Workspace) (directory : String) {name : String} (h : name ≠ ".") :
    w.text? (expectedPath directory name) =
      w.fileText? (inDirectory directory (name ++ ".lst")) := by
  rw [text?_eq_fileText? (isStandardInput_expectedPath directory name), expectedPath_of_ne h]

theorem text?_eq_none_of_leadsSomewhere (isFile : isStandardInput path = false)
    (h : w.tree.leadsSomewhere w.directory path = false) : w.text? path = none := by
  rw [FileTree.leadsSomewhere] at h
  rw [text?_eq_fileText? isFile, fileText?, FileTree.read]
  cases found : w.tree.locate w.directory false path with
  | error e => rfl
  | ok target =>
      rw [found] at h
      cases target with
      | file place content => cases h
      | directory place => cases h
      | missing place => rfl

/-- The directory above is no text. -/
theorem text?_expectedPath_dot (w : Workspace) (directory : String) :
    w.text? (expectedPath directory ".") = none := by
  have up : (pathNames (inDirectory directory "..")).getLast? = some ".." := by
    obtain ⟨front, -, -, names⟩ := pathNames_inDirectory directory ".."
    have last : (pathNames "..").getLast? = some ".." := by decide
    rw [names, List.getLast?_append, last, Option.some_or]
  rw [text?_eq_fileText? (isStandardInput_expectedPath directory "."), expectedPath,
    if_pos (by decide), fileText?, FileTree.read]
  cases found : w.tree.locate w.directory false (inDirectory directory "..") with
  | error e => rfl
  | ok target =>
      have leads := (FileTree.locate_eq_ok_iff.mp found).leads
      obtain ⟨place, rfl⟩ := leads.directory_of_up up
      rfl

/-! ## Units that pass -/

/-- Both files of the unit are texts, and the compared lines of the expected
listing are the assembled source. -/
def Passes (w : Workspace) (directory name : String) : Prop :=
  ∃ source expected, w.fileText? (inDirectory directory (name ++ ".tas")) = some source ∧
    w.fileText? (inDirectory directory (name ++ ".lst")) = some expected ∧
    unlines (comparedLines expected) = (assemble source).text

/-- The expected listing is the assembled source, as it is or with returns. -/
theorem Passes.of_listing {directory name source expected : String}
    (readable : w.fileText? (inDirectory directory (name ++ ".tas")) = some source)
    (listing : w.fileText? (inDirectory directory (name ++ ".lst")) = some expected)
    (same : expected = (assemble source).text ∨ expected = withReturns (assemble source).text) :
    w.Passes directory name := by
  refine ⟨source, expected, readable, listing, ?_⟩
  rw [← compareListings_text_eq_none_iff, compareListings_eq_none_iff]
  rcases same with same | same
  · rw [same]
  · rw [same, comparedLines_withReturns]

/-! ## What comes of a unit -/

/-- A unit and its outcome. -/
def unitResult (w : Workspace) (directory name : String) : UnitResult :=
  ⟨name, (w.run (w.run (suiteUnit directory name)).1.run).1⟩

/-- A file is not read as a text, for a cause. -/
inductive Unreadable (w : Workspace) (path : String) : ReadError → Prop
  /-- The path does not lead to a file. -/
  | file {e : FileError} (h : w.tree.read w.directory path = .error e) :
      Unreadable w path (.file e)
  /-- The bytes of the file are not UTF-8. -/
  | notText {bytes : ByteArray} (h : w.tree.read w.directory path = .ok bytes)
      (invalid : String.fromUTF8? bytes = none) : Unreadable w path .notText

theorem Unreadable.text?_eq_none {cause : ReadError} (h : w.Unreadable path cause)
    (isFile : isStandardInput path = false) : w.text? path = none := by
  rw [text?_eq_fileText? isFile, fileText?]
  cases h with
  | file h =>
      rw [h]
      rfl
  | notText h invalid =>
      rw [h]
      exact invalid

/-- What comes of a unit.  The source is read first. -/
inductive Comes (w : Workspace) (directory name : String) : Except Failure Outcome → Prop
  /-- The source is not read. -/
  | noSource {cause : ReadError} (h : w.Unreadable (sourcePath directory name) cause) :
      Comes w directory name (.error (.readFile (sourcePath directory name) cause))
  /-- No listing is expected. -/
  | notExpected {source : String} (readable : w.text? (sourcePath directory name) = some source)
      (h : w.tree.leadsSomewhere w.directory (expectedPath directory name) = false) :
      Comes w directory name (.ok .missingExpected)
  /-- The expected listing is not read. -/
  | noListing {source : String} {cause : ReadError}
      (readable : w.text? (sourcePath directory name) = some source)
      (there : w.tree.leadsSomewhere w.directory (expectedPath directory name) = true)
      (h : w.Unreadable (expectedPath directory name) cause) :
      Comes w directory name (.error (.readFile (expectedPath directory name) cause))
  /-- The two listings are compared. -/
  | compared {source expected : String}
      (readable : w.text? (sourcePath directory name) = some source)
      (listing : w.text? (expectedPath directory name) = some expected) :
      Comes w directory name
        (.ok (.ofComparison (compareListings expected (assemble source).text)))

end Workspace

section

variable {w : Workspace}

theorem outcome_ofComparison_eq_pass_iff {difference : Option Difference} :
    Outcome.ofComparison difference = .pass ↔ difference = none := by
  cases difference <;> simp [Outcome.ofComparison]

theorem passes_iff {r : UnitResult} : r.passes = true ↔ r.outcome = .ok .pass := by
  rw [UnitResult.passes]
  split <;> simp_all

/-- A path that names a file fails to be read for what is wrong with the file. -/
theorem exists_run_readText_unreadable {path : String} (isFile : isStandardInput path = false)
    (none : w.text? path = none) :
    ∃ cause, w.run (readText path) = (.error (.readFile path cause), w) ∧
      w.Unreadable path cause := by
  have answer : (w.run (FileSystem.read path)).1 = w.tree.read w.directory path := rfl
  rw [Workspace.text?_eq_fileText? isFile] at none
  rw [readText, isFile, if_neg Bool.false_ne_true, (ReadsOnly.read path).run_bind, answer]
  cases read : w.tree.read w.directory path with
  | error e => exact ⟨.file e, rfl, .file read⟩
  | ok bytes =>
      rw [Workspace.fileText?, read] at none
      have invalid : String.fromUTF8? bytes = .none := none
      refine ⟨.notText, Prod.ext ((decodeText_mapError bytes _).trans ?_) rfl,
        .notText read invalid⟩
      rw [invalid]
      rfl

theorem Workspace.comes_unitResult (w : Workspace) (directory name : String) :
    w.Comes directory name (w.unitResult directory name).outcome := by
  have ran : (w.unitResult directory name).outcome = (w.run (SuiteUnit.run
      ⟨name, sourcePath directory name,
        if w.tree.leadsSomewhere w.directory (expectedPath directory name) then
          some (expectedPath directory name) else none⟩)).1 := rfl
  rw [ran, SuiteUnit.run, (ReadsOnly.readText _).run_bind]
  cases readable : w.text? (sourcePath directory name) with
  | none =>
      obtain ⟨cause, run, unreadable⟩ :=
        exists_run_readText_unreadable (isStandardInput_sourcePath directory name) readable
      rw [run]
      exact .noSource unreadable
  | some source =>
      rw [run_readText_of_text readable]
      cases there : w.tree.leadsSomewhere w.directory (expectedPath directory name) with
      | false => exact .notExpected readable there
      | true =>
          rw [if_pos rfl]
          dsimp only
          rw [(ReadsOnly.readText _).run_bind]
          cases listing : w.text? (expectedPath directory name) with
          | none =>
              obtain ⟨cause, run, unreadable⟩ := exists_run_readText_unreadable
                (isStandardInput_expectedPath directory name) listing
              rw [run]
              exact .noListing readable there unreadable
          | some expected =>
              rw [run_readText_of_text listing]
              exact .compared readable listing

/-- The unit `.` has no text to expect, so its two paths do not matter. -/
theorem passes_iff_compareListings {directory name : String} :
    name ≠ "." ∧ w.Passes directory name ↔
      ∃ source expected, w.text? (sourcePath directory name) = some source ∧
        w.text? (expectedPath directory name) = some expected ∧
        compareListings expected (assemble source).text = none := by
  simp only [compareListings_text_eq_none_iff, w.text?_sourcePath]
  constructor
  · rintro ⟨ne, passes⟩
    rwa [w.text?_expectedPath directory ne]
  · rintro ⟨source, expected, readable, listing, agree⟩
    have ne : name ≠ "." := by
      rintro rfl
      rw [w.text?_expectedPath_dot] at listing
      cases listing
    rw [w.text?_expectedPath directory ne] at listing
    exact ⟨ne, source, expected, readable, listing, agree⟩

/-- A unit passes if both its files are texts and its listing is the expected one. -/
theorem passes_unitResult_iff {directory name : String} :
    (w.unitResult directory name).passes = true ↔ name ≠ "." ∧ w.Passes directory name := by
  have comes := w.comes_unitResult directory name
  rw [passes_iff, passes_iff_compareListings]
  generalize (w.unitResult directory name).outcome = outcome at comes
  cases comes with
  | noSource h =>
      have unread := h.text?_eq_none (isStandardInput_sourcePath directory name)
      simp [unread]
  | notExpected readable h =>
      have unread := Workspace.text?_eq_none_of_leadsSomewhere
        (isStandardInput_expectedPath directory name) h
      simp [unread]
  | noListing readable there h =>
      have unread := h.text?_eq_none (isStandardInput_expectedPath directory name)
      simp [unread]
  | compared readable listing =>
      simp [readable, listing, outcome_ofComparison_eq_pass_iff]

/-! ## Runs of a suite -/

theorem run_findUnits_of_leadsTo {directory : String} {place : Place}
    (h : w.tree.LeadsTo w.directory false directory (.directory place)) :
    w.run (findUnits directory) =
      (.ok ((unitNames (w.tree.entries place)).map fun name =>
        (w.run (suiteUnit directory name)).1), w) := by
  have listed : (w.run (FileSystem.list directory)).1 = .ok (w.tree.entries place) :=
    FileTree.list_eq_ok_iff.mpr ⟨place, h, rfl⟩
  rw [findUnits, (ReadsOnly.list directory).run_bind, listed]
  dsimp only
  rw [run_bind, ReadsOnly.run_mapM (ReadsOnly.suiteUnit directory)]
  rfl

theorem run_findUnits_of_not_leadsTo {directory : String}
    (h : ∀ place, ¬ w.tree.LeadsTo w.directory false directory (.directory place)) :
    ∃ f, w.run (findUnits directory) = (.error f, w) := by
  rw [findUnits, (ReadsOnly.list directory).run_bind]
  cases listed : (w.run (FileSystem.list directory)).1 with
  | error e => exact ⟨_, rfl⟩
  | ok es =>
      obtain ⟨place, leads, -⟩ := FileTree.list_eq_ok_iff.mp listed
      exact absurd leads (h place)

/-- Units run one by one in the same workspace. -/
theorem run_runUnits (w : Workspace) (directory : String) (names : List String) :
    w.run (runUnits directory (names.map fun name => (w.run (suiteUnit directory name)).1)) =
      ({ output := suiteReport directory (names.map (w.unitResult directory))
         status := if (names.map (w.unitResult directory)).all (·.passes) then 0 else 1 }, w) := by
  rw [runUnits, run_bind, ReadsOnly.run_mapM fun u => .bind (.suiteUnit_run u) fun _ => .pure _,
    List.map_map]
  rfl

/-- The units to run, of those that there are. -/
def selection? (names : List String) : Option String → Option (List String)
  | none => some names
  | some name => if name ∈ names then some [name] else none

theorem find?_suiteUnit (w : Workspace) (directory name : String) (names : List String) :
    (names.map fun n => (w.run (suiteUnit directory n)).1).find? (·.name == name) =
      if name ∈ names then some (w.run (suiteUnit directory name)).1 else none := by
  rw [List.find?_map]
  change (names.find? (· == name)).map _ = _
  cases found : names.find? (· == name) with
  | none =>
      have absent : name ∉ names := fun mem => by simpa using List.find?_eq_none.mp found name mem
      rw [if_neg absent]
      rfl
  | some n =>
      obtain rfl : n = name := by simpa using List.find?_some found
      rw [if_pos (List.mem_of_find?_eq_some found)]
      rfl

theorem run_suite_of_not_leadsTo {directory : String}
    (h : ∀ place, ¬ w.tree.LeadsTo w.directory false directory (.directory place))
    (only : Option String) :
    ∃ f, w.run (Command.suite directory only).run = (.ofFailure "" f, w) := by
  obtain ⟨f, run⟩ := run_findUnits_of_not_leadsTo h
  refine ⟨f, ?_⟩
  rw [Command.run, run_bind, run]
  rfl

section

variable {directory : String} {only : Option String} {place : Place}

/-- A name that is asked for selects its unit, or there is none. -/
theorem run_suite_only (h : w.tree.LeadsTo w.directory false directory (.directory place))
    (name : String) :
    w.run (Command.suite directory (some name)).run =
      if name ∈ unitNames (w.tree.entries place) then
        w.run (runUnits directory [(w.run (suiteUnit directory name)).1])
      else (.ofFailure "" (.noUnit name), w) := by
  rw [Command.run, run_bind, run_findUnits_of_leadsTo h]
  dsimp only
  rw [find?_suiteUnit]
  by_cases mem : name ∈ unitNames (w.tree.entries place)
  · rw [if_pos mem, if_pos mem]
  · rw [if_neg mem, if_neg mem]
    rfl

theorem run_suite_of_selection {selected : List String}
    (h : w.tree.LeadsTo w.directory false directory (.directory place))
    (selects : selection? (unitNames (w.tree.entries place)) only = some selected) :
    w.run (Command.suite directory only).run =
      ({ output := suiteReport directory (selected.map (w.unitResult directory))
         status :=
           if (selected.map (w.unitResult directory)).all (·.passes) then 0 else 1 }, w) := by
  cases only with
  | none =>
      obtain rfl := Option.some.inj selects
      rw [Command.run, run_bind, run_findUnits_of_leadsTo h]
      exact run_runUnits w directory _
  | some name =>
      rw [selection?] at selects
      split at selects
      next mem =>
        obtain rfl := Option.some.inj selects
        rw [run_suite_only h, if_pos mem]
        exact run_runUnits w directory [name]
      next => cases selects

theorem run_suite_of_no_selection
    (h : w.tree.LeadsTo w.directory false directory (.directory place))
    (selects : selection? (unitNames (w.tree.entries place)) only = none) :
    ∃ f, w.run (Command.suite directory only).run = (.ofFailure "" f, w) := by
  cases only with
  | none => cases selects
  | some name =>
      rw [selection?] at selects
      split at selects
      next => cases selects
      next absent => exact ⟨.noUnit name, by rw [run_suite_only h, if_neg absent]⟩

end

end

end TwoPass
