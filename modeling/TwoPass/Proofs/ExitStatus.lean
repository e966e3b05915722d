import TwoPass.Proofs.Verdict

/-!
# The exit status

The specification of the programs gives status 2 to arguments that do not fit
and to whatever stops a command, status 1 to a command that finds what it looks
for, and status 0 to all else (`Documented`).  What stops a command and what it
finds is said of the workspace it starts in (`Command.Stops`, `Command.Finds`).

Every request has one status by the specification, and commands, help and
versions end with it.  Arguments that do not fit are the exception.  They end
with status 1, which the specification keeps for findings (`run_status`).
-/

namespace TwoPass

/-! ## The documented status -/

/-- The arguments do not fit, or there are none. -/
def Request.IsUsageError : Request → Prop
  | .usage _ | .nothingAsked _ => True
  | .command _ | .help _ | .version _ => False

/-- The path that a command reads.  A suite reads the paths of its units, and goes
on if it cannot. -/
def Command.input? : Command → Option String
  | .assemble input .. | .symbols input | .check input | .disassemble input _ => some input
  | .suite .. => none

/-- Something stops a command. -/
inductive Command.Stops (w : Workspace) : Command → Prop
  /-- The input is no text. -/
  | unreadable {c : Command} {input : String} (reads : c.input? = some input)
      (h : w.text? input = none) : Stops w c
  /-- The listing is rejected. -/
  | rejected {input listing : String} {output : Option String} {e : Located DecodeError}
      (readable : w.text? input = some listing) (h : TwoPass.disassemble listing = .error e) :
      Stops w (.disassemble input output)
  /-- The output path cannot be opened. -/
  | unwritable {c : Command} {job : Production} {path : String}
      (makes : c.production? = some job) (writes : job.output = some path)
      (h : ∀ place, ¬ w.tree.Opens w.directory path place) : Stops w c
  /-- The suite is no directory. -/
  | unlisted {directory : String} {only : Option String}
      (h : ∀ place, ¬ w.tree.LeadsTo w.directory false directory (.directory place)) :
      Stops w (.suite directory only)
  /-- The suite has no unit of the name that is asked for. -/
  | noUnit {directory : String} {only : Option String} {place : Place}
      (leads : w.tree.LeadsTo w.directory false directory (.directory place))
      (h : selection? (unitNames (w.tree.entries place)) only = none) :
      Stops w (.suite directory only)

/-- The assembly of a source has an error. -/
def Workspace.HasError (w : Workspace) (input : String) : Prop :=
  ∃ source, w.text? input = some source ∧
    ∃ d ∈ (assemble source).diagnostics, d.value.severity = .error

/-- A command finds what it looks for. -/
inductive Command.Finds (w : Workspace) : Command → Prop
  /-- A strict assembly finds an error. -/
  | strict {input : String} {output : Option String} {annotate : Bool} (h : w.HasError input) :
      Finds w (.assemble input output annotate true)
  /-- A check finds an error. -/
  | check {input : String} (h : w.HasError input) : Finds w (.check input)
  /-- A suite finds a unit that does not pass. -/
  | suite {directory name : String} {only : Option String} {place : Place}
      {selected : List String}
      (leads : w.tree.LeadsTo w.directory false directory (.directory place))
      (selects : selection? (unitNames (w.tree.entries place)) only = some selected)
      (mem : name ∈ selected) (h : ¬ (name ≠ "." ∧ w.Passes directory name)) :
      Finds w (.suite directory only)

/-- The exit status that the specification gives to a request. -/
inductive Documented (w : Workspace) : Request → Nat → Prop
  | usage {request : Request} (h : request.IsUsageError) : Documented w request 2
  | stopped {c : Command} (h : c.Stops w) : Documented w (.command c) 2
  | found {c : Command} (runs : ¬ c.Stops w) (h : c.Finds w) : Documented w (.command c) 1
  | met {c : Command} (runs : ¬ c.Stops w) (h : ¬ c.Finds w) : Documented w (.command c) 0
  | help {text : String} : Documented w (.help text) 0
  | version {name : String} : Documented w (.version name) 0

section

variable {w : Workspace}

theorem Documented.unique {request : Request} {n n' : Nat} (h : Documented w request n)
    (h' : Documented w request n') : n = n' := by
  -- No request has two rules that both apply.
  cases h <;> cases h' <;> first | rfl | contradiction

/-! ## The status of a command -/

theorem Command.exists_run_of_unreadable {c : Command} {input : String}
    (reads : c.input? = some input) (unreadable : w.text? input = none) :
    ∃ f, w.run c.run = (.ofFailure "" f, w) := by
  cases c with
  | suite directory only => cases reads
  | disassemble input output =>
      cases reads
      exact run_disassemble_of_none unreadable output
  | _ =>
      cases reads
      obtain ⟨f, run⟩ := run_withListing_of_none unreadable
      rw [Command.run]
      exact ⟨f, run _⟩

theorem Command.status_of_stops {c : Command} (h : c.Stops w) :
    (w.run c.run).1.status = 2 := by
  cases h with
  | unreadable reads unreadable =>
      exact (stopped_of_run (exists_run_of_unreadable reads unreadable)).status
  | rejected readable rejected =>
      rw [run_disassemble_of_text readable, rejected]
      rfl
  | @unwritable c job path makes writes closed =>
      obtain ⟨unread, read⟩ := Command.run_production makes w
      cases readable : w.text? job.input with
      | none => exact (unread readable).status
      | some input =>
          obtain ⟨rejected, delivered⟩ := read input readable
          cases made : job.make input with
          | none => exact (rejected made).status
          | some text => exact ((delivered text made).refused path writes closed).status
  | unlisted nowhere => exact (stopped_of_run (run_suite_of_not_leadsTo nowhere _)).status
  | noUnit leads none => exact (stopped_of_run (run_suite_of_no_selection leads none)).status

theorem status_run_deliver {output : Option String}
    (opens : ∀ path, output = some path → ∃ place, w.tree.Opens w.directory path place)
    (text : String) (done : Report) :
    (w.run (deliver output text done)).1.status = done.status := by
  cases output with
  | none => rw [run_deliver_none]
  | some path =>
      obtain ⟨place, opens⟩ := opens path rfl
      rw [run_deliver_of_opens opens]

theorem hasErrors_iff {source : String} :
    (assemble source).hasErrors = true ↔
      ∃ d ∈ (assemble source).diagnostics, d.value.severity = .error := by
  simp [Listing.hasErrors, Diagnostic.isError]

theorem Workspace.hasError_iff {input source : String} (readable : w.text? input = some source) :
    w.HasError input ↔ (assemble source).hasErrors = true := by
  rw [hasErrors_iff]
  constructor
  · rintro ⟨source', readable', error⟩
    rw [readable] at readable'
    obtain rfl := Option.some.inj readable'
    exact error
  · intro error
    exact ⟨source, readable, error⟩

/-- What is not stopped has a text to read. -/
theorem Command.exists_text?_of_runs {c : Command} (runs : ¬ c.Stops w) {input : String}
    (reads : c.input? = some input) : ∃ source, w.text? input = some source :=
  Option.ne_none_iff_exists'.mp fun none => runs (.unreadable reads none)

/-- What is not stopped has a place to write to. -/
theorem Command.exists_opens_of_runs {c : Command} (runs : ¬ c.Stops w) {job : Production}
    (makes : c.production? = some job) (path : String) (writes : job.output = some path) :
    ∃ place, w.tree.Opens w.directory path place :=
  Classical.byContradiction fun closed =>
    runs (.unwritable makes writes (not_exists.mp closed))

theorem finds_suite_iff {directory : String} {only : Option String} {place : Place}
    {selected : List String}
    (leads : w.tree.LeadsTo w.directory false directory (.directory place))
    (selects : selection? (unitNames (w.tree.entries place)) only = some selected) :
    (Command.suite directory only).Finds w ↔
      ¬ (selected.map (w.unitResult directory)).all (·.passes) = true := by
  have all : (selected.map (w.unitResult directory)).all (·.passes) = true ↔
      ∀ name ∈ selected, name ≠ "." ∧ w.Passes directory name := by
    rw [List.all_map, List.all_eq_true]
    exact forall₂_congr fun name _ => passes_unitResult_iff
  rw [all]
  constructor
  · intro h
    cases h with
    | suite leads' selects' mem fails =>
        -- The path leads to one directory only, so both selections are the same.
        obtain rfl := FileTree.Target.directory.inj (leads.unique leads')
        obtain rfl := Option.some.inj (selects.symm.trans selects')
        exact fun passes => fails (passes _ mem)
  · intro h
    obtain ⟨name, fails⟩ := Classical.not_forall.mp h
    obtain ⟨mem, fails⟩ := Classical.not_imp.mp fails
    exact .suite leads selects mem fails

/-- What is not stopped ends with status 1 if it finds something, and with status 0
if not. -/
theorem Command.exists_status_of_runs {c : Command} (runs : ¬ c.Stops w) :
    ∃ found : Bool, (w.run c.run).1.status = (if found then 1 else 0) ∧
      (c.Finds w ↔ found = true) := by
  cases c with
  | assemble input output annotate strict =>
      obtain ⟨source, readable⟩ := exists_text?_of_runs runs rfl
      refine ⟨strict && (TwoPass.assemble source).hasErrors, ?_, ?_⟩
      · rw [Command.run, run_withListing_of_text readable]
        exact status_run_deliver (exists_opens_of_runs runs rfl) _ _
      · rw [Bool.and_eq_true, ← Workspace.hasError_iff readable]
        constructor
        · intro h
          cases h with
          | strict error => exact ⟨rfl, error⟩
        · rintro ⟨rfl, error⟩
          exact .strict error
  | symbols input =>
      obtain ⟨source, readable⟩ := exists_text?_of_runs runs rfl
      refine ⟨false, ?_, by rintro ⟨⟩, by rintro ⟨⟩⟩
      rw [Command.run, run_withListing_of_text readable]
      rfl
  | check input =>
      obtain ⟨source, readable⟩ := exists_text?_of_runs runs rfl
      refine ⟨(TwoPass.assemble source).hasErrors, ?_, ?_⟩
      · rw [Command.run, run_withListing_of_text readable]
        rfl
      · rw [← Workspace.hasError_iff readable]
        constructor
        · intro h
          cases h with
          | check error => exact error
        · exact .check
  | disassemble input output =>
      obtain ⟨listing, readable⟩ := exists_text?_of_runs runs rfl
      refine ⟨false, ?_, by rintro ⟨⟩, by rintro ⟨⟩⟩
      rw [run_disassemble_of_text readable]
      cases decoded : TwoPass.disassemble listing with
      | error e => exact absurd (.rejected readable decoded) runs
      | ok source => exact status_run_deliver (exists_opens_of_runs runs rfl) _ _
  | suite directory only =>
      obtain ⟨place, leads⟩ :
          ∃ place, w.tree.LeadsTo w.directory false directory (.directory place) :=
        Classical.byContradiction fun nowhere => runs (.unlisted (not_exists.mp nowhere))
      obtain ⟨selected, selects⟩ :
          ∃ selected, selection? (unitNames (w.tree.entries place)) only = some selected :=
        Option.ne_none_iff_exists'.mp fun none => runs (.noUnit leads none)
      refine ⟨! (selected.map (w.unitResult directory)).all (·.passes), ?_, ?_⟩
      · rw [run_suite_of_selection leads selects]
        dsimp only
        cases (selected.map (w.unitResult directory)).all (·.passes) <;> rfl
      · rw [finds_suite_iff leads selects, Bool.not_eq_true', Bool.not_eq_true]

theorem Command.documented (c : Command) : Documented w (.command c) (w.run c.run).1.status := by
  by_cases stops : c.Stops w
  · rw [status_of_stops stops]
    exact .stopped stops
  · obtain ⟨found, status, finds⟩ := exists_status_of_runs stops
    rw [status]
    cases found with
    | true => exact .found stops (finds.mpr rfl)
    | false => exact .met stops fun h => absurd (finds.mp h) Bool.false_ne_true

/-! ## The status of a program -/

theorem Request.documented {request : Request} (fits : ¬ request.IsUsageError) :
    Documented w request (w.run request.run).1.status := by
  cases request with
  | command c => exact c.documented
  | help text => exact .help
  | version name => exact .version
  | usage e => exact absurd trivial fits
  | nothingAsked text => exact absurd trivial fits

theorem Request.status_of_usage {request : Request} (usage : request.IsUsageError) :
    (w.run request.run).1.status = 1 := by
  cases request with
  | command c => exact absurd usage id
  | help text => exact absurd usage id
  | version name => exact absurd usage id
  | usage e => rfl
  | nothingAsked text => rfl

/-- A program ends with the status that the specification gives to its request,
unless the arguments do not fit. -/
theorem run_status (program : Program) (arguments : List String) (w : Workspace) :
    let request := Request.ofArguments program arguments
    let status := (w.run (program.run arguments)).1.status
    (¬ request.IsUsageError → ∀ n, Documented w request n ↔ n = status) ∧
    (request.IsUsageError → status = 1 ∧ ∀ n, Documented w request n ↔ n = 2) := by
  intro request status
  have only : ∀ {m : Nat}, Documented w request m → ∀ n, Documented w request n ↔ n = m :=
    fun h n => ⟨fun h' => h'.unique h, fun same => same ▸ h⟩
  exact ⟨fun fits => only (Request.documented fits),
    fun usage => ⟨Request.status_of_usage usage, only (.usage usage)⟩⟩

/-- An unknown word ends with the status of a finding. -/
theorem run_status_of_unknown_word :
    let w : Workspace := ⟨∅, [], ⟨#[]⟩⟩
    (w.run (Program.tpasm.run ["bogus"])).1.status = 1 ∧
    Documented w (Request.ofArguments .tpasm ["bogus"]) 2 ∧
    ¬ Documented w (Request.ofArguments .tpasm ["bogus"])
      (w.run (Program.tpasm.run ["bogus"])).1.status := by
  intro w
  have request : Request.ofArguments .tpasm ["bogus"] = .usage (.noCommand "bogus") := by decide
  have status : (w.run (Program.tpasm.run ["bogus"])).1.status = 1 := by
    rw [Program.run, request]
    rfl
  have documented : Documented w (Request.ofArguments .tpasm ["bogus"]) 2 := by
    rw [request]
    exact .usage trivial
  refine ⟨status, documented, fun h => ?_⟩
  rw [status] at h
  cases h.unique documented

end

end TwoPass
