import TwoPass.Proofs.Running

/-!
# What commands do to files

Two commands produce a text, from one input and for one output
(`Command.production?`).  The others leave the workspace as it is.

A production is all or nothing.  If its input stands for no text, or the text is
rejected, or the output path opens no place, the command stops with status 2 and
the workspace is the one it started from (`Stopped`).  Otherwise the whole text
is delivered: it is printed, or it fills the one place that the path opens, and
every other place is as before (`Delivered`).  That place may hold the input
itself, since the input is read before anything is written.

`run_effects` says so of both programs and of all their arguments.
-/

namespace TwoPass

/-! ## Commands that only read -/

namespace ReadsOnly

variable {α β : Type}

theorem mapM {f : α → StateM Workspace β} (h : ∀ a, ReadsOnly (f a)) (as : List α) :
    ReadsOnly (as.mapM f) := by
  intro w
  rw [run_mapM h]

theorem suiteUnit (directory name : String) :
    ReadsOnly (suiteUnit directory name : StateM Workspace SuiteUnit) :=
  bind (leadsSomewhere _) fun _ => pure _

theorem findUnits (directory : String) :
    ReadsOnly (findUnits directory : StateM Workspace (Except Failure (List SuiteUnit))) := by
  refine bind (list directory) fun answer => ?_
  cases answer with
  | error e => exact pure _
  | ok es => exact bind (mapM (suiteUnit directory) _) fun _ => pure _

theorem suiteUnit_run (u : SuiteUnit) :
    ReadsOnly (u.run : StateM Workspace (Except Failure Outcome)) := by
  refine bind (readText u.source) fun source => ?_
  cases source with
  | error f => exact pure _
  | ok source =>
      cases u.expected with
      | none => exact pure _
      | some path =>
          refine bind (readText path) fun expected => ?_
          cases expected <;> exact pure _

theorem runUnits (directory : String) (us : List SuiteUnit) :
    ReadsOnly (runUnits directory us : StateM Workspace Report) :=
  bind (mapM (fun u => bind (suiteUnit_run u) fun _ => pure _) us) fun _ => pure _

theorem withListing (path : String) {next : Listing → StateM Workspace Report}
    (h : ∀ l, ReadsOnly (next l)) : ReadsOnly (withListing path next) := by
  refine bind (readText path) fun source => ?_
  cases source with
  | error f => exact pure _
  | ok source => exact h _

theorem suite (directory : String) (only : Option String) :
    ReadsOnly ((Command.suite directory only).run : StateM Workspace Report) := by
  refine bind (findUnits directory) fun answer => ?_
  cases answer with
  | error f => exact pure _
  | ok us =>
      cases only with
      | none => exact runUnits directory us
      | some name =>
          simp only
          split
          next => exact runUnits directory _
          next => exact pure _

end ReadsOnly

/-! ## Productions -/

/-- A text to make of an input and to deliver. -/
structure Production where
  /-- The path of the input. -/
  input : String
  /-- The path of the output, or nothing for standard output. -/
  output : Option String
  /-- The text that is made of an input, unless the input is rejected. -/
  make : String → Option String

/-- What a command produces besides diagnostics and reports. -/
def Command.production? : Command → Option Production
  | .assemble input output annotate _ =>
      some ⟨input, output, fun source => some <|
        if annotate then (TwoPass.assemble source).annotated else (TwoPass.assemble source).text⟩
  | .disassemble input output =>
      some ⟨input, output, fun listing => (TwoPass.disassemble listing).toOption⟩
  | .symbols _ | .check _ | .suite _ _ => none

/-- The command failed before it wrote anything. -/
structure Stopped (w : Workspace) (report : Report) (after : Workspace) : Prop where
  status : report.status = 2
  output : report.output = ""
  unchanged : after = w

/-- A text is the content of one place, which a path leads to.  Nothing else has
changed. -/
structure Filled (w : Workspace) (path : String) (place : Place) (text : String)
    (after : Workspace) : Prop where
  tree_only : after = { w with tree := after.tree }
  content : after.tree.get? place = some (.file text.toUTF8)
  others : ∀ other, other ≠ place → after.tree.get? other = w.tree.get? other
  read : after.tree.read w.directory path = .ok text.toUTF8

/-- A text went where it was to go, or the command failed because it could not. -/
structure Delivered (w : Workspace) (output : Option String) (text : String) (report : Report)
    (after : Workspace) : Prop where
  /-- Without a path the text is printed. -/
  printed : output = none → report.status ≠ 2 ∧ report.output = text ∧ after = w
  /-- A path that cannot be opened stops the command. -/
  refused : ∀ path, output = some path → (∀ place, ¬ w.tree.Opens w.directory path place) →
    Stopped w report after
  /-- Any other path gets the text. -/
  written : ∀ path place, output = some path → w.tree.Opens w.directory path place →
    report.status ≠ 2 ∧ report.output = "" ∧ Filled w path place text after

theorem stopped_of_run {w : Workspace} {action : StateM Workspace Report}
    (h : ∃ f, w.run action = (.ofFailure "" f, w)) :
    Stopped w (w.run action).1 (w.run action).2 := by
  obtain ⟨f, run⟩ := h
  rw [run]
  exact ⟨rfl, rfl, rfl⟩

theorem filled_put {w : Workspace} {path : String} {place : Place}
    (opens : w.tree.Opens w.directory path place) (text : String) :
    Filled w path place text { w with tree := w.tree.put place (.file text.toUTF8) } where
  tree_only := rfl
  content := by rw [FileTree.get?_put, if_pos rfl]
  others := fun other ne => by rw [FileTree.get?_put, if_neg ne.symm]
  read := opens.read text.toUTF8

theorem delivered_run_deliver (w : Workspace) (output : Option String) (text : String)
    {done : Report} (status : done.status ≠ 2) (silent : done.output = "") :
    Delivered w output text (w.run (deliver output text done)).1
      (w.run (deliver output text done)).2 := by
  refine ⟨?_, ?_, ?_⟩
  · rintro rfl
    rw [run_deliver_none]
    exact ⟨status, rfl, rfl⟩
  · rintro path rfl closed
    obtain ⟨f, run⟩ := run_deliver_of_not_opens closed text done
    rw [run]
    exact ⟨rfl, rfl, rfl⟩
  · rintro path place rfl opens
    rw [run_deliver_of_opens opens]
    exact ⟨status, silent, filled_put opens text⟩

/-! ## Both programs -/

/-- The two commands that produce a text stop or deliver it. -/
theorem Command.run_production {c : Command} {job : Production} (h : c.production? = some job)
    (w : Workspace) :
    (w.text? job.input = none → Stopped w (w.run c.run).1 (w.run c.run).2) ∧
    ∀ input, w.text? job.input = some input →
      (job.make input = none → Stopped w (w.run c.run).1 (w.run c.run).2) ∧
      ∀ text, job.make input = some text →
        Delivered w job.output text (w.run c.run).1 (w.run c.run).2 := by
  cases c with
  | symbols input => cases h
  | check input => cases h
  | suite directory only => cases h
  | assemble path output annotate strict =>
      obtain rfl := Option.some.inj h
      rw [Command.run]
      refine ⟨?_, ?_⟩
      · intro unreadable
        obtain ⟨f, run⟩ := run_withListing_of_none unreadable
        exact stopped_of_run ⟨f, run _⟩
      intro source readable
      rw [run_withListing_of_text readable]
      refine ⟨fun rejected => absurd rejected (Option.some_ne_none _), ?_⟩
      intro text made
      obtain rfl := Option.some.inj made
      refine delivered_run_deliver w output _ ?_ rfl
      dsimp only
      split <;> decide
  | disassemble path output =>
      obtain rfl := Option.some.inj h
      refine ⟨fun unreadable => stopped_of_run (run_disassemble_of_none unreadable output), ?_⟩
      intro listing readable
      rw [run_disassemble_of_text readable]
      dsimp only
      cases TwoPass.disassemble listing with
      | error e =>
          exact ⟨fun _ => ⟨rfl, rfl, rfl⟩, fun text made => absurd made (Option.some_ne_none _).symm⟩
      | ok source =>
          refine ⟨fun rejected => absurd rejected (Option.some_ne_none _), ?_⟩
          intro text made
          obtain rfl := Option.some.inj made
          exact delivered_run_deliver w output _ (by decide) rfl

end TwoPass
