import TwoPass.CommandLine.Run
import TwoPass.Proofs.Trees

/-!
# Running in a workspace

On a tree in memory a run is a function of the workspace: an answer, and the
workspace that is left (`Workspace.run`).  Most of what a command does only
reads, and what follows an action that only reads runs in the same workspace
(`ReadsOnly.run_bind`).

Three actions carry the commands.

* Reading an input gives the text it stands for, or a failure if it stands for
  none (`run_readText_of_text`, `run_readText_of_none`).
* Going on with a listing does so on the assembled text, or stops
  (`run_withListing_of_text`, `run_withListing_of_none`).
* Delivering a text prints it, or fills the place that the path opens, or fails
  (`run_deliver_none`, `run_deliver_of_opens`, `run_deliver_of_not_opens`).
-/

namespace TwoPass

/-! ## Runs -/

namespace Workspace

/-- The answer of an action and the workspace it leaves. -/
def run {α : Type} (w : Workspace) (action : StateM Workspace α) : α × Workspace := action w

/-- The bytes that an input path stands for. -/
def bytes? (w : Workspace) (path : String) : Option ByteArray :=
  if isStandardInput path then some w.input else (w.tree.read w.directory path).toOption

/-- The text that an input path stands for, if its bytes are UTF-8. -/
def text? (w : Workspace) (path : String) : Option String := (w.bytes? path).bind String.fromUTF8?

end Workspace

section

variable {α β : Type} {w : Workspace}

theorem run_bind (w : Workspace) (x : StateM Workspace α) (f : α → StateM Workspace β) :
    w.run (x >>= f) = (w.run x).2.run (f (w.run x).1) := rfl

/-! ## Actions that only read -/

/-- The action leaves every workspace as it is. -/
def ReadsOnly (action : StateM Workspace α) : Prop := ∀ w : Workspace, (w.run action).2 = w

namespace ReadsOnly

theorem pure (a : α) : ReadsOnly (pure a : StateM Workspace α) := fun _ => rfl

theorem run_bind {x : StateM Workspace α} (h : ReadsOnly x) (f : α → StateM Workspace β)
    (w : Workspace) : w.run (x >>= f) = w.run (f (w.run x).1) := by
  rw [TwoPass.run_bind, h w]

theorem bind {x : StateM Workspace α} {f : α → StateM Workspace β} (h : ReadsOnly x)
    (hf : ∀ a, ReadsOnly (f a)) : ReadsOnly (x >>= f) := by
  intro w
  rw [h.run_bind, hf]

/-- Actions that only read can be run one by one in the same workspace. -/
theorem run_mapM {f : α → StateM Workspace β} (h : ∀ a, ReadsOnly (f a)) (as : List α)
    (w : Workspace) : w.run (as.mapM f) = (as.map fun a => (w.run (f a)).1, w) := by
  induction as with
  | nil => rfl
  | cons a as ih =>
      rw [List.mapM_cons, (h a).run_bind, TwoPass.run_bind, ih]
      rfl

theorem read (path : String) : ReadsOnly (FileSystem.read path) := fun _ => rfl

theorem list (path : String) : ReadsOnly (FileSystem.list path) := fun _ => rfl

theorem leadsSomewhere (path : String) : ReadsOnly (FileSystem.leadsSomewhere path) := fun _ => rfl

end ReadsOnly

/-! ## Reading an input -/

theorem decodeText_mapError (bytes : ByteArray) (cause : ReadError → Failure) :
    (decodeText bytes).mapError cause =
      (String.fromUTF8? bytes).elim (.error (cause .notText)) .ok := by
  rw [decodeText]
  cases String.fromUTF8? bytes <;> rfl

/-- An input is the text it stands for, or a failure if it stands for none. -/
theorem exists_run_readText (w : Workspace) (path : String) :
    ∃ f : Failure, w.run (readText path) = ((w.text? path).elim (.error f) .ok, w) := by
  rw [readText, Workspace.text?, Workspace.bytes?]
  split
  next => exact ⟨_, Prod.ext (decodeText_mapError w.input _) rfl⟩
  next =>
    have read : (w.run (FileSystem.read path)).1 = w.tree.read w.directory path := rfl
    rw [(ReadsOnly.read path).run_bind, read]
    cases w.tree.read w.directory path with
    | error e => exact ⟨_, rfl⟩
    | ok bytes => exact ⟨_, Prod.ext (decodeText_mapError bytes _) rfl⟩

theorem ReadsOnly.readText (path : String) :
    ReadsOnly (readText path : StateM Workspace (Except Failure String)) := by
  intro w
  obtain ⟨f, run⟩ := exists_run_readText w path
  rw [run]

theorem run_readText_of_text {path text : String} (h : w.text? path = some text) :
    w.run (readText path) = (.ok text, w) := by
  obtain ⟨f, run⟩ := exists_run_readText w path
  rw [run, h]
  rfl

theorem run_readText_of_none {path : String} (h : w.text? path = none) :
    ∃ f, w.run (readText path) = (.error f, w) := by
  obtain ⟨f, run⟩ := exists_run_readText w path
  rw [run, h]
  exact ⟨f, rfl⟩

theorem run_withListing_of_text {path source : String} (h : w.text? path = some source)
    (next : Listing → StateM Workspace Report) :
    w.run (withListing path next) = w.run (next (assemble source)) := by
  rw [withListing, (ReadsOnly.readText path).run_bind, run_readText_of_text h]

/-- Without a text the failure to read it is all there is to report. -/
theorem run_withListing_of_none {path : String} (h : w.text? path = none) :
    ∃ f, ∀ next : Listing → StateM Workspace Report,
      w.run (withListing path next) = (.ofFailure "" f, w) := by
  obtain ⟨f, run⟩ := run_readText_of_none h
  refine ⟨f, fun next => ?_⟩
  rw [withListing, (ReadsOnly.readText path).run_bind, run]
  rfl

/-! ## Delivering a text -/

theorem run_write (w : Workspace) (path : String) (content : ByteArray) :
    w.run (FileSystem.write path content) =
      match w.tree.write w.directory path content with
      | .ok tree => (.ok (), { w with tree })
      | .error e => (.error e, w) := rfl

theorem run_deliver_none (w : Workspace) (text : String) (done : Report) :
    w.run (deliver none text done) = ({ done with output := text }, w) := rfl

theorem run_deliver_of_opens {path : String} {place : Place}
    (h : w.tree.Opens w.directory path place) (text : String) (done : Report) :
    w.run (deliver (some path) text done) =
      (done, { w with tree := w.tree.put place (.file text.toUTF8) }) := by
  rw [deliver, run_bind, run_write, h.write_eq]
  rfl

theorem run_deliver_of_not_opens {path : String}
    (h : ∀ place, ¬ w.tree.Opens w.directory path place) (text : String) (done : Report) :
    ∃ f, w.run (deliver (some path) text done) = (.ofFailure done.errors f, w) := by
  obtain ⟨e, error⟩ := FileTree.exists_write_eq_error h text.toUTF8
  refine ⟨.writeFile path e, ?_⟩
  rw [deliver, run_bind, run_write, error]
  rfl

/-! ## Disassembling -/

theorem run_disassemble_of_text {path listing : String} (h : w.text? path = some listing)
    (output : Option String) :
    w.run (Command.disassemble path output).run =
      match disassemble listing with
      | .error e => (.ofFailure "" (.disassemble path e), w)
      | .ok source => w.run (deliver output source {}) := by
  rw [Command.run, (ReadsOnly.readText path).run_bind, run_readText_of_text h]
  dsimp only
  cases disassemble listing <;> rfl

theorem run_disassemble_of_none {path : String} (h : w.text? path = none)
    (output : Option String) :
    ∃ f, w.run (Command.disassemble path output).run = (.ofFailure "" f, w) := by
  obtain ⟨f, run⟩ := run_readText_of_none h
  refine ⟨f, ?_⟩
  rw [Command.run, (ReadsOnly.readText path).run_bind, run]
  rfl

end

end TwoPass
