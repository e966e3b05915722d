import TwoPass.Proofs.Running
import TwoPass.Proofs.Units

/-!
# The order of a directory

A directory is listed in whatever order the host keeps it.  An order is anything
that lists each entry once (`ListingOrder`), and it may be another for every
listing.  The actions that run under an order are those of a workspace, except
that they list directories in that order.

Nothing that a program does depends on it.  The names of the units are sorted,
and sorting them leaves no choice (`unitNames_perm`), so the units of a directory
are found the same (`Agrees.findUnits`).  Everything else only reads and writes
files.  So a run under an order is the run in the workspace, whatever the program
and its arguments (`run_program_ordered`).
-/

namespace TwoPass

/-! ## Orders -/

/-- An order in which directories are listed. -/
structure ListingOrder where
  /-- The entries of the directory at a path as they come. -/
  arrange : Workspace → String → List DirectoryEntry → List DirectoryEntry
  /-- Each entry comes once. -/
  perm : ∀ w path es, (arrange w path es).Perm es

/-- An action on a tree that is listed in some order. -/
abbrev Ordered : Type → Type := ReaderT ListingOrder (StateM Workspace)

instance : FileSystem Ordered where
  standardInput := fun _ => FileSystem.standardInput
  read path := fun _ => FileSystem.read path
  write path content := fun _ => FileSystem.write path content
  list path := fun order w => ((w.tree.list w.directory path).map (order.arrange w path), w)
  leadsSomewhere path := fun _ => FileSystem.leadsSomewhere path

/-- The answer of an action under an order, and the workspace it leaves. -/
def ListingOrder.run {α : Type} (order : ListingOrder) (w : Workspace) (action : Ordered α) :
    α × Workspace := w.run (action order)

/-! ## Actions that agree -/

/-- Under every order the first action is the second. -/
def Agrees {α : Type} (x : Ordered α) (y : StateM Workspace α) : Prop :=
  ∀ order : ListingOrder, x order = y

namespace Agrees

variable {α β : Type}

theorem pure (a : α) : Agrees (pure a) (pure a) := fun _ => rfl

theorem bind {x : Ordered α} {y : StateM Workspace α} {f : α → Ordered β}
    {g : α → StateM Workspace β} (h : Agrees x y) (hf : ∀ a, Agrees (f a) (g a)) :
    Agrees (x >>= f) (y >>= g) := by
  intro order
  have first : (x >>= f) order = x order >>= fun a => f a order := rfl
  rw [first, h order]
  exact congrArg (y >>= ·) (funext fun a => hf a order)

theorem mapM {f : α → Ordered β} {g : α → StateM Workspace β} (h : ∀ a, Agrees (f a) (g a))
    (as : List α) : Agrees (as.mapM f) (as.mapM g) := by
  induction as with
  | nil => exact .pure []
  | cons a as ih =>
      rw [List.mapM_cons, List.mapM_cons]
      exact (h a).bind fun b => ih.bind fun bs => .pure (b :: bs)

theorem standardInput : Agrees FileSystem.standardInput FileSystem.standardInput := fun _ => rfl

theorem read (path : String) : Agrees (FileSystem.read path) (FileSystem.read path) := fun _ => rfl

theorem write (path : String) (content : ByteArray) :
    Agrees (FileSystem.write path content) (FileSystem.write path content) := fun _ => rfl

theorem leadsSomewhere (path : String) :
    Agrees (FileSystem.leadsSomewhere path) (FileSystem.leadsSomewhere path) := fun _ => rfl

theorem readText (path : String) : Agrees (readText path) (readText path) := by
  rw [TwoPass.readText, TwoPass.readText]
  split
  next => exact standardInput.bind fun _ => .pure _
  next =>
    refine (read path).bind fun answer => ?_
    cases answer <;> exact .pure _

theorem suiteUnit (directory name : String) :
    Agrees (suiteUnit directory name) (suiteUnit directory name) :=
  (leadsSomewhere _).bind fun _ => .pure _

/-- What follows a listing agrees if it does so for all orders of the entries. -/
theorem list_bind {path : String} {f : Except FileError (List DirectoryEntry) → Ordered β}
    {g : Except FileError (List DirectoryEntry) → StateM Workspace β}
    (error : ∀ e, Agrees (f (.error e)) (g (.error e)))
    (ok : ∀ es es', es.Perm es' → Agrees (f (.ok es)) (g (.ok es'))) :
    Agrees (FileSystem.list path >>= f) (FileSystem.list path >>= g) := by
  intro order
  funext w
  show f ((w.tree.list w.directory path).map (order.arrange w path)) order w =
    g (w.tree.list w.directory path) w
  cases w.tree.list w.directory path with
  | error e => exact congrFun (error e order) w
  | ok es => exact congrFun (ok _ es (order.perm w path es) order) w

theorem findUnits (directory : String) : Agrees (findUnits directory) (findUnits directory) := by
  refine list_bind (fun e => .pure _) fun es es' perm => ?_
  dsimp only
  rw [unitNames_perm perm]
  exact (mapM (suiteUnit directory) _).bind fun _ => .pure _

theorem suiteUnit_run (u : SuiteUnit) : Agrees u.run u.run := by
  refine (readText u.source).bind fun source => ?_
  cases source with
  | error f => exact .pure _
  | ok source =>
      cases u.expected with
      | none => exact .pure _
      | some path =>
          refine (readText path).bind fun expected => ?_
          cases expected <;> exact .pure _

theorem runUnits (directory : String) (us : List SuiteUnit) :
    Agrees (runUnits directory us) (runUnits directory us) :=
  (mapM (fun u => (suiteUnit_run u).bind fun _ => .pure _) us).bind fun _ => .pure _

theorem deliver (path : Option String) (text : String) (done : Report) :
    Agrees (deliver path text done) (deliver path text done) := by
  cases path with
  | none => exact .pure _
  | some path =>
      refine (write path text.toUTF8).bind fun answer => ?_
      cases answer <;> exact .pure _

theorem withListing (path : String) {next : Listing → Ordered Report}
    {next' : Listing → StateM Workspace Report} (h : ∀ l, Agrees (next l) (next' l)) :
    Agrees (withListing path next) (withListing path next') := by
  refine (readText path).bind fun source => ?_
  cases source with
  | error f => exact .pure _
  | ok source => exact h _

theorem run_command (c : Command) : Agrees c.run c.run := by
  cases c with
  | assemble input output annotate strict =>
      rw [Command.run, Command.run]
      exact withListing input fun l => deliver output _ _
  | symbols input =>
      rw [Command.run, Command.run]
      exact withListing input fun l => .pure _
  | check input =>
      rw [Command.run, Command.run]
      exact withListing input fun l => .pure _
  | disassemble input output =>
      refine (readText input).bind fun listing => ?_
      cases listing with
      | error f => exact .pure _
      | ok listing =>
          dsimp only
          cases TwoPass.disassemble listing with
          | error e => exact .pure _
          | ok source => exact deliver output source {}
  | suite directory only =>
      refine (findUnits directory).bind fun answer => ?_
      cases answer with
      | error f => exact .pure _
      | ok us =>
          cases only with
          | none => exact runUnits directory us
          | some name =>
              dsimp only
              cases us.find? (·.name == name) with
              | none => exact .pure _
              | some u => exact runUnits directory [u]

end Agrees

/-- No order of the directories is to be seen in the run of a program. -/
theorem run_program_ordered (order : ListingOrder) (w : Workspace) (program : Program)
    (arguments : List String) :
    order.run w (program.run arguments) = w.run (program.run arguments) := by
  have agrees : Agrees (program.run arguments) (program.run arguments) := by
    rw [Program.run, Program.run]
    cases Request.ofArguments program arguments with
    | command c => exact .run_command c
    | help text => exact .pure _
    | version name => exact .pure _
    | usage e => exact .pure _
    | nothingAsked text => exact .pure _
  rw [ListingOrder.run, agrees order]

end TwoPass
