import TwoPass.Proofs.Agreement
import TwoPass.Proofs.Bytes
import TwoPass.Proofs.ListingOrder
import TwoPass.Proofs.Verdict

/-!
# The discovery of units

A suite finds a unit for each file `X.tas` right inside its directory, if `X` is
not empty, and no other (`Discovered.names`).  Their names are strictly
increasing by their bytes, so no two units share a name.

The listing of a unit is expected at `X.lst` beside its source, and it is there
if this path leads to a file or a directory, through whatever links
(`Discovered.expected`).  Only the unit `.` is different.  The path leads through
the directory, so what it finds is what stands in the directory under that name,
unless that is a link (`finds_inDirectory_iff`).

All this is the same for every order in which the directory is listed.  A name
that is asked for with `--only` selects its one unit, or the suite fails
(`units_discovered`).
-/

namespace TwoPass

/-! ## Paths into a directory -/

/-- A name that a path into a directory can have. -/
structure FitsPath (directory name : String) : Prop where
  /-- It has no slash. -/
  no_slash : '/' ∉ name.toList
  /-- It can be spelled. -/
  no_nul : '\x00' ∉ name.toList
  /-- It is not too long. -/
  short : name.utf8ByteSize ≤ FileTree.nameLimit
  /-- The path is not too long. -/
  path_short : (inDirectory directory name).utf8ByteSize ≤ FileTree.pathLimit

namespace FileTree

variable {t : FileTree} {base place : Place} {directory name path : String} {target : Target}

/-- A path leads to a file or a directory.  Through a link to nothing it leads to
a missing name, or nowhere. -/
def Finds (t : FileTree) (base : Place) (path : String) : Prop :=
  ∃ target, t.LeadsTo base false path target ∧ ∀ place, target ≠ .missing place

theorem leadsSomewhere_iff : t.leadsSomewhere base path = true ↔ t.Finds base path := by
  rw [leadsSomewhere]
  constructor
  · intro h
    cases found : t.locate base false path with
    | error e =>
        rw [found] at h
        cases h
    | ok target =>
        refine ⟨target, locate_eq_ok_iff.mp found, ?_⟩
        rintro place rfl
        rw [found] at h
        cases h
  · rintro ⟨target, leads, there⟩
    rw [locate_eq_ok_iff.mpr leads]
    cases target with
    | file place content => rfl
    | directory place => rfl
    | missing place => exact absurd rfl (there place)

/-- A path into a directory leads to what stands there. -/
theorem LeadsTo.inDirectory (h : t.LeadsTo base false directory (.directory place))
    (fits : FitsPath directory name) (behind : t.Leads false 0 place [name] target) :
    t.LeadsTo base false (inDirectory directory name) target := by
  have names : pathNames name = [name] := by
    rw [pathNames, pieces_eq_singleton, List.map_singleton, String.ofList_toList]
    intro c mem
    rw [beq_eq_false_iff_ne]
    rintro rfl
    exact fits.no_slash mem
  obtain ⟨rest, spelled, no_nul⟩ : ∃ rest, (TwoPass.inDirectory directory name).toList =
      directory.toList ++ rest ∧ '\x00' ∉ rest := by
    rw [TwoPass.inDirectory]
    split
    next => exact ⟨name.toList, String.toList_append, fits.no_nul⟩
    next => exact ⟨'/' :: name.toList, by simp, by simp [fits.no_nul]⟩
  obtain ⟨c, cs, chars⟩ := List.exists_cons_of_ne_nil fun empty =>
    h.ne_empty (String.toList_eq_nil_iff.mp empty)
  refine ⟨?_, ?_, fits.path_short, ?_⟩
  · rw [spelled]
    exact fun mem => (List.mem_append.mp mem).elim h.no_nul no_nul
  · intro empty
    rw [empty, chars] at spelled
    cases spelled
  · obtain ⟨front, -, cut, path_names⟩ := pathNames_inDirectory directory name
    have start : startOf base (TwoPass.inDirectory directory name) = startOf base directory := by
      rw [startOf, startOf, spelled, chars]
      rfl
    rw [start, path_names, names]
    have leads := h.leads
    rcases cut with same | slash
    · rw [same] at leads
      exact leads.append behind
    · rw [slash] at leads
      exact leads.of_append_slash.append behind

/-- What a path into a directory finds is what stands there, unless it is a link. -/
theorem finds_inDirectory_iff (h : t.LeadsTo base false directory (.directory place))
    (fits : FitsPath directory name) (up : LooksUp false name [])
    (other : ∀ path, t.get? (place ++ [name]) ≠ some (.link path)) :
    t.Finds base (inDirectory directory name) ↔ (t.get? (place ++ [name])).isSome = true := by
  cases node : t.get? (place ++ [name]) with
  | none =>
      have leads := h.inDirectory fits (.missing up node)
      constructor
      · rintro ⟨target, found, there⟩
        exact absurd (leads.unique found).symm (there _)
      · intro some
        cases some
  | some n =>
      refine ⟨fun _ => rfl, fun _ => ?_⟩
      cases n with
      | file content => exact ⟨_, h.inDirectory fits (.file up node), fun _ => by simp⟩
      | directory => exact ⟨_, h.inDirectory fits (.enter up node .arrive), fun _ => by simp⟩
      | link path => exact absurd node (other path)

end FileTree

/-! ## The units -/

/-- The units of the directory `place`, which the path `directory` leads to. -/
structure Discovered (w : Workspace) (directory : String) (place : Place)
    (units : List SuiteUnit) : Prop where
  /-- There is a unit for each file with the right ending. -/
  names : ∀ name, (∃ u ∈ units, u.name = name) ↔
    name ≠ "" ∧ ∃ content, w.tree.get? (place ++ [name ++ ".tas"]) = some (.file content)
  /-- Their names are strictly increasing, so each unit comes once. -/
  ordered : units.Pairwise fun u v => bytes u.name < bytes v.name
  /-- The source of a unit is that file. -/
  source : ∀ u ∈ units, u.source = inDirectory directory (u.name ++ ".tas")
  /-- The expected listing is there if its path leads to a file or a directory. -/
  expected : ∀ u ∈ units, u.name ≠ "." → ∀ path, u.expected = some path ↔
    path = inDirectory directory (u.name ++ ".lst") ∧ w.tree.Finds w.directory path
  /-- Without a link in its place it is there if anything stands beside the source. -/
  beside : ∀ u ∈ units, u.name ≠ "." → FitsPath directory (u.name ++ ".lst") →
    (∀ path, w.tree.get? (place ++ [u.name ++ ".lst"]) ≠ some (.link path)) →
      (u.expected.isSome = true ↔ (w.tree.get? (place ++ [u.name ++ ".lst"])).isSome = true)

section

variable {w : Workspace} {directory : String} {place : Place}

theorem expected_suiteUnit (w : Workspace) (directory name : String) :
    (w.run (suiteUnit directory name)).1.expected =
      if w.tree.leadsSomewhere w.directory (expectedPath directory name) then
        some (expectedPath directory name) else none := rfl

theorem expected_eq_some_iff {name : String} (ne : name ≠ ".") {path : String} :
    (w.run (suiteUnit directory name)).1.expected = some path ↔
      path = inDirectory directory (name ++ ".lst") ∧ w.tree.Finds w.directory path := by
  rw [expected_suiteUnit, expectedPath_of_ne ne, Option.ite_none_right_eq_some, Option.some.injEq,
    FileTree.leadsSomewhere_iff]
  constructor
  · rintro ⟨finds, rfl⟩
    exact ⟨rfl, finds⟩
  · rintro ⟨rfl, finds⟩
    exact ⟨finds, rfl⟩

/-- Without a link in its place a listing is there if anything stands there. -/
theorem isSome_expected_iff
    (leads : w.tree.LeadsTo w.directory false directory (.directory place)) {name : String}
    (ne : name ≠ ".") (fits : FitsPath directory (name ++ ".lst"))
    (other : ∀ path, w.tree.get? (place ++ [name ++ ".lst"]) ≠ some (.link path)) :
    (w.run (suiteUnit directory name)).1.expected.isSome = true ↔
      (w.tree.get? (place ++ [name ++ ".lst"])).isSome = true := by
  have long : ∀ step : String, step.toList.length < 4 → name ++ ".lst" ≠ step := by
    intro step short same
    rw [← same, String.toList_append, List.length_append] at short
    exact absurd short (Nat.not_lt.mpr (Nat.le_add_left 4 _))
  have up : FileTree.LooksUp false (name ++ ".lst") [] :=
    ⟨long "" (by decide), long "." (by decide), long ".." (by decide), fits.short, by simp⟩
  rw [← FileTree.finds_inDirectory_iff leads fits up other, Option.isSome_iff_exists]
  constructor
  · rintro ⟨path, found⟩
    obtain ⟨rfl, finds⟩ := (expected_eq_some_iff ne).mp found
    exact finds
  · intro finds
    exact ⟨_, (expected_eq_some_iff ne).mpr ⟨rfl, finds⟩⟩

theorem discovered_units
    (leads : w.tree.LeadsTo w.directory false directory (.directory place)) :
    Discovered w directory place ((unitNames (w.tree.entries place)).map fun name =>
      (w.run (suiteUnit directory name)).1) := by
  refine ⟨fun name => ⟨?_, fun source => ?_⟩, ?_, List.forall_mem_map.mpr fun name _ => rfl,
    List.forall_mem_map.mpr fun name _ ne path => expected_eq_some_iff ne,
    List.forall_mem_map.mpr fun name _ ne fits other => isSome_expected_iff leads ne fits other⟩
  · rintro ⟨u, mem, rfl⟩
    obtain ⟨name, found, rfl⟩ := List.mem_map.mp mem
    exact mem_unitNames_entries_iff.mp found
  · exact ⟨_, List.mem_map_of_mem (mem_unitNames_entries_iff.mpr source), rfl⟩
  · rw [List.pairwise_map]
    exact (unitNames_ordered (w.tree.entries_names_nodup place)).imp lt_iff_bytes_lt.mp

end

/-- What a suite finds does not depend on the order of its directory.  If its
path leads to a directory it finds the units there, and a name that is asked for
selects its unit or stops the suite.  Otherwise the suite fails. -/
theorem units_discovered (w : Workspace) (directory : String) :
    ((∀ place, ¬ w.tree.LeadsTo w.directory false directory (.directory place)) →
      ∃ f, ∀ order : ListingOrder, order.run w (findUnits directory) = (.error f, w)) ∧
    (∀ place, w.tree.LeadsTo w.directory false directory (.directory place) →
      ∃ units, Discovered w directory place units ∧
        ∀ order : ListingOrder, order.run w (findUnits directory) = (.ok units, w) ∧
          ∀ program arguments name,
            Request.ofArguments program arguments = .command (.suite directory (some name)) →
            (∀ u ∈ units, u.name = name →
              order.run w (program.run arguments) = order.run w (runUnits directory [u])) ∧
            ((∀ u ∈ units, u.name ≠ name) →
              order.run w (program.run arguments) = (.ofFailure "" (.noUnit name), w))) ∧
    ∀ name words, (name.toList.head? = some '-' → name = "-") → NamesInput directory words →
      Request.ofArguments .tpasm ("suite" :: "--only" :: name :: words) =
        .command (.suite directory (some name)) := by
  have found : ∀ order : ListingOrder, order.run w (findUnits directory) =
      w.run (findUnits directory) := by
    intro order
    rw [ListingOrder.run, Agrees.findUnits directory order]
  refine ⟨fun nowhere => ?_, fun place leads => ?_,
    fun name words plain names => ofArguments_only plain names⟩
  · obtain ⟨f, run⟩ := run_findUnits_of_not_leadsTo nowhere
    exact ⟨f, fun order => (found order).trans run⟩
  · refine ⟨_, discovered_units leads, fun order =>
      ⟨(found order).trans (run_findUnits_of_leadsTo leads), ?_⟩⟩
    intro program arguments name asked
    have run : order.run w (program.run arguments) = _ :=
      (run_program_ordered order w program arguments).trans
        ((run_of_ofArguments asked).trans (run_suite_only leads name))
    rw [run]
    constructor
    · rintro u mem rfl
      obtain ⟨name, there, rfl⟩ := List.mem_map.mp mem
      rw [ListingOrder.run, Agrees.runUnits directory _ order]
      exact if_pos there
    · intro none
      refine if_neg fun there => ?_
      exact none _ (List.mem_map_of_mem there) rfl

end TwoPass
