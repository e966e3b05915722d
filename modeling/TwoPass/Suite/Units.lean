import TwoPass.Assembly
import TwoPass.Failure
import TwoPass.Suite.Comparison

/-!
# Units of a suite

A suite is a directory of units.  The unit `X` is a file `X.tas` in the
directory, which must be a file itself and not a link to one.  Its listing is
expected to be that of `X.lst` beside it, which may be a link.  Units are
ordered by name.

The path of the expected listing is the path of the source with its extension
exchanged.  Of `..tas` the extension leaves the name of the parent directory,
which takes no extension, so the unit `.` expects what cannot be read
(`expectedPath`).

To run a unit is to assemble its source and to compare the listings.  The source
is read first, so a source that cannot be read is told even if there is nothing
to compare it with.
-/

namespace TwoPass

/-! ## Discovery -/

/-- The characters before an ending. -/
def beforeEnding? (ending text : List Char) : Option (List Char) :=
  if ending.isSuffixOf text then some (text.take (text.length - ending.length)) else none

/-- The name of the unit whose source a directory entry is.  The file `.tas` has
no extension and is no source. -/
def unitName? (e : DirectoryEntry) : Option String :=
  if e.isFile then
    match beforeEnding? ".tas".toList e.name.toList with
    | none | some [] => none
    | some name => some (String.ofList name)
  else none

/-- The names of the units in a directory, in order. -/
def unitNames (es : List DirectoryEntry) : List String :=
  (es.filterMap unitName?).mergeSort fun a b => a ≤ b

/-- The path of the source of a unit. -/
def sourcePath (directory name : String) : String := inDirectory directory (name ++ ".tas")

/-- The path of the expected listing of a unit. -/
def expectedPath (directory name : String) : String :=
  inDirectory directory (if name == "." then ".." else name ++ ".lst")

/-- A unit of a suite. -/
structure SuiteUnit where
  /-- The name. -/
  name : String
  /-- The path of the source. -/
  source : String
  /-- The path of the expected listing, if there is one. -/
  expected : Option String
deriving DecidableEq, Repr

section

variable {m : Type → Type} [Monad m] [FileSystem m]

/-- The unit of a name in a directory. -/
def suiteUnit (directory name : String) : m SuiteUnit := do
  let expected := expectedPath directory name
  let there ← FileSystem.leadsSomewhere expected
  return ⟨name, sourcePath directory name, if there then some expected else none⟩

/-- The units in a directory. -/
def findUnits (directory : String) : m (Except Failure (List SuiteUnit)) := do
  match ← FileSystem.list directory with
  | .error e => return .error (.listSuite directory e)
  | .ok es => return .ok (← (unitNames es).mapM (suiteUnit directory))

/-! ## Runs -/

/-- What comes of a unit. -/
inductive Outcome
  /-- The listings agree. -/
  | pass
  /-- There is no expected listing. -/
  | missingExpected
  /-- The listings differ. -/
  | mismatch (difference : Difference)
deriving DecidableEq, Repr

/-- The outcome of a comparison. -/
def Outcome.ofComparison : Option Difference → Outcome
  | none => .pass
  | some d => .mismatch d

/-- Assemble a unit and compare its listing with the expected one. -/
def SuiteUnit.run (u : SuiteUnit) : m (Except Failure Outcome) := do
  match ← readText u.source with
  | .error f => return .error f
  | .ok source =>
      match u.expected with
      | none => return .ok .missingExpected
      | some path =>
          match ← readText path with
          | .error f => return .error f
          | .ok expected =>
              return .ok (.ofComparison (compareListings expected (assemble source).text))

end

example : unitName? ⟨"a.b.tas", true⟩ = some "a.b" ∧ unitName? ⟨".tas", true⟩ = none := by decide

end TwoPass
