import TwoPass.CommandLine.Request
import TwoPass.Suite.Report

/-!
# Running a request

A request comes to an end with a report: what goes to standard output, what goes
to standard error, and the exit status.

* Status 0: the request was met.
* Status 1: `check` or a strict assembly found an error in the source, a unit of
  a suite did not pass, or the arguments do not fit.
* Status 2: a failure stopped the command.

Diagnostics go to standard error and everything asked for to standard output, or
to the output file if one is given.  A file is written in one step at the end,
so a failure leaves every file as it was.
-/

namespace TwoPass

/-! ## Reports -/

/-- What a program leaves behind when it ends. -/
structure Report where
  /-- The text on standard output. -/
  output : String := ""
  /-- The text on standard error. -/
  errors : String := ""
  /-- The exit status. -/
  status : Nat := 0
deriving DecidableEq, Repr

/-- The report of a failure, behind what is on standard error already. -/
def Report.ofFailure (errors : String) (f : Failure) : Report :=
  { errors := errors ++ Colour.red.paint "error" ++ ": " ++ f.message ++ "\n", status := 2 }

/-- The severity of a diagnostic in its colour. -/
def Severity.painted : Severity → String
  | .error => Colour.red.paint Severity.error.name
  | .warning => Colour.yellow.paint Severity.warning.name

/-- The line of a diagnostic of the source at a path. -/
def diagnosticLine (path : String) (d : Located Diagnostic) : String :=
  path ++ ":" ++ d.loc.line.repr ++ ":" ++ d.loc.column.repr ++ ": "
    ++ d.value.severity.painted ++ ": " ++ d.value.message

/-- The diagnostics of a listing. -/
def diagnosticsText (path : String) (l : Listing) : String :=
  unlines (l.diagnostics.map (diagnosticLine path))

/-- The line of a symbol report.  The label is filled up to `width` characters. -/
def symbolLine (width : Nat) (b : String × Nat) : String :=
  padRight width b.1 ++ "  " ++ hexadecimal 4 b.2 ++ "  (" ++ b.2.repr ++ ")"

/-- The report on a symbol table.  The column of the addresses comes from the
longest label, and labels are measured in bytes. -/
def symbolsText (t : SymbolTable) : String :=
  let width := (t.sorted.map (·.1.utf8ByteSize)).max?.getD 0
  unlines (t.sorted.map (symbolLine width))

/-! ## Commands -/

section

variable {m : Type → Type} [Monad m] [FileSystem m]

/-- Write a text to a file or, without a path, to standard output.  `done` is the
report of the rest. -/
def deliver (path : Option String) (text : String) (done : Report) : m Report := do
  match path with
  | none => return { done with output := text }
  | some path =>
      match ← FileSystem.write path text.toUTF8 with
      | .ok () => return done
      | .error e => return .ofFailure done.errors (.writeFile path e)

/-- Assemble a source and go on with its listing. -/
def withListing (path : String) (next : Listing → m Report) : m Report := do
  match ← readText path with
  | .error f => return .ofFailure "" f
  | .ok source => next (assemble source)

/-- Run the selected units of a suite. -/
def runUnits (directory : String) (us : List SuiteUnit) : m Report := do
  let rs ← us.mapM fun u => return UnitResult.mk u.name (← u.run)
  return { output := suiteReport directory rs, status := if rs.all (·.passes) then 0 else 1 }

/-- Run a command. -/
def Command.run : Command → m Report
  | .assemble input output annotate strict =>
      withListing input fun l =>
        deliver output (if annotate then l.annotated else l.text)
          { errors := diagnosticsText input l, status := if strict && l.hasErrors then 1 else 0 }
  | .symbols input => withListing input fun l => return { output := symbolsText l.symbols }
  | .check input =>
      withListing input fun l =>
        return { errors := diagnosticsText input l, status := if l.hasErrors then 1 else 0 }
  | .disassemble input output => do
      match ← readText input with
      | .error f => return .ofFailure "" f
      | .ok listing =>
          match TwoPass.disassemble listing with
          | .error e => return .ofFailure "" (.disassemble input e)
          | .ok source => deliver output source {}
  | .suite directory only => do
      match ← findUnits directory with
      | .error f => return .ofFailure "" f
      | .ok us =>
          match only with
          | none => runUnits directory us
          | some name =>
              match us.find? (·.name == name) with
              | some u => runUnits directory [u]
              | none => return .ofFailure "" (.noUnit name)

/-! ## Requests -/

/-- The frame of a complaint about arguments.  The words for the cause, which go
in between, are left out. -/
def complaint : String := "error: \n\nFor more information try --help\n"

/-- Run a request. -/
def Request.run : Request → m Report
  | .command c => c.run
  | .help text => return { output := text }
  | .version name => return { output := name ++ " " ++ TwoPass.version ++ "\n" }
  | .usage _ => return { errors := complaint, status := 1 }
  | .nothingAsked text => return { errors := text, status := 1 }

/-- Run a program on its arguments. -/
def Program.run (p : Program) (arguments : List String) : m Report :=
  (Request.ofArguments p arguments).run

end

end TwoPass
