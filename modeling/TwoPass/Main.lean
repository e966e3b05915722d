import TwoPass.CommandLine.Run

/-!
# The programs

The command line on the files of the host.  One executable holds both programs
and goes by its own name: called `tasm` it is the assembler alone, and under any
other name it is `tpasm`.
-/

namespace TwoPass.Host

/-- The number of an error.  The host gives some of them negated. -/
def errorNumber (code : UInt32) : UInt32 := min code (0 - code)

/-- The error of a path for an error of the host. -/
def fileError (e : IO.Error) : FileError :=
  match e with
  | .noFileOrDirectory .. => .notFound
  | .inappropriateType _ code _ | .invalidArgument _ code _ | .otherError code _ =>
      match errorNumber code with
      | 20 => .notDirectory
      | 21 => .isDirectory
      | 36 => .nameTooLong
      | 40 => .linkLoop
      | _ => .other (toString e)
  | _ => .other (toString e)

/-- An answer, or the error that came instead. -/
def attempt {α : Type} (action : IO α) : IO (Except FileError α) := do
  try return .ok (← action)
  catch e => return .error (fileError e)

/-- The rest of a stream behind what was read. -/
partial def readToEnd (stream : IO.FS.Stream) (before : ByteArray) : IO ByteArray := do
  let chunk ← stream.read 65536
  if chunk.isEmpty then return before else readToEnd stream (before ++ chunk)

/-- A name in a directory, as the host lists it. -/
def directoryEntry (e : IO.FS.DirEntry) : IO DirectoryEntry :=
  return ⟨e.fileName, (← e.path.symlinkMetadata).type == .file⟩

instance : FileSystem IO where
  standardInput := do readToEnd (← IO.getStdin) ByteArray.empty
  read path := attempt (IO.FS.readBinFile path)
  write path content := attempt (IO.FS.writeBinFile path content)
  list path := attempt do (← IO.FS.DirEntry.root ⟨path, ""⟩ |>.readDir).toList.mapM directoryEntry
  leadsSomewhere path := IO.FS.DirEntry.root ⟨path, ""⟩ |>.pathExists

end TwoPass.Host

/-- Run the program and print its report. -/
def main (arguments : List String) : IO UInt32 := do
  let program : TwoPass.Program :=
    if (← IO.appPath).fileName == some "tasm" then .tasm else .tpasm
  let report ← program.run arguments
  IO.print report.output
  IO.eprint report.errors
  return report.status.toUInt32
