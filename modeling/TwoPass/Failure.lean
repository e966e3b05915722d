import TwoPass.Disassembly
import TwoPass.Files.Basic

/-!
# Failures

A command that cannot go on stops with a failure.  Its text names what the
command was doing and then, behind a colon, the cause.  A source or a listing
is read from standard input if its path is `-`, and from a file otherwise.
-/

namespace TwoPass

/-- Why a command stopped. -/
inductive Failure
  /-- Standard input could not be read. -/
  | readInput (cause : ReadError)
  /-- A file could not be read. -/
  | readFile (path : String) (cause : ReadError)
  /-- A file could not be written. -/
  | writeFile (path : String) (cause : FileError)
  /-- The directory of a suite could not be listed. -/
  | listSuite (directory : String) (cause : FileError)
  /-- A suite has no unit of this name. -/
  | noUnit (name : String)
  /-- A listing could not be disassembled. -/
  | disassemble (path : String) (cause : Located DecodeError)
deriving DecidableEq, Repr

/-- The text of a failure. -/
def Failure.message : Failure → String
  | readInput cause => "Could not read source from stdin: " ++ cause.message
  | readFile path cause => "Could not read '" ++ path ++ "': " ++ cause.message
  | writeFile path cause => "Could not write '" ++ path ++ "': " ++ cause.message
  | listSuite directory cause =>
      "Could not read suite directory '" ++ directory ++ "': " ++ cause.message
  | noUnit name => "No unit named '" ++ name ++ "'"
  | disassemble path cause =>
      "Disassembly of '" ++ path ++ "' failed " ++ cause.text DecodeError.message

/-- The text that an input path stands for. -/
def readText {m : Type → Type} [Monad m] [FileSystem m] (path : String) :
    m (Except Failure String) := do
  if isStandardInput path then
    return (decodeText (← FileSystem.standardInput)).mapError .readInput
  else
    match ← FileSystem.read path with
    | .error e => return .error (.readFile path (.file e))
    | .ok bytes => return (decodeText bytes).mapError (.readFile path)

end TwoPass
