import TwoPass.Text.Split

/-!
# Files

What a command asks of the files around it: read one, write one, list a
directory, and see whether a path leads anywhere.  `FileSystem` says that a
monad answers these questions.  A command is written once for all such monads,
so it runs on the files of the host and on a tree in memory alike.

Texts are UTF-8.  A file that is not is an error of its own (`ReadError`).  Paths
and the names in them are texts, so a file whose name is not UTF-8 has no path
here and is in no directory.
-/

namespace TwoPass

/-! ## Errors -/

/-- Why a path could not be used. -/
inductive FileError
  /-- Nothing is there. -/
  | notFound
  /-- A file stands where a directory should. -/
  | notDirectory
  /-- A directory stands where a file should. -/
  | isDirectory
  /-- The path or a name in it has too many bytes. -/
  | nameTooLong
  /-- Links lead to links without an end. -/
  | linkLoop
  /-- The path has a character that no name may have. -/
  | nulInPath
  /-- Anything else the host has to say. -/
  | other (text : String)
deriving DecidableEq, Repr

/-- The text of an error. -/
def FileError.message : FileError → String
  | notFound => "No such file or directory (os error 2)"
  | notDirectory => "Not a directory (os error 20)"
  | isDirectory => "Is a directory (os error 21)"
  | nameTooLong => "File name too long (os error 36)"
  | linkLoop => "Too many levels of symbolic links (os error 40)"
  | nulInPath => "file name contained an unexpected NUL byte"
  | other text => text

/-- Why a text could not be read. -/
inductive ReadError
  /-- The file could not be read. -/
  | file (error : FileError)
  /-- The bytes are not UTF-8. -/
  | notText
deriving DecidableEq, Repr

/-- The text of an error. -/
def ReadError.message : ReadError → String
  | file error => error.message
  | notText => "stream did not contain valid UTF-8"

/-! ## The questions -/

/-- A name in a directory. -/
structure DirectoryEntry where
  /-- The name. -/
  name : String
  /-- Whether it is a file itself, neither a directory nor a link. -/
  isFile : Bool
deriving DecidableEq, Repr

/-- A monad that can use files. -/
class FileSystem (m : Type → Type) where
  /-- Everything on standard input. -/
  standardInput : m ByteArray
  /-- The content of a file. -/
  read (path : String) : m (Except FileError ByteArray)
  /-- Replace the content of a file, or make the file. -/
  write (path : String) (content : ByteArray) : m (Except FileError Unit)
  /-- The names in a directory, in any order. -/
  list (path : String) : m (Except FileError (List DirectoryEntry))
  /-- Whether a path leads to a file or a directory. -/
  leadsSomewhere (path : String) : m Bool

/-! ## Texts and paths -/

/-- The text that some bytes spell. -/
def decodeText (bytes : ByteArray) : Except ReadError String :=
  match String.fromUTF8? bytes with
  | some text => .ok text
  | none => .error .notText

/-- The names of a path, with an empty name for every slash too many. -/
def pathNames (path : String) : List String :=
  (pieces (· == '/') path.toList).map String.ofList

/-- Whether an input path stands for standard input: the name `-`, whatever
empty steps follow it. -/
def isStandardInput (path : String) : Bool :=
  match pathNames path with
  | name :: rest => name == "-" && rest.all fun n => n == "" || n == "."
  | [] => false

/-- The path of a name in a directory. -/
def inDirectory (directory name : String) : String :=
  if directory.toList.getLast? == some '/' then directory ++ name else directory ++ "/" ++ name

example : isStandardInput "-/." = true ∧ isStandardInput "./-" = false := by decide
example : inDirectory "s/" "a" = "s/a" ∧ inDirectory "s" "a" = "s/a" := by decide

end TwoPass
