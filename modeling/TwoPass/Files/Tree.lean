import Std.Data.ExtTreeMap
import TwoPass.Files.Basic

/-!
# Trees of files

A tree in memory on which commands run without a host.  A place in the tree is
the list of names that leads to it from the root.  Files, directories and links
are the nodes.

A path is followed name by name (`walk`), from the root if it starts with a
slash and from the working directory otherwise (`startOf`).  The step `..` leads
to the directory above, and at the root it leads nowhere else.  A link is
replaced by the names of its target, which start at the root or at the directory
of the link, and the walk goes on from there.
At most `linkLimit` links are followed, so every walk ends (`follow`).  Names and
paths have a greatest length in bytes.

A path that ends in a slash must lead to a directory.  A file is never made
under such a path, even if nothing is there yet.
-/

namespace TwoPass

/-! ## Trees -/

/-- A place in a tree: the names from the root. -/
abbrev Place := List String

/-- Contents are compared byte by byte. -/
instance (priority := high) instDecidableEqContent : DecidableEq ByteArray := ByteArray.decEq

/-- What can be at a place. -/
inductive Node
  /-- A file. -/
  | file (content : ByteArray)
  /-- A directory. -/
  | directory
  /-- A link to the path `target`. -/
  | link (target : String)
deriving DecidableEq

/-- A tree of files. -/
structure FileTree where
  /-- The node at each place but the root. -/
  nodes : Std.ExtTreeMap Place Node

namespace FileTree

/-- The tree that is an empty directory. -/
def empty : FileTree := ⟨∅⟩

instance : EmptyCollection FileTree := ⟨empty⟩

instance : Inhabited FileTree := ⟨∅⟩

/-- The node at a place. -/
def get? (t : FileTree) (place : Place) : Option Node := t.nodes[place]?

/-- Put a node at a place. -/
def put (t : FileTree) (place : Place) (node : Node) : FileTree := ⟨t.nodes.insert place node⟩

/-- Make a directory at a place where nothing is. -/
def makeDirectory (t : FileTree) (place : Place) : FileTree :=
  ⟨t.nodes.insertIfNew place .directory⟩

/-- Put a node at a place and make the directories above it. -/
def putWithParents (t : FileTree) (place : Place) (node : Node) : FileTree :=
  (((List.range' 1 (place.length - 1)).map place.take).foldl makeDirectory t).put place node

/-- The files of a tree with their contents. -/
def files (t : FileTree) : List (Place × ByteArray) :=
  t.nodes.toList.filterMap fun
    | (place, .file content) => some (place, content)
    | _ => none

/-- The names in a directory. -/
def entries (t : FileTree) (directory : Place) : List DirectoryEntry :=
  t.nodes.toList.filterMap fun (place, node) =>
    match place.getLast? with
    | some name =>
        if place.dropLast == directory then
          some ⟨name, match node with
            | .file _ => true
            | .directory | .link _ => false⟩
        else none
    | none => none

/-! ## Following paths -/

/-- The most bytes of a name. -/
def nameLimit : Nat := 255

/-- The most bytes of a path as it is given.  What links put in its place may be
longer. -/
def pathLimit : Nat := 4095

/-- The most links that one path may lead through. -/
def linkLimit : Nat := 40

/-- Where a path leads. -/
inductive Target
  /-- To a file. -/
  | file (place : Place) (content : ByteArray)
  /-- To a directory. -/
  | directory (place : Place)
  /-- To a name that is missing from a directory. -/
  | missing (place : Place)

/-- How far a walk gets without following a link. -/
inductive Walk
  /-- To the end of the path. -/
  | arrived (target : Target)
  /-- To a link in a directory, with names still to go. -/
  | atLink (directory : Place) (target : String) (rest : List String)
  /-- To a name that cannot be passed. -/
  | failed (error : FileError)

/-- Walk down some names from a directory.  If `making` then a file is about to
be made at the end. -/
def walk (t : FileTree) (making : Bool) : Place → List String → Walk
  | directory, [] => .arrived (.directory directory)
  | directory, name :: rest =>
      if name == "" || name == "." then walk t making directory rest
      else if name == ".." then walk t making directory.dropLast rest
      else if making && ! rest.isEmpty && rest.all (·.isEmpty) then .failed .isDirectory
      else if nameLimit < name.utf8ByteSize then .failed .nameTooLong
      else
        match t.get? (directory ++ [name]) with
        | some .directory => walk t making (directory ++ [name]) rest
        | some (.file content) =>
            if rest.isEmpty then .arrived (.file (directory ++ [name]) content)
            else .failed .notDirectory
        | some (.link target) => .atLink directory target rest
        | none =>
            if rest.isEmpty then .arrived (.missing (directory ++ [name])) else .failed .notFound

/-- Where the names of a path start, seen from a directory. -/
def startOf (base : Place) (path : String) : Place :=
  if path.toList.head? == some '/' then [] else base

/-- Walk down some names and follow at most `links` links. -/
def follow (t : FileTree) (making : Bool) : Nat → Place → List String → Except FileError Target
  | links, directory, names =>
      match walk t making directory names, links with
      | .arrived target, _ => .ok target
      | .failed error, _ => .error error
      | .atLink .., 0 => .error .linkLoop
      | .atLink directory target rest, links + 1 =>
          follow t making links (startOf directory target) (pathNames target ++ rest)

/-- Where a path leads from a directory. -/
def locate (t : FileTree) (base : Place) (making : Bool) (path : String) :
    Except FileError Target :=
  if path.toList.contains '\x00' then .error .nulInPath
  else if path.isEmpty then .error .notFound
  else if pathLimit < path.utf8ByteSize then .error .nameTooLong
  else follow t making linkLimit (startOf base path) (pathNames path)

/-! ## The questions -/

/-- The content of the file a path leads to. -/
def read (t : FileTree) (base : Place) (path : String) : Except FileError ByteArray := do
  match ← t.locate base false path with
  | .file _ content => .ok content
  | .directory _ => .error .isDirectory
  | .missing _ => .error .notFound

/-- The tree with new content in the file a path leads to. -/
def write (t : FileTree) (base : Place) (path : String) (content : ByteArray) :
    Except FileError FileTree := do
  match ← t.locate base true path with
  | .file place _ | .missing place => .ok (t.put place (.file content))
  | .directory _ => .error .isDirectory

/-- The names in the directory a path leads to. -/
def list (t : FileTree) (base : Place) (path : String) :
    Except FileError (List DirectoryEntry) := do
  match ← t.locate base false path with
  | .directory place => .ok (t.entries place)
  | .file .. => .error .notDirectory
  | .missing _ => .error .notFound

/-- Whether a path leads to a file or a directory. -/
def leadsSomewhere (t : FileTree) (base : Place) (path : String) : Bool :=
  match t.locate base false path with
  | .ok (.file ..) | .ok (.directory _) => true
  | .ok (.missing _) | .error _ => false

end FileTree

/-! ## A tree as a file system -/

/-- What a program finds when it starts. -/
structure Workspace where
  /-- The files. -/
  tree : FileTree
  /-- The working directory. -/
  directory : Place
  /-- Standard input. -/
  input : ByteArray

instance : FileSystem (StateM Workspace) where
  standardInput := fun w => (w.input, w)
  read path := fun w => (w.tree.read w.directory path, w)
  write path content := fun w =>
    match w.tree.write w.directory path content with
    | .ok tree => (.ok (), { w with tree })
    | .error e => (.error e, w)
  list path := fun w => (w.tree.list w.directory path, w)
  leadsSomewhere path := fun w => (w.tree.leadsSomewhere w.directory path, w)

end TwoPass
