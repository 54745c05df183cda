import GoTemplate.Path
import GoTemplate.SystemFault

/-!
Files by their places, and where a path leads among them. Paths are followed name by name, so that
of two reasons for a refusal the one that comes first in the path counts.
-/

namespace GoTemplate.CommandLine

/-- The names that lead to a file or a directory from the working directory. Two points stand for
a directory above, and only at the front; a place that is reached from the root starts with a
slash for the root. -/
abbrev Place := List Text

namespace Place

/-- The root of all directories. -/
def root : Place := [['/']]

/-- Whether a place is the working directory or a directory above it. -/
def isAbove (place : Place) : Bool := place.all (· == ['.', '.'])

/-- The directory that holds a place. The root holds itself. -/
def parent (place : Place) : Place :=
  if place = root then root
  else if place.isAbove then place ++ [['.', '.']]
  else place.dropLast

/-- The place to which a name leads from a directory. -/
def enter (place : Place) (name : Text) : Place :=
  if name = ['.'] then place
  else if name = ['.', '.'] then place.parent
  else place ++ [name]

/-- The place at which a path starts. -/
def start (path : Text) : Place := if Path.isAbsolute path then root else []

/-- The place to which a path leads where there are all the directories that it names. -/
def ofPath (path : Text) : Place := (Path.names path).foldl enter (start path)

end Place

/-- Directories and files by their places. A directory is also there where a file is in it. -/
structure FileTree where
  directories : List Place
  files : List (Place × ByteArray)

/-- What is at a place. -/
inductive FileTree.Entry where
  | directory
  | file (content : ByteArray)
  | absent

namespace FileTree

/-- The content of a file. -/
def file? (tree : FileTree) (place : Place) : Option ByteArray := tree.files.lookup place

/-- Whether there is a directory at a place. Those above the working directory are all there. -/
def hasDirectory (tree : FileTree) (place : Place) : Bool :=
  place.isAbove || place == Place.root || tree.directories.contains place ||
    tree.files.any fun (file, _) => place.isPrefixOf file && place != file

/-- Give a file a content. -/
def put (tree : FileTree) (place : Place) (content : ByteArray) : FileTree :=
  { tree with files := (place, content) :: tree.files.filter (·.1 ≠ place) }

/-- Add content at the end of a file. -/
def append (tree : FileTree) (place : Place) (content : ByteArray) : FileTree :=
  tree.put place ((tree.file? place).getD .empty ++ content)

/-- What a directory holds under a name. -/
def entry (tree : FileTree) (directory : Place) (name : Text) : Except SystemFault Entry :=
  let place := directory ++ [name]
  if Path.maxNameSize < Text.byteSize name then .error .nameTooLong
  else if tree.hasDirectory place then .ok .directory
  else match tree.file? place with
    | some content => .ok (.file content)
    | none => .ok .absent

/-- The directory to which a name leads from another. -/
def enter (tree : FileTree) (directory : Place) (name : Text) : Except SystemFault Place := do
  if Path.isDots name then return directory.enter name
  match ← tree.entry directory name with
  | .directory => return directory.enter name
  | .file _ => throw .notDirectory
  | .absent => throw .notFound

/-- The directory in which the last name of a path is looked up, and that name. A path without
such a name, as `/` and `a/..` are, leads to a directory as a whole. -/
def approach (tree : FileTree) (path : Text) : Except SystemFault (Place × Option Text) := do
  if path = [] then throw .notFound
  if Path.maxSize < Text.byteSize path then throw .nameTooLong
  let names := Path.names path
  match names.getLast? with
  | none => return (.start path, none)
  | some last =>
    let directory ← names.dropLast.foldlM tree.enter (.start path)
    return if Path.isDots last then (directory.enter last, none) else (directory, some last)

/-- The content of the file at a path. -/
def read (tree : FileTree) (path : Text) : Except SystemFault ByteArray := do
  match ← tree.approach path with
  | (_, none) => throw .isDirectory
  | (directory, some name) =>
    match ← tree.entry directory name with
    | .directory => throw .isDirectory
    | .file content => if Path.isClosed path then throw .notDirectory else return content
    | .absent => throw .notFound

/-- The place of the file at a path, and the tree with that file empty. A file is made where there
is nothing. -/
def create (tree : FileTree) (path : Text) : Except SystemFault (Place × FileTree) := do
  match ← tree.approach path with
  | (_, none) => throw .isDirectory
  | (directory, some name) =>
    if Path.isClosed path then throw .isDirectory
    match ← tree.entry directory name with
    | .directory => throw .isDirectory
    | _ => return (directory ++ [name], tree.put (directory ++ [name]) .empty)

/-- Why the file at a path cannot be run. None of the files is a program. -/
def runFault (tree : FileTree) (path : Text) : SystemFault :=
  match tree.read path with
  | .ok _ => .permissionDenied
  | .error fault => if fault = .isDirectory then .permissionDenied else fault

end FileTree

end GoTemplate.CommandLine
