import GoTemplate.CommandLine.FileTree
import GoTemplate.CommandLine.Run
import GoTemplate.Imports.Programs

/-!
A system in which a command can be run without any other: files, a standard input, a standard
output, and a few programs.
-/

namespace GoTemplate.CommandLine

/-- Files, a standard input and a standard output. -/
structure World where
  files : FileTree
  input : ByteArray
  output : ByteArray

namespace World

/-- The directories right below the root that every machine has. -/
def rootDirectories : List Place :=
  ["bin", "dev", "etc", "home", "lib", "media", "mnt", "opt", "proc", "run", "sbin", "srv", "sys",
    "tmp", "usr", "var"].map fun name => Place.root ++ [name.toList]

/-- A world before a command is run in it, with files by their paths. Outside of the working
directory there is little: the null device, and the standard input under its name. -/
def ofFiles (files : List (Text × ByteArray)) (input : ByteArray) : World where
  files :=
    { directories := rootDirectories
      files := (files.map fun (path, content) => (Place.ofPath path, content)) ++
        [(Place.ofPath "/dev/null".toList, .empty), (Place.ofPath "/dev/stdin".toList, input)] }
  input := input
  output := .empty

/-- A world as a system. -/
def system : System (StateM World) where
  readFile path := do return (← get).files.read path
  readInput := do return .ok (← get).input
  createFile path := do
    match (← get).files.create path with
    | .error fault => return .error fault
    | .ok (place, files) =>
      modify fun w => { w with files }
      return .ok fun content => do
        modify fun w => { w with files := w.files.append place content }
        return .ok ()
  writeOutput content := do
    modify fun w => { w with output := w.output ++ content }
    return .ok ()

/-- The programs of a world. A name with a slash is the path of a file. -/
def programs (w : World) : Programs := fun name arguments input =>
  if name.contains '/' then .notStarted (w.files.runFault name)
  else Programs.simple name arguments input

end World

end GoTemplate.CommandLine
