import GoTemplate.Imports.Normalizer
import GoTemplate.Text.Utf8

/-!
Simple programs in the place of an import tool.
-/

namespace GoTemplate.Programs

/-- The status of a program that ends with one. -/
def failure : Text := "exit status: 1".toList

/-- The number of bytes that an argument of a program may have. -/
def maxArgumentSize : Nat := 131071

/-- Why a program cannot be started with some arguments, if so: none may hold the character with
code zero, and none may be too long. -/
def argumentFault? (arguments : List Text) : Option SystemFault :=
  if arguments.any (·.contains '\x00') then some .invalidArgument
  else if arguments.any fun argument => maxArgumentSize < Text.byteSize argument then
    some .argumentTooLong
  else none

/-- Why there is no program of a name that is looked for among the programs of a machine. -/
def absence (name : Text) : SystemFault :=
  if Path.maxNameSize < Text.byteSize name then .nameTooLong
  else if Path.isDots name then .permissionDenied
  else .notFound

/-- A program that writes its input and takes no arguments. -/
def copyInput (arguments : List Text) (input : ByteArray) : ProgramResult :=
  if arguments.isEmpty then .succeeded input
  else .failed failure
    "cat: invalid option -- 'r'\nTry 'cat --help' for more information.\n".toList

/-- A program that writes its arguments as one line. -/
def writeArguments (arguments : List Text) (_ : ByteArray) : ProgramResult :=
  .succeeded (Text.toUtf8 (Text.joinWithSpaces arguments ++ ['\n']))

/-- A program that fails without a word. -/
def fail (_ : List Text) (_ : ByteArray) : ProgramResult := .failed failure []

/-- Three programs under their names, and no other. -/
def simple : Programs := fun name arguments input =>
  let known := [("cat".toList, copyInput), ("echo".toList, writeArguments), ("false".toList, fail)]
  match known.lookup name, argumentFault? arguments with
  | none, _ => .notStarted (absence name)
  | some _, some fault => .notStarted fault
  | some run, none => run arguments input

end GoTemplate.Programs
