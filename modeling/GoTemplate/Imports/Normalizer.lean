import GoTemplate.Path
import GoTemplate.SystemFault
import GoTemplate.Text.Basic
import GoTemplate.Unicode.WhiteSpace

/-!
Normalization of imports. Generated code has no imports; a tool that is given the code computes
them and puts the code in form.
-/

namespace GoTemplate

/-- Why a tool gave no code. -/
inductive ImportError where
  | notStarted (tool : Text) (fault : SystemFault)
  | failed (tool status errors : Text)
  deriving DecidableEq

namespace ImportError

/-- The wording of the error, without its cause. -/
def message : ImportError → String
  | notStarted tool _ => s!"failed to run {String.ofList tool}"
  | failed tool status errors =>
    s!"{String.ofList tool} exited with {String.ofList status}: {String.ofList errors}"

/-- The wording of the error with its cause. -/
def fullMessage : ImportError → String
  | notStarted tool fault => s!"{(notStarted tool fault).message}: {fault.message}"
  | e => e.message

end ImportError

/-- What computes the imports of code that is to be written to a file, where there is one. -/
abbrev Normalizer := Option Text → ByteArray → Except ImportError ByteArray

/-- What comes of starting a program: its output, or its status and its error output. -/
inductive ProgramResult where
  | notStarted (fault : SystemFault)
  | succeeded (output : ByteArray)
  | failed (status errors : Text)

/-- The programs of a system by name, as functions of their arguments and their input. -/
abbrev Programs := Text → List Text → ByteArray → ProgramResult

namespace Normalizer

/-- The code as it is. -/
def passthrough : Normalizer := fun _ source => .ok source

/-- The arguments of a tool: the directory of the file that will be written, if its path has
one. -/
def arguments (output : Option Text) : List Text :=
  match output.bind Path.directory? with
  | some directory => ["-srcdir".toList, directory]
  | none => []

/-- The code as a tool writes it. White space at the end of the tool's error output is left
out. -/
def tool (programs : Programs) (name : Text) : Normalizer := fun output source =>
  match programs name (arguments output) source with
  | .notStarted fault => .error (.notStarted name fault)
  | .succeeded code => .ok code
  | .failed status errors =>
    .error (.failed name status (Text.dropEndWhile Unicode.isWhiteSpace errors))

end Normalizer

end GoTemplate
