import GoTemplate.Text.Lines
import GoTemplate.Text.Words

/-!
The package of generated code.
-/

namespace GoTemplate.Output

/-- A package line with another name: the second of its words, or a new word at its end. -/
def renamePackageLine (name line : Text) : Text :=
  match line.words with
  | keyword :: _ :: rest => Text.joinWithSpaces (keyword :: name :: rest)
  | short => Text.joinWithSpaces (short ++ [name])

/-- The lines with another name in the first that starts with `package`. -/
def renamePackageLines (name : Text) : List Text → List Text
  | [] => []
  | line :: rest =>
    if "package".toList.isPrefixOf line then renamePackageLine name line :: rest
    else line :: renamePackageLines name rest

/-- A text with another package name. Every line ends with a line feed. -/
def renamePackage (name source : Text) : Text :=
  (renamePackageLines name source.lines).flatMap (· ++ ['\n'])

end GoTemplate.Output
