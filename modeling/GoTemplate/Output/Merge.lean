import GoTemplate.Text.Lines

/-!
Instances put together in one source file.
-/

namespace GoTemplate.Output

/-- What stands before all else in generated code. -/
def banner : Text :=
  ("\n\n// This file was automatically generated by genny.\n" ++
    "// Any changes will be lost if this file is regenerated.\n" ++
    "// see https://github.com/cheekybits/genny\n\n").toList

/-- What a line starts with that asks for this generation. -/
def directive : Text := "//go:generate genny ".toList

/-- The lines that stay. Of all lines that start with `package` only the first does; lines that
start with `import` go, with the lines of an import block up to its closing bracket, and so do
lines that start with the directive. -/
def cleanLines (packageSeen insideImports : Bool) : List Text → List Text
  | [] => []
  | line :: rest =>
    if insideImports then cleanLines packageSeen (!([')'].isSuffixOf line)) rest
    else if "package".toList.isPrefixOf line then
      if packageSeen then cleanLines true false rest else line :: cleanLines true false rest
    else if "import".toList.isPrefixOf line then
      cleanLines packageSeen (['('].isSuffixOf line) rest
    else if directive.isPrefixOf line then cleanLines packageSeen false rest
    else line :: cleanLines packageSeen false rest

/-- The banner and the instances, cleaned. -/
def merge (instances : List Text) : Text :=
  (cleanLines false false (Text.lines (banner ++ instances.flatten))).flatMap Text.asLine

end GoTemplate.Output
