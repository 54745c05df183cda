import GoTemplate.Text.Basic

/-!
The arguments of the command line: options, the word `gen`, and the type arguments. An option that
is not given takes its value from the environment.
-/

namespace GoTemplate.CommandLine

/-- The options that take a value. -/
inductive ValueOption where
  | input | output | package | tag | tool
  deriving DecidableEq

namespace ValueOption

/-- The options in order. -/
def all : List ValueOption := [input, output, package, tag, tool]

/-- The argument that gives an option. -/
def argument : ValueOption → Text
  | input => "--in".toList
  | output => "--out".toList
  | package => "--pkg".toList
  | tag => "--tag".toList
  | tool => "--imports-tool".toList

/-- The variable of the environment for an option. -/
def variableName : ValueOption → Text
  | input => "GENNY_IN".toList
  | output => "GENNY_OUT".toList
  | package => "GENNY_PKG".toList
  | tag => "GENNY_TAG".toList
  | tool => "GENNY_IMPORTS_TOOL".toList

/-- Whether an option names a file, so that its value must not be empty. -/
def isPath : ValueOption → Bool
  | input => true
  | output => true
  | tool => true
  | package => false
  | tag => false

end ValueOption

/-- Values of options. -/
abbrev Values := List (ValueOption × Text)

/-- What the command line asks for. -/
structure Command where
  input : Option Text
  output : Option Text
  package : Option Text
  tag : Option Text
  tool : Text
  raw : Bool
  typeArguments : Text

/-- Whether an argument has the form of an option. A lone hyphen has not. -/
def isOption (argument : Text) : Bool := ['-'].isPrefixOf argument && argument != ['-']

/-- The one argument after the word `gen`. After two hyphens an argument may have any form. -/
def readTypeArguments (anyForm : Bool) (found : Option Text) : List Text → Option Text
  | [] => found
  | argument :: rest =>
    if !anyForm && argument == "--".toList then readTypeArguments true found rest
    else if !anyForm && isOption argument then none
    else match found with
      | none => readTypeArguments anyForm (some argument) rest
      | some _ => none

/-- The options before the word `gen`, whether `--raw` is one of them, and the argument after that
word. An option may be given once. Its value is the next argument, unless that has the form of an
option, or follows an equality sign. -/
def readArguments (values : Values) (raw : Bool) : List Text → Option (Values × Bool × Text)
  | [] => none
  | argument :: rest =>
    if argument = "gen".toList then
      (readTypeArguments false none rest).map fun types => (values, raw, types)
    else if argument = "--raw".toList then
      if raw then none else readArguments values true rest
    else
      match ValueOption.all.find? fun o => o.argument == argument.takeWhile (· ≠ '=') with
      | none => none
      | some o =>
        if (values.lookup o).isSome then none
        else match argument.dropWhile (· ≠ '='), rest with
          | _ :: value, rest => readArguments ((o, value) :: values) raw rest
          | [], value :: rest =>
            if isOption value then none else readArguments ((o, value) :: values) raw rest
          | [], [] => none

/-- The tool for imports where no other is given. -/
def defaultTool : Text := "goimports".toList

/-- The value of an option: from its argument, or else from the environment. -/
def valueOf (values : Values) (environment : Text → Option Text) (o : ValueOption) :
    Option Text :=
  (values.lookup o).or (environment o.variableName)

/-- The command that arguments are; there is none where they break a rule. -/
def Command.parse (environment : Text → Option Text) (arguments : List Text) : Option Command := do
  let (values, raw, typeArguments) ← readArguments [] false arguments
  let value := valueOf values environment
  if ValueOption.all.any fun o => o.isPath && value o == some [] then none
  else some {
    input := value .input
    output := value .output
    package := value .package
    tag := value .tag
    tool := (value .tool).getD defaultTool
    raw
    typeArguments }

end GoTemplate.CommandLine
