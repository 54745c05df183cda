import GoTemplate.TypeSet.Basic

/-!
Type arguments: placeholders with the specific types that each is to have in turn, as they are
given on a command line, and the type sets that they mean.
-/

namespace GoTemplate

/-- What is wrong with one type argument. -/
inductive TypeArgumentFault where
  | malformed
  | repeatedPlaceholder
  | emptyType
  deriving DecidableEq

/-- The wording of a fault. -/
def TypeArgumentFault.message : TypeArgumentFault → String
  | malformed => "Generic=Specific expected"
  | repeatedPlaceholder => "generic type given more than once"
  | emptyType => "empty specific type"

/-- A type argument that cannot be used. -/
structure BadTypeArgument where
  argument : Text
  fault : TypeArgumentFault
  deriving DecidableEq

/-- The wording of the error. -/
def BadTypeArgument.message (e : BadTypeArgument) : String :=
  s!"\"{String.ofList e.argument}\" is bad: {e.fault.message}"

/-- One placeholder with its specific types in order. -/
structure TypeArgument where
  placeholder : Text
  types : List Text
  deriving DecidableEq

namespace TypeArgument

/-- The predeclared types of Go. -/
def builtins : List Text :=
  ["bool", "byte", "complex128", "complex64", "error", "float32", "float64", "int", "int16",
    "int32", "int64", "int8", "rune", "string", "uint", "uint16", "uint32", "uint64", "uint8",
    "uintptr"].map String.toList

/-- The predeclared types of numbers, complex numbers and names for others apart. -/
def numbers : List Text :=
  ["float32", "float64", "int", "int16", "int32", "int64", "int8", "uint", "uint16", "uint32",
    "uint64", "uint8"].map String.toList

/-- The types for which one value stands: two words stand for whole lists. -/
def expand (value : Text) : List Text :=
  if value = "BUILTINS".toList then builtins
  else if value = "NUMBERS".toList then numbers
  else [value]

/-- The argument that a text is, where the placeholders in `seen` have been given before it: a
placeholder, one equality sign, and types separated by commas. -/
def read (seen : List Text) (argument : Text) : Except BadTypeArgument TypeArgument :=
  match Text.splitAt '=' argument with
  | [placeholder, types] =>
    let values := Text.splitAt ',' types
    if placeholder = [] ∨ types = [] then .error ⟨argument, .malformed⟩
    else if placeholder ∈ seen then .error ⟨argument, .repeatedPlaceholder⟩
    else if [] ∈ values then .error ⟨argument, .emptyType⟩
    else .ok ⟨placeholder, values.flatMap expand⟩
  | _ => .error ⟨argument, .malformed⟩

/-- The arguments that a list of texts is, up to the first that cannot be used. -/
def readAll (seen : List Text) : List Text → Except BadTypeArgument (List TypeArgument)
  | [] => .ok []
  | text :: texts => do
    let argument ← read seen text
    let others ← readAll (argument.placeholder :: seen) texts
    return argument :: others

/-- The pieces of a text between single spaces; empty pieces do not count. -/
def split (arguments : Text) : List Text :=
  (Text.splitAt ' ' arguments).filter (· ≠ [])

/-- Every way to choose a type for each placeholder, added to a set. The choice for the first
placeholder varies slowest. -/
def product : List TypeArgument → TypeSet → List TypeSet
  | [], s => [s]
  | argument :: arguments, s =>
    argument.types.flatMap fun type => product arguments (s.insert argument.placeholder type)

end TypeArgument

/-- The type sets that type arguments mean. Without arguments there is none, rather than an empty
one. -/
def TypeSet.parseAll (arguments : Text) : Except BadTypeArgument (List TypeSet) := do
  match ← TypeArgument.readAll [] (TypeArgument.split arguments) with
  | [] => return []
  | arguments => return TypeArgument.product arguments TypeSet.empty

end GoTemplate
