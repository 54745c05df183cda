import GoTemplate.CommandLine.Arguments
import GoTemplate.Generation
import GoTemplate.TypeSet.Arguments

/-!
What the command does. Nothing is written before all code has been generated.
-/

namespace GoTemplate.CommandLine

/-- What a command needs of the system it runs on. -/
structure System (m : Type → Type) where
  /-- The content of a file. -/
  readFile : Text → m (Except SystemFault ByteArray)
  /-- All of the standard input. -/
  readInput : m (Except SystemFault ByteArray)
  /-- Make an empty file, where there is one in its place, and give what writes to it. -/
  createFile : Text → m (Except SystemFault (ByteArray → m (Except SystemFault Unit)))
  /-- Put content on the standard output. -/
  writeOutput : ByteArray → m (Except SystemFault Unit)

/-- Why a command fails. -/
inductive Failure where
  | typeArguments (error : BadTypeArgument)
  | unreadable (path : Text) (fault : SystemFault)
  | unreadableInput (fault : SystemFault)
  | generation (error : GenerationError)
  | uncreatable (path : Text) (fault : SystemFault)
  | unwritable (path : Text) (fault : SystemFault)
  | unwritableOutput (fault : SystemFault)

/-- The wording of a failure. -/
def Failure.message : Failure → String
  | typeArguments error => error.message
  | unreadable path fault => s!"failed to read {String.ofList path}: {fault.message}"
  | unreadableInput fault => s!"failed to read standard input: {fault.message}"
  | generation error => error.fullMessage
  | uncreatable path fault => s!"failed to create {String.ofList path}: {fault.message}"
  | unwritable path fault => s!"failed to write {String.ofList path}: {fault.message}"
  | unwritableOutput fault => s!"failed to write standard output: {fault.message}"

namespace Command

/-- What computes the imports. -/
def normalizer (programs : Programs) (c : Command) : Normalizer :=
  if c.raw then .passthrough else .tool programs c.tool

/-- The name of the template in messages. -/
def filename (c : Command) : Text := c.input.getD "stdin".toList

/-- What is written before the code: a build constraint, where there is a tag. -/
def header (c : Command) : Text :=
  match c.tag with
  | some tag => "// +build ".toList ++ tag ++ "\n\n".toList
  | none => []

/-- The code for a template and type sets, as it is to be written. -/
def code (normalizer : Normalizer) (c : Command) (template : ByteArray) (sets : List TypeSet) :
    Except GenerationError ByteArray := do
  let options : GenerationOptions := ⟨c.filename, c.output, c.package⟩
  let code ← ((generateCode normalizer options sets).run (.ofBytes template)).1
  return c.header.toUtf8 ++ code

variable {m : Type → Type} [Monad m]

/-- What an action of the system gives, or the failure that its refusal means. -/
def attempt {α : Type} (failure : SystemFault → Failure) (action : m (Except SystemFault α)) :
    ExceptT Failure m α :=
  ExceptT.mk do return (← action).mapError failure

/-- The template: the file that is named, or else the standard input. -/
def template (system : System m) (c : Command) : ExceptT Failure m ByteArray :=
  match c.input with
  | some path => attempt (.unreadable path) (system.readFile path)
  | none => attempt .unreadableInput system.readInput

/-- Write code to the file that is named, or else to the standard output. -/
def write (system : System m) (c : Command) (code : ByteArray) : ExceptT Failure m Unit :=
  match c.output with
  | some path => do
    let write ← attempt (.uncreatable path) (system.createFile path)
    attempt (.unwritable path) (write code)
  | none => attempt .unwritableOutput (system.writeOutput code)

/-- Run the command. -/
def run (system : System m) (normalizer : Normalizer) (c : Command) : ExceptT Failure m Unit := do
  let sets ← ExceptT.mk (pure ((TypeSet.parseAll c.typeArguments).mapError .typeArguments))
  let template ← c.template system
  let code ← ExceptT.mk (pure ((c.code normalizer template sets).mapError .generation))
  c.write system code

end Command

/-- How a program ends. -/
inductive Exit where
  | success
  | failure (message : String)
  | usage
  deriving DecidableEq

/-- The status of an end. -/
def Exit.code : Exit → Nat
  | success => 0
  | failure _ => 1
  | usage => 2

/-- Run the command that arguments are. -/
def execute {m : Type → Type} [Monad m] (system : System m) (programs : Programs)
    (environment : Text → Option Text) (arguments : List Text) : m Exit :=
  match Command.parse environment arguments with
  | none => return .usage
  | some c => do
    match ← (c.run system (c.normalizer programs)).run with
    | .ok () => return .success
    | .error failure => return .failure s!"genny: {failure.message}\n"

end GoTemplate.CommandLine
