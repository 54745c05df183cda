import GoTemplate.CommandLine.Run
import GoTemplate.Imports.Programs

/-!
The program. It reads templates and writes code on the machine on which it runs.
-/

namespace GoTemplate.Main

open CommandLine

/-- The refusal behind an error of input or output. -/
def systemFault : IO.Error → SystemFault
  | .alreadyExists _ number reason => ⟨reason, number.toNat⟩
  | .otherError number reason => ⟨reason, number.toNat⟩
  | .resourceBusy number reason => ⟨reason, number.toNat⟩
  | .resourceVanished number reason => ⟨reason, number.toNat⟩
  | .unsupportedOperation number reason => ⟨reason, number.toNat⟩
  | .hardwareFault number reason => ⟨reason, number.toNat⟩
  | .unsatisfiedConstraints number reason => ⟨reason, number.toNat⟩
  | .illegalOperation number reason => ⟨reason, number.toNat⟩
  | .protocolError number reason => ⟨reason, number.toNat⟩
  | .timeExpired number reason => ⟨reason, number.toNat⟩
  | .interrupted _ number reason => ⟨reason, number.toNat⟩
  | .noFileOrDirectory _ number reason => ⟨reason, number.toNat⟩
  | .invalidArgument _ number reason => ⟨reason, number.toNat⟩
  | .permissionDenied _ number reason => ⟨reason, number.toNat⟩
  | .resourceExhausted _ number reason => ⟨reason, number.toNat⟩
  | .inappropriateType _ number reason => ⟨reason, number.toNat⟩
  | .noSuchThing _ number reason => ⟨reason, number.toNat⟩
  | .unexpectedEof => ⟨"Input/output error", 5⟩
  | .userError reason => ⟨reason, 5⟩

/-- The result of an action, or the refusal that stopped it. -/
def attempt {α : Type} (action : IO α) : IO (Except SystemFault α) := do
  try
    return .ok (← action)
  catch error =>
    return .error (systemFault error)

/-- All that a stream holds. -/
partial def readAll (stream : IO.FS.Stream) (read : ByteArray) : IO ByteArray := do
  let chunk ← stream.read 65536
  if chunk.isEmpty then return read else readAll stream (read ++ chunk)

/-- Write all content and send it off. -/
def writeAll (stream : IO.FS.Stream) (content : ByteArray) : IO (Except SystemFault Unit) :=
  attempt do
    stream.write content
    stream.flush

/-- The machine as a system. -/
def system : System IO where
  readFile path := attempt (IO.FS.readBinFile (String.ofList path))
  readInput := attempt do readAll (← IO.getStdin) .empty
  createFile path := attempt do
    let file ← IO.FS.Handle.mk (String.ofList path) .write
    return writeAll (.ofHandle file)
  writeOutput content := do writeAll (← IO.getStdout) content

/-- The variables of the environment that concern the command. -/
def environment : IO (List (Text × Text)) :=
  ValueOption.all.filterMapM fun o => do
    return (← IO.getEnv (String.ofList o.variableName)).map fun value => (o.variableName, value.toList)

end GoTemplate.Main

/-- Run the command line. -/
def main (arguments : List String) : IO UInt32 := do
  let settings ← GoTemplate.Main.environment
  let exit ← GoTemplate.CommandLine.execute GoTemplate.Main.system GoTemplate.Programs.simple
    (fun name => settings.lookup name)
    (arguments.map String.toList)
  match exit with
  | .failure message => IO.eprint message
  | .usage => IO.eprintln "usage: genny [options] gen TYPES"
  | .success => pure ()
  return exit.code.toUInt32
