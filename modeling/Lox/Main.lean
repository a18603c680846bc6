import Lox.CommandLine.Basic
import Lox.CommandLine.Clock

set_option autoImplicit false

/-!
# The command

A script is run to its end before its output is written.
-/

namespace Lox.Main

open CommandLine

/-- No run gets this deep. -/
def fuel : Nat := 1000000000000000000

def startSession : IO Session := do
  return Session.start (← newClock) {}

def readScript (path : String) : IO (Except ReadFailure ByteArray) := do
  try
    return .ok (← IO.FS.readBinFile path)
  catch
    | .noFileOrDirectory .. => return .error .notFound
    | .inappropriateType _ 21 _ => return .error .isDirectory
    | .inappropriateType .. => return .error .notDirectory
    | error => return .error (.other error.toString)

def finish (result : Exit) : IO UInt32 := do
  IO.print result.output
  IO.eprint result.errors
  (← IO.getStdout).flush
  return UInt32.ofNat result.code

/-- The bytes up to the next line feed or the end, behind those already read. -/
partial def readLine (input : IO.FS.Stream) (line : ByteArray) : IO ByteArray := do
  let next ← input.read 1
  if next.isEmpty || next == ⟨#[10]⟩ then return line ++ next
  readLine input (line ++ next)

partial def promptLoop (input output : IO.FS.Stream) (session : Session) : IO UInt32 := do
  try
    output.putStr "> "
    output.flush
  catch _ =>
    IO.eprint (failure "Flushing prompt" "Broken pipe (os error 32)")
    return 1
  let bytes ← readLine input ByteArray.empty
  if bytes.isEmpty then
    output.putStr "\n"
    return 0
  let .ok line := decode bytes
    | IO.eprint (failure "Reading stdin" ReadFailure.invalidText.message)
      return 1
  let session := { session with machine.clock := ← newClock }
  let (result, session) := session.run fuel line
  let (text, session) := session.takeOutput
  output.putStr text
  IO.eprint (report result.diagnostics)
  promptLoop input output session

end Lox.Main

def main (args : List String) : IO UInt32 := do
  let session ← Lox.Main.startSession
  match args with
  | [] => Lox.Main.promptLoop (← IO.getStdin) (← IO.getStdout) session
  | [path] =>
    let source ← Lox.Main.readScript path
    Lox.Main.finish (Lox.CommandLine.script Lox.Main.fuel session path source)
  | _ => Lox.Main.finish Lox.CommandLine.usage
