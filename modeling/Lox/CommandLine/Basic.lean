import Lox.Session.Basic

set_option autoImplicit false

/-!
# The command line

With one argument a script is run, without arguments a prompt reads a session line by line.
-/

namespace Lox.CommandLine

inductive ReadFailure where
  | notFound
  | isDirectory
  | notDirectory
  | invalidText
  | other (message : String)
  deriving DecidableEq, Repr

def ReadFailure.message : ReadFailure → String
  | .notFound => "No such file or directory (os error 2)"
  | .isDirectory => "Is a directory (os error 21)"
  | .notDirectory => "Not a directory (os error 20)"
  | .invalidText => "stream did not contain valid UTF-8"
  | .other message => message

def decode (bytes : ByteArray) : Except ReadFailure String :=
  match String.fromUTF8? bytes with
  | some text => .ok text
  | none => .error .invalidText

structure Exit where
  code : Nat
  output : String := ""
  errors : String := ""

def usage : Exit :=
  { code := 64, errors := "Usage: loxwalk [script]\n" }

def report (diagnostics : List Diagnostic) : String :=
  String.join (diagnostics.map fun d => d.text ++ "\n")

/-- Runs a script that was read from a path, or reports why it could not be read. -/
def script (fuel : Nat) (session : Session) (path : String)
    (source : Except ReadFailure ByteArray) :
    Exit :=
  match source.bind decode with
  | .error failure =>
    { code := 74, errors := "Reading " ++ path ++ ": " ++ failure.message ++ "\n" }
  | .ok source =>
    let (result, session) := session.run fuel source
    { code := result.outcome.exitCode
      output := session.machine.output.text
      errors := report result.diagnostics }

def failure (context cause : String) : String :=
  "Error: " ++ context ++ "\n\nCaused by:\n    " ++ cause ++ "\n"

def lines : List UInt8 → List UInt8 → List ByteArray
  | [], [] => []
  | pending, [] => [⟨pending.reverse.toArray⟩]
  | pending, byte :: rest =>
    if byte = 10 then ⟨(byte :: pending).reverse.toArray⟩ :: lines [] rest
    else lines (byte :: pending) rest

/-- Reads lines in a session, with a mark before each. A line that is no text ends the prompt. -/
def promptLines (fuel : Nat) (session : Session) (errors : String) : List ByteArray → Exit
  | [] =>
    let session := session.write "> \n"
    { code := 0, output := session.machine.output.text, errors := errors }
  | line :: rest =>
    let session := session.write "> "
    match decode line with
    | .error cause =>
      { code := 1
        output := session.machine.output.text
        errors := errors ++ failure "Reading stdin" cause.message }
    | .ok line =>
      let (result, session) := session.run fuel line
      promptLines fuel session (errors ++ report result.diagnostics) rest

/-- The prompt. It cannot start if nobody takes what it writes. -/
def prompt (fuel : Nat) (session : Session) (input : ByteArray) : Exit :=
  if session.machine.output.isOpen then
    promptLines fuel session "" (lines [] input.toList)
  else
    { code := 1, errors := failure "Flushing prompt" "Broken pipe (os error 32)" }

def run (fuel : Nat) (session : Session) (readFile : String → Except ReadFailure ByteArray)
    (input : ByteArray) : List String → Exit
  | [] => prompt fuel session input
  | [path] => script fuel session path (readFile path)
  | _ => usage

end Lox.CommandLine
