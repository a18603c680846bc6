import Lox.Evaluation.Basic
import Lox.Grammar.Program
import Lox.Scope.Resolve
import Lox.Session.Diagnostic

set_option autoImplicit false

/-!
# Sessions

A session runs one source text after another. Global variables, depths and expression numbers are
kept from text to text, also from those that fail.
-/

namespace Lox

inductive Outcome where
  | ok
  /-- Nothing was executed. -/
  | staticError
  | runtimeError
  /-- The bound on the recursion of the evaluator was reached. -/
  | unfinished
  deriving DecidableEq, Repr

def Outcome.exitCode : Outcome → Nat
  | .ok => 0
  | .staticError => 65
  | .runtimeError | .unfinished => 70

structure Report where
  outcome : Outcome
  diagnostics : List Diagnostic

structure Session where
  machine : Machine
  nextId : ExprId := 0

namespace Session

def start (clock : Clock) (output : Output) : Session :=
  { machine := Machine.start clock output }

def execute (fuel : Nat) (program : Program) (depths : Depths) (s : Session) : Report × Session :=
  match s.machine.run callLimit fuel program depths with
  | (.ok (), machine) => (⟨.ok, []⟩, { s with machine := machine })
  | (.error (.fault error), machine) =>
    (⟨.runtimeError, [.runtime error]⟩, { s with machine := machine })
  | (.error .outOfFuel, machine) => (⟨.unfinished, []⟩, { s with machine := machine })

/-- Runs a source text: tokens, program, depths, execution. The first phase that fails is reported,
and none behind it takes place. -/
def run (fuel : Nat) (source : String) (s : Session) : Report × Session :=
  match Token.tokenize source with
  | .error error => (⟨.staticError, [.scan error]⟩, s)
  | .ok tokens =>
    let parsed := Program.parse tokens s.nextId
    let s := { s with nextId := parsed.nextId }
    match parsed.result with
    | .error errors => (⟨.staticError, errors.map .parse⟩, s)
    | .ok program =>
      match program.resolve with
      | .error errors => (⟨.staticError, errors.map .scope⟩, s)
      | .ok depths => s.execute fuel program depths

def write (text : String) (s : Session) : Session :=
  { s with machine.output.text := s.machine.output.text ++ text }

def takeOutput (s : Session) : String × Session :=
  (s.machine.output.text, { s with machine.output.text := "" })

end Session

end Lox
