import Lox.Source.Position

set_option autoImplicit false

/-!
# Runtime errors

Faults of a running program, each with the place that it is reported at.
-/

namespace Lox

inductive WriteFailure where
  | brokenPipe
  deriving DecidableEq, Repr

def WriteFailure.message : WriteFailure → String
  | .brokenPipe => "broken pipe"

namespace RuntimeError

inductive Cause where
  | operandsMustBeNumbers
  | operandMustBeNumber
  | invalidAddOperands
  | divisionByZero
  | notCallable
  | arityMismatch (expected found : Nat)
  | onlyInstancesHaveProperties
  | onlyInstancesHaveFields
  | superclassMustBeClass
  | undefinedProperty (name : String)
  | undefinedVariable (name : String)
  | stackOverflow
  | output (failure : WriteFailure)
  /-- The frame at the distance that was recorded for a name does not bind it. -/
  | scopeMismatch (name : String) (distance : Nat)
  deriving DecidableEq, Repr

def Cause.message : Cause → String
  | .operandsMustBeNumbers => "Operands must be numbers."
  | .operandMustBeNumber => "Operand must be a number."
  | .invalidAddOperands => "Operands must be two numbers or two strings."
  | .divisionByZero => "Division by zero."
  | .notCallable => "Can only call functions and classes."
  | .arityMismatch expected found =>
    "Expected " ++ toString expected ++ " arguments but got " ++ toString found ++ "."
  | .onlyInstancesHaveProperties => "Only instances have properties."
  | .onlyInstancesHaveFields => "Only instances have fields."
  | .superclassMustBeClass => "Superclass must be a class."
  | .undefinedProperty name => "Undefined property '" ++ name ++ "'."
  | .undefinedVariable name => "Undefined variable '" ++ name ++ "'."
  | .stackOverflow => "Stack overflow."
  | .output failure => "Could not write output: " ++ failure.message ++ "."
  | .scopeMismatch name distance =>
    "No binding for '" ++ name ++ "' at scope distance " ++ toString distance ++ "."

end RuntimeError

structure RuntimeError where
  cause : RuntimeError.Cause
  span : Span
  deriving DecidableEq, Repr

namespace RuntimeError

def message (e : RuntimeError) : String :=
  e.cause.message

def line (e : RuntimeError) : Nat :=
  e.span.line

end RuntimeError

end Lox
