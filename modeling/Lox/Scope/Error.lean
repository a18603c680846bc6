import Lox.Source.Position

set_option autoImplicit false

/-!
# Scope errors

Faults of scoping, each with the word that it is reported at.
-/

namespace Lox

namespace ScopeError

inductive Cause where
  | alreadyDeclared
  | readInOwnInitializer
  | topLevelReturn
  | valueReturnFromInitializer
  | thisOutsideClass
  | superOutsideClass
  | superWithoutSuperclass
  | selfInheritance
  deriving DecidableEq, Repr

def Cause.message : Cause → String
  | .alreadyDeclared => "Already a variable with this name in this scope."
  | .readInOwnInitializer => "Can't read local variable in its own initializer."
  | .topLevelReturn => "Can't return from top-level code."
  | .valueReturnFromInitializer => "Can't return a value from an initializer."
  | .thisOutsideClass => "Can't use 'this' outside of a class."
  | .superOutsideClass => "Can't use 'super' outside of a class."
  | .superWithoutSuperclass => "Can't use 'super' in a class with no superclass."
  | .selfInheritance => "A class can't inherit from itself."

end ScopeError

structure ScopeError where
  cause : ScopeError.Cause
  lexeme : String
  span : Span
  deriving DecidableEq, Repr

namespace ScopeError

def line (e : ScopeError) : Nat :=
  e.span.line

def text (e : ScopeError) : String :=
  "[line " ++ toString e.line ++ "] Error at '" ++ e.lexeme ++ "': " ++ e.cause.message

end ScopeError

end Lox
