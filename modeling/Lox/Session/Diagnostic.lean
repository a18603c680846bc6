import Lox.Evaluation.Error
import Lox.Grammar.Error
import Lox.Scope.Error
import Lox.Token.Scan

set_option autoImplicit false

/-!
# Diagnostics

Faults of any phase, as a user sees them.
-/

namespace Lox

inductive Diagnostic where
  | scan (error : ScanError)
  | parse (error : ParseError)
  | scope (error : ScopeError)
  | runtime (error : RuntimeError)

namespace Diagnostic

/-- Whether the fault was found before anything was executed. -/
def isStatic : Diagnostic → Bool
  | .runtime _ => false
  | _ => true

def line : Diagnostic → Nat
  | .scan error => error.line
  | .parse error => error.line
  | .scope error => error.line
  | .runtime error => error.line

def text : Diagnostic → String
  | .scan error => "[line " ++ toString error.line ++ "] Error: " ++ error.message
  | .parse error => error.text
  | .scope error => error.text
  | .runtime error => error.message ++ "\n[line " ++ toString error.line ++ "]"

end Diagnostic

end Lox
