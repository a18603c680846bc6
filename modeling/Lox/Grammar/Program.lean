import Lox.Grammar.Statement

set_option autoImplicit false

/-!
# Parsed programs

The program that a list of tokens stands for.
-/

namespace Lox

/-- What reading a program yields: the program or all its faults, and the first expression number
that was not handed out. -/
structure Parsed where
  result : Except (List ParseError) Program
  nextId : ExprId

/-- Reads a program whose expressions are numbered from `firstId`. -/
def Program.parse (tokens : List Token) (firstId : ExprId) : Parsed :=
  let start := Grammar.State.ofTokens tokens firstId
  match Grammar.declarations (Grammar.fuelFor start.rest.length) start with
  | .ok program finish =>
    ⟨if finish.errors.isEmpty then .ok program else .error finish.errors.toList, finish.nextId⟩
  | .error fault finish => ⟨.error (finish.errors.push fault).toList, finish.nextId⟩

end Lox
