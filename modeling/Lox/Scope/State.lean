import Lox.Bindings
import Lox.Scope.Depths
import Lox.Scope.Error

set_option autoImplicit false

/-!
# The state of resolving

What is known at a point of a program while its names are resolved: the scopes around the point,
what encloses it, and the depths and faults found so far. The top level is no scope.
-/

namespace Lox.Scope

/-- The names of one scope, each with whether its declaration is complete. -/
abbrev Names := Bindings Bool

inductive RoutineKind where
  | none | function | initializer | method
  deriving DecidableEq, Repr

inductive ClassKind where
  | none | base | subclass
  deriving DecidableEq, Repr

structure State where
  /-- Innermost first. -/
  scopes : List Names := []
  routine : RoutineKind := .none
  classKind : ClassKind := .none
  depths : Depths := ∅
  errors : Array ScopeError := #[]

namespace State

def report (s : State) (cause : ScopeError.Cause) (lexeme : String) (span : Span) : State :=
  { s with errors := s.errors.push ⟨cause, lexeme, span⟩ }

def push (s : State) : State :=
  { s with scopes := ∅ :: s.scopes }

def pop (s : State) : State :=
  { s with scopes := s.scopes.tail }

/-- Sets a name of the innermost scope; at the top level there is nothing to set. -/
def mark (s : State) (name : String) (complete : Bool) : State :=
  match s.scopes with
  | [] => s
  | innermost :: outer => { s with scopes := innermost.insert name complete :: outer }

def declares (s : State) (name : String) : Bool :=
  match s.scopes with
  | [] => false
  | innermost :: _ => innermost.contains name

/-- Whether a name of the innermost scope is still being declared. -/
def isIncomplete (s : State) (name : String) : Bool :=
  match s.scopes with
  | [] => false
  | innermost :: _ => innermost.find? name == some false

/-- Starts the declaration of a name. A second declaration in one scope is a fault. -/
def declare (s : State) (name : Ident) : State :=
  let s := if s.declares name.text then s.report .alreadyDeclared name.text name.span else s
  s.mark name.text false

def define (s : State) (name : Ident) : State :=
  s.mark name.text true

/-- How many scopes out the innermost scope with a name lies. -/
def depth? (s : State) (name : String) : Option Nat :=
  s.scopes.findIdx? (·.contains name)

/-- Notes the depth of a use, unless no scope has the name. -/
def resolve (s : State) (id : ExprId) (name : String) : State :=
  match s.depth? name with
  | some depth => { s with depths := s.depths.insert id depth }
  | none => s

end State

end Lox.Scope
