import Lox.Scope.State

set_option autoImplicit false

/-!
# Resolving names

Scopes stand for the frames that running the program will create: one for each block,
one for each routine with its parameters and body, and for each class one that holds `this`, inside
another that holds `super` if there is a superclass.
-/

namespace Lox

namespace Scope

namespace State

/-- A use of a variable. Its own initializer may not read a variable of the innermost scope. -/
def useName (s : State) (r : Reference) : State :=
  let s := if s.isIncomplete r.name.text then
      s.report .readInOwnInitializer r.name.text r.name.span
    else s
  s.resolve r.id r.name.text

def useThis (s : State) (id : ExprId) (span : Span) : State :=
  match s.classKind with
  | .none => s.report .thisOutsideClass "this" span
  | .base | .subclass => s.resolve id "this"

def useSuper (s : State) (id : ExprId) (span : Span) : State :=
  let s := match s.classKind with
    | .none => s.report .superOutsideClass "super" span
    | .base => s.report .superWithoutSuperclass "super" span
    | .subclass => s
  s.resolve id "super"

def useReturn (s : State) (keyword : Span) (hasValue : Bool) : State :=
  let s := match s.routine with
    | .none => s.report .topLevelReturn "return" keyword
    | _ => s
  match s.routine, hasValue with
  | .initializer, true => s.report .valueReturnFromInitializer "return" keyword
  | _, _ => s

def enterRoutine (s : State) (kind : RoutineKind) (params : List Ident) : State :=
  params.foldl (fun s param => (s.declare param).define param) { s with routine := kind }.push

def leaveRoutine (s : State) (outer : RoutineKind) : State :=
  { s.pop with routine := outer }

/-- The superclass clause of a class, and the scope that holds `super`. -/
def enterSuperclass (s : State) (name : Ident) (superclass : Reference) : State :=
  let s := if superclass.name.text = name.text then
      s.report .selfInheritance superclass.name.text superclass.name.span
    else s
  (({ s with classKind := .subclass }.useName superclass).push).mark "super" true

/-- A class up to its methods: the name, the superclass clause, and the scope that holds `this`. -/
def enterClass (s : State) (name : Ident) (superclass : Option Reference) : State :=
  let s := ({ s with classKind := .base }.declare name).define name
  let s := match superclass with
    | some superclass => s.enterSuperclass name superclass
    | none => s
  s.push.mark "this" true

def leaveClass (s : State) (superclass : Option Reference) (outer : ClassKind) : State :=
  let s := match superclass with
    | some _ => s.pop.pop
    | none => s.pop
  { s with classKind := outer }

end State

/-- A method named `init` initializes new instances. -/
def methodKind (name : Ident) : RoutineKind :=
  if name.text = "init" then .initializer else .method

end Scope

open Scope (State RoutineKind methodKind)

mutual

/-- Resolves the names in an expression. The value of an assignment comes before its target. -/
def Expr.resolve : Expr → State → State
  | .literal .., s => s
  | .ref target, s => s.useName target
  | .assign id name value, s => (value.resolve s).resolve id name.text
  | .binary _ _ _ left right, s => right.resolve (left.resolve s)
  | .logical _ _ _ left right, s => right.resolve (left.resolve s)
  | .unary _ _ _ operand, s => operand.resolve s
  | .call _ _ callee args, s => Expr.resolveAll args (callee.resolve s)
  | .group _ _ inner, s => inner.resolve s
  | .get _ object _, s => object.resolve s
  | .set _ object _ value, s => object.resolve (value.resolve s)
  | .this id span, s => s.useThis id span
  | .super id span _, s => s.useSuper id span

def Expr.resolveAll : List Expr → State → State
  | [], s => s
  | e :: rest, s => Expr.resolveAll rest (e.resolve s)

end

def Expr.resolveOption : Option Expr → State → State
  | some e, s => e.resolve s
  | none, s => s

mutual

def Stmt.resolve : Stmt → State → State
  | .expr value, s => value.resolve s
  | .print value, s => value.resolve s
  | .var name initial, s => (Expr.resolveOption initial (s.declare name)).define name
  | .block body, s => (Stmt.resolveAll body s.push).pop
  | .if condition yes none, s => yes.resolve (condition.resolve s)
  | .if condition yes (some no), s => no.resolve (yes.resolve (condition.resolve s))
  | .while condition body, s => body.resolve (condition.resolve s)
  | .fun routine, s =>
    Stmt.resolveRoutine routine .function ((s.declare routine.name).define routine.name)
  | .return keyword value, s => Expr.resolveOption value (s.useReturn keyword value.isSome)
  | .class name superclass methods, s =>
    (Stmt.resolveMethods methods (s.enterClass name superclass)).leaveClass superclass s.classKind

def Stmt.resolveAll : List Stmt → State → State
  | [], s => s
  | statement :: rest, s => Stmt.resolveAll rest (statement.resolve s)

def Stmt.resolveRoutine : Routine (List Stmt) → RoutineKind → State → State
  | ⟨_, params, body⟩, kind, s =>
    (Stmt.resolveAll body (s.enterRoutine kind params)).leaveRoutine s.routine

def Stmt.resolveMethods : List (Routine (List Stmt)) → State → State
  | [], s => s
  | method :: rest, s =>
    Stmt.resolveMethods rest (Stmt.resolveRoutine method (methodKind method.name) s)

end

/-- The depths of all uses of local names in a program, or all its faults of scoping. -/
def Program.resolve (program : Program) : Except (List ScopeError) Depths :=
  let s := Stmt.resolveAll program {}
  if s.errors.isEmpty then .ok s.depths else .error s.errors.toList

end Lox
