import Lox.Evaluation.Machine

set_option autoImplicit false

/-!
# Evaluation

Expressions are evaluated and statements are executed. The first argument is the number of calls
that may be executed at a time. The second bounds the depth of the recursion: each function calls
the others with a smaller one, and with none left the evaluation is interrupted. A result that is
reached with some bound is reached with every larger one.
-/

namespace Lox

/-- The number of calls that may be executed at a time. -/
def callLimit : Nat := 4096

mutual

def Eval.expr (limit : Nat) : Nat → Expr → Eval Value
  | 0, _ => throw .outOfFuel
  | fuel + 1, e =>
    match e with
    | .literal _ _ value => return value.value
    | .ref target => Eval.lookup target.id target.name.text target.name.span
    | .assign id name value => do
      let value ← Eval.expr limit fuel value
      Eval.assign id name value
      return value
    | .binary _ span op left right => do
      let left ← Eval.expr limit fuel left
      let right ← Eval.expr limit fuel right
      Eval.ofCause (op.apply left right) span
    | .logical _ _ op left right => do
      let left ← Eval.expr limit fuel left
      if op.isSettledBy left then return left else Eval.expr limit fuel right
    | .unary _ span op operand => do
      let operand ← Eval.expr limit fuel operand
      Eval.ofCause (op.apply operand) span
    | .call _ span callee args => do
      let callee ← Eval.expr limit fuel callee
      let args ← Eval.exprs limit fuel args
      Eval.counted limit span (Eval.call limit fuel callee args span)
    | .group _ _ inner => Eval.expr limit fuel inner
    | .get _ object name => do
      match ← Eval.expr limit fuel object with
      | .instance object => Eval.getProperty object name.text name.span
      | _ => Eval.raise .onlyInstancesHaveProperties name.span
    | .set _ object name value => do
      match ← Eval.expr limit fuel object with
      | .instance object =>
        let value ← Eval.expr limit fuel value
        Eval.setField object name.text value
        return value
      | _ => Eval.raise .onlyInstancesHaveFields name.span
    | .this id span => Eval.lookup id "this" span
    | .super id span method => Eval.superMethod id span method

def Eval.exprs (limit : Nat) : Nat → List Expr → Eval (List Value)
  | 0, _ => throw .outOfFuel
  | _ + 1, [] => return []
  | fuel + 1, e :: rest => do
    let value ← Eval.expr limit fuel e
    return value :: (← Eval.exprs limit fuel rest)

def Eval.call (limit : Nat) : Nat → Value → List Value → Span → Eval Value
  | 0, _, _, _ => throw .outOfFuel
  | fuel + 1, callee, args, span =>
    match callee.callable? with
    | none => Eval.raise .notCallable span
    | some callable =>
      if callable.arity ≠ args.length then
        Eval.raise (.arityMismatch callable.arity args.length) span
      else
        match callable with
        | .native .clock => return .number (← Eval.readClock)
        | .function function => Eval.apply limit fuel function args
        | .class cls => Eval.instantiate limit fuel cls args

/-- Runs the body of a function in a new frame with its parameters. An initializer yields its
instance, however its body ends. -/
def Eval.apply (limit : Nat) : Nat → Function → List Value → Eval Value
  | 0, _, _ => throw .outOfFuel
  | fuel + 1, function, args => do
    let env ← Eval.enclose function.closure (function.bindArguments args)
    let flow ← Eval.within env (Eval.stmts limit fuel function.routine.body)
    if function.isInitializer then
      Eval.ofExcept ((← get).store.getAt function.closure 0 "this" function.routine.name.span)
    else
      match flow with
      | .return value => return value
      | .next => return .nil

def Eval.instantiate (limit : Nat) : Nat → Class → List Value → Eval Value
  | 0, _, _ => throw .outOfFuel
  | fuel + 1, cls, args => do
    let object ← Eval.newInstance cls
    match cls.initializer? with
    | some method =>
      let initializer ← Eval.bindMethod method object
      let _ ← Eval.apply limit fuel initializer args
      return .instance object
    | none => return .instance object

def Eval.stmt (limit : Nat) : Nat → Stmt → Eval Flow
  | 0, _ => throw .outOfFuel
  | fuel + 1, s =>
    match s with
    | .expr value => do
      let _ ← Eval.expr limit fuel value
      return .next
    | .print value => do
      let printed ← Eval.expr limit fuel value
      Eval.print printed.text value.span
      return .next
    | .var name initial => do
      let value ← match initial with
        | some initial => Eval.expr limit fuel initial
        | none => pure .nil
      Eval.define name.text value
      return .next
    | .block body => do
      let env ← Eval.enclose (← get).env ∅
      Eval.within env (Eval.stmts limit fuel body)
    | .if condition yes no => do
      if (← Eval.expr limit fuel condition).isTruthy then
        Eval.stmt limit fuel yes
      else
        match no with
        | some no => Eval.stmt limit fuel no
        | none => return .next
    | .while condition body => Eval.loop limit fuel condition body
    | .fun routine => do
      Eval.declareFunction routine
      return .next
    | .return _ value => do
      match value with
      | some value => return .return (← Eval.expr limit fuel value)
      | none => return .return .nil
    | .class name superclass methods => do
      Eval.declareClass name superclass methods
      return .next

def Eval.loop (limit : Nat) : Nat → Expr → Stmt → Eval Flow
  | 0, _, _ => throw .outOfFuel
  | fuel + 1, condition, body => do
    if (← Eval.expr limit fuel condition).isTruthy then
      match ← Eval.stmt limit fuel body with
      | .next => Eval.loop limit fuel condition body
      | .return value => return .return value
    else
      return .next

/-- Statements in order, up to one that returns. -/
def Eval.stmts (limit : Nat) : Nat → List Stmt → Eval Flow
  | 0, _ => throw .outOfFuel
  | _ + 1, [] => return .next
  | fuel + 1, s :: rest => do
    match ← Eval.stmt limit fuel s with
    | .next => Eval.stmts limit fuel rest
    | .return value => return .return value

end

/-- Runs a program with the depths of its uses of names, which are added to those of earlier
programs. Afterwards the machine is back at the top level, also if the program failed. -/
def Machine.run (limit fuel : Nat) (program : Program) (depths : Depths) (m : Machine) :
    Except Interruption Unit × Machine :=
  match Eval.stmts limit fuel program { m with depths := m.depths.merge depths } with
  | .ok _ m => (.ok (), { m with env := m.globals, callDepth := 0 })
  | .error e m => (.error e, { m with env := m.globals, callDepth := 0 })

end Lox
